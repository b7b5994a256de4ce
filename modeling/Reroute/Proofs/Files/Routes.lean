import Mathlib
import Reroute.Files.Tree
import Reroute.Proofs.Files.Paths

/-!
# Routes

A path is followed one part at a time.  A part stays, goes up, or is looked up as a name, and
then there is an entry of that name or none.  A link on the way is replaced by its target.
`Follows` has a rule for each of these steps, and describes the same answers as `follow` does, so
that a fact about all answers is proved rule by rule.  A path that leads to a directory goes on
from there.
-/

namespace Reroute

namespace Entry

theorem isDirectory_of_member? {entry inner : Entry} {name : Bytes}
    (member : entry.member? name = some inner) : ∃ entries, entry = .directory entries := by
  cases entry with
  | directory entries => exact ⟨entries, rfl⟩
  | _ => cases member

theorem descend_cons (entry : Entry) (name : Bytes) (names : List Bytes) :
    entry.descend (name :: names) = (entry.member? name).bind fun inner => inner.descend names := by
  rw [descend]
  cases entry.member? name with
  | none => rfl
  | some inner => rfl

theorem descend_append (entry : Entry) (names rest : List Bytes) :
    entry.descend (names ++ rest) = (entry.descend names).bind fun inner => inner.descend rest := by
  induction names generalizing entry with
  | nil => rfl
  | cons name names induction =>
      rw [List.cons_append, descend_cons, descend_cons, Option.bind_assoc]
      congr 1
      funext inner
      exact induction inner

theorem descend_concat (entry : Entry) (names : List Bytes) (name : Bytes) :
    entry.descend (names ++ [name]) = (entry.descend names).bind (Entry.member? name) := by
  rw [descend_append]
  congr 1
  funext inner
  rw [descend_cons]
  exact Option.bind_fun_some _

end Entry

namespace Files

/-- The part of a path is looked up as a name. -/
structure LookedUp (part : Bytes) : Prop where
  moving : (part.isEmpty || part == Path.here) = false
  notUp : (part == Path.above) = false

theorem LookedUp.of_proper {name : Bytes} (proper : Path.Proper name) : LookedUp name where
  moving := by simp [proper.nonempty, proper.notHere]
  notUp := by simp [proper.notAbove]

/-- The name is looked up and not too long, and this is found at it. -/
structure Meets (top : Entry) (place : List Bytes) (part : Bytes) (found : Option Entry) :
    Prop where
  looked : LookedUp part
  short : part.length ≤ longestName
  found : top.descend (part :: place).reverse = found

/-- From a place, parts of a path lead to an answer. -/
inductive Follows (top : Entry) (followLast : Bool) :
    Nat → List Bytes → List Bytes → Except FileError Reached → Prop where
  | arrived {links place entry} :
      top.descend place.reverse = some entry →
      Follows top followLast links place [] (.ok (.found place.reverse entry))
  | lost {links place} :
      top.descend place.reverse = none → Follows top followLast links place [] (.error .missing)
  | stay {links place part rest answer} :
      (part.isEmpty || part == Path.here) = true → Follows top followLast links place rest answer →
      Follows top followLast links place (part :: rest) answer
  | up {links place rest answer} :
      Follows top followLast links place.tail rest answer →
      Follows top followLast links place (Path.above :: rest) answer
  | long {links place part rest} :
      LookedUp part → longestName < part.length →
      Follows top followLast links place (part :: rest) (.error .nameTooLong)
  | free {links place part rest} :
      Meets top place part none → rest.all List.isEmpty = true →
      Follows top followLast links place (part :: rest) (.ok (.free (part :: place).reverse))
  | missing {links place part rest} :
      Meets top place part none → rest.all List.isEmpty = false →
      Follows top followLast links place (part :: rest) (.error .missing)
  | kept {links place part target} :
      Meets top place part (some (.link target)) → followLast = false →
      Follows top followLast links place [part]
        (.ok (.found (part :: place).reverse (.link target)))
  | nowhere {links place part rest target} :
      Meets top place part (some (.link target)) → (rest.isEmpty && !followLast) = false →
      target.isEmpty = true → Follows top followLast links place (part :: rest) (.error .missing)
  | tooMany {place part rest target} :
      Meets top place part (some (.link target)) → (rest.isEmpty && !followLast) = false →
      target.isEmpty = false →
      Follows top followLast 0 place (part :: rest) (.error .tooManyLinks)
  | link {links place part rest target answer} :
      Meets top place part (some (.link target)) → (rest.isEmpty && !followLast) = false →
      target.isEmpty = false →
      Follows top followLast links (startOf place target)
        (Bytes.splitOn Bytes.slash target ++ rest) answer →
      Follows top followLast (links + 1) place (part :: rest) answer
  | down {links place part rest members answer} :
      Meets top place part (some (.directory members)) →
      Follows top followLast links (part :: place) rest answer →
      Follows top followLast links place (part :: rest) answer
  | leaf {links place part entry} :
      Meets top place part (some entry) → (∀ target, entry ≠ .link target) →
      entry.isDirectory = false →
      Follows top followLast links place [part] (.ok (.found (part :: place).reverse entry))
  | notDirectory {links place part rest entry} :
      Meets top place part (some entry) → (∀ target, entry ≠ .link target) →
      entry.isDirectory = false → rest ≠ [] →
      Follows top followLast links place (part :: rest) (.error .notDirectory)

variable {top : Entry} {followLast : Bool} {links : Nat} {place parts : List Bytes}
  {answer : Except FileError Reached}

theorem follows_follow (top : Entry) (followLast : Bool) (links : Nat)
    (place parts : List Bytes) :
    Follows top followLast links place parts (follow top followLast links place parts) := by
  -- A link uses one up, and everything else one part.
  induction links using Nat.strong_induction_on generalizing place parts with
  | h links outer =>
      induction parts generalizing place with
      | nil =>
          rw [follow]
          split
          · next found => exact .arrived found
          · next missing => exact .lost missing
      | cons part rest inner =>
          rw [follow.eq_def]
          dsimp only
          rw [← Entry.descend_concat, ← List.reverse_cons]
          split
          · next staying => exact .stay staying (inner place)
          · next moving =>
              split
              · next upward =>
                  obtain rfl := beq_iff_eq.mp upward
                  exact .up (inner place.tail)
              · next notUp =>
                  rw [Bool.not_eq_true] at moving notUp
                  have looked : LookedUp part := ⟨moving, notUp⟩
                  split
                  · next long => exact .long looked long
                  · next fits =>
                      have short := Nat.not_lt.mp fits
                      split
                      · next missing =>
                          split
                          · next ended => exact .free ⟨looked, short, missing⟩ ended
                          · next more =>
                              exact .missing ⟨looked, short, missing⟩ (Bool.not_eq_true _ ▸ more)
                      · next target found =>
                          split
                          · next last =>
                              rw [Bool.and_eq_true, Bool.not_eq_true', List.isEmpty_iff] at last
                              obtain ⟨rfl, stopped⟩ := last
                              exact .kept ⟨looked, short, found⟩ stopped
                          · next onward =>
                              rw [Bool.not_eq_true] at onward
                              split
                              · next empty => exact .nowhere ⟨looked, short, found⟩ onward empty
                              · next filled =>
                                  rw [Bool.not_eq_true] at filled
                                  cases links with
                                  | zero => exact .tooMany ⟨looked, short, found⟩ onward filled
                                  | succ links =>
                                      exact .link ⟨looked, short, found⟩ onward filled
                                        (outer links (Nat.lt_succ_self links) _ _)
                      · next found => exact .down ⟨looked, short, found⟩ (inner (part :: place))
                      · next entry noLink noDirectory found =>
                          have leaf : entry.isDirectory = false := by
                            cases entry with
                            | directory members => exact absurd rfl (noDirectory members)
                            | _ => rfl
                          split
                          · next last =>
                              obtain rfl := List.isEmpty_iff.mp last
                              exact .leaf ⟨looked, short, found⟩ noLink leaf
                          · next more =>
                              exact .notDirectory ⟨looked, short, found⟩ noLink leaf
                                (by simpa using more)

/-- Go on from a name by what is found at it. -/
def meet (top : Entry) (followLast : Bool) (links : Nat) (place : List Bytes) (part : Bytes)
    (rest : List Bytes) : Option Entry → Except FileError Reached
  | none =>
      if rest.all List.isEmpty then .ok (.free (part :: place).reverse) else .error .missing
  | some (.link target) =>
      if rest.isEmpty && !followLast then .ok (.found (part :: place).reverse (.link target))
      else if target.isEmpty then .error .missing
      else
        match links with
        | 0 => .error .tooManyLinks
        | links + 1 =>
            follow top followLast links (startOf place target)
              (Bytes.splitOn Bytes.slash target ++ rest)
  | some (.directory _) => follow top followLast links (part :: place) rest
  | some entry =>
      if rest.isEmpty then .ok (.found (part :: place).reverse entry) else .error .notDirectory

theorem Meets.follow_cons {part : Bytes} {found : Option Entry}
    (meets : Meets top place part found) (rest : List Bytes) :
    follow top followLast links place (part :: rest) =
      meet top followLast links place part rest found := by
  obtain ⟨⟨moving, notUp⟩, short, found⟩ := meets
  rw [follow.eq_def]
  dsimp only
  rw [moving, notUp, if_neg Bool.false_ne_true, if_neg Bool.false_ne_true,
    if_neg (Nat.not_lt.mpr short), ← Entry.descend_concat, ← List.reverse_cons, found]
  rfl

theorem meet_leaf {part : Bytes} {rest : List Bytes} {entry : Entry}
    (noLink : ∀ target, entry ≠ .link target) (leaf : entry.isDirectory = false) :
    meet top followLast links place part rest (some entry) =
      if rest.isEmpty then .ok (.found (part :: place).reverse entry)
      else .error .notDirectory := by
  cases entry with
  | directory members => cases leaf
  | link target => exact absurd rfl (noLink target)
  | file content => rfl
  | database tables => rfl

theorem Follows.follow_eq (follows : Follows top followLast links place parts answer) :
    follow top followLast links place parts = answer := by
  induction follows with
  | arrived found => rw [follow, found]
  | lost missing => rw [follow, missing]
  | stay staying _ induction =>
      rw [follow.eq_def]
      exact (if_pos staying).trans induction
  | up _ induction =>
      rw [follow.eq_def]
      exact induction
  | long looked long =>
      rw [follow.eq_def]
      dsimp only
      rw [looked.moving, looked.notUp, if_neg Bool.false_ne_true, if_neg Bool.false_ne_true,
        if_pos long]
  | free meets ended => exact (meets.follow_cons _).trans (if_pos ended)
  | missing meets more =>
      exact (meets.follow_cons _).trans (if_neg (Bool.eq_false_iff.mp more))
  | kept meets stopped =>
      rw [meets.follow_cons, stopped]
      rfl
  | nowhere meets onward empty =>
      rw [meets.follow_cons]
      exact (if_neg (Bool.eq_false_iff.mp onward)).trans (if_pos empty)
  | tooMany meets onward filled =>
      rw [meets.follow_cons]
      exact (if_neg (Bool.eq_false_iff.mp onward)).trans (if_neg (Bool.eq_false_iff.mp filled))
  | link meets onward filled _ induction =>
      rw [meets.follow_cons, ← induction]
      exact (if_neg (Bool.eq_false_iff.mp onward)).trans (if_neg (Bool.eq_false_iff.mp filled))
  | down meets _ induction => exact (meets.follow_cons _).trans induction
  | leaf meets noLink leaf => exact (meets.follow_cons []).trans (meet_leaf noLink leaf)
  | notDirectory meets noLink leaf more =>
      rw [meets.follow_cons, meet_leaf noLink leaf, if_neg (by simpa using more)]

theorem follow_eq_iff : follow top followLast links place parts = answer ↔
    Follows top followLast links place parts answer := by
  constructor
  · rintro rfl
    exact follows_follow top followLast links place parts
  · exact Follows.follow_eq

namespace Follows

/-- A path that leads to an entry leads to part of the tree. -/
theorem descend (follows : Follows top followLast links place parts answer) {names : List Bytes}
    {entry : Entry} (reached : answer = .ok (.found names entry)) :
    top.descend names = some entry := by
  induction follows with
  | arrived found =>
      cases reached
      exact found
  | stay _ _ induction => exact induction reached
  | up _ induction => exact induction reached
  | link _ _ _ _ induction => exact induction reached
  | down _ _ induction => exact induction reached
  | kept meets =>
      cases reached
      exact meets.found
  | leaf meets =>
      cases reached
      exact meets.found
  | _ => cases reached

/-- What is found at the last name is the answer, unless a link has to be followed. -/
theorem of_meets {part : Bytes} {entry : Entry} (meets : Meets top place part (some entry))
    (plain : followLast = true → ∀ target, entry ≠ .link target) :
    Follows top followLast links place [part] (.ok (.found (part :: place).reverse entry)) := by
  cases entry with
  | directory members => exact .down meets (.arrived meets.found)
  | link target =>
      apply Follows.kept meets
      rw [← Bool.not_eq_true]
      exact fun following => plain following target rfl
  | file content => exact .leaf meets nofun rfl
  | database tables => exact .leaf meets nofun rfl

section

variable (follows : Follows top followLast links place parts answer) {dir : List Bytes}
  {members : List (Bytes × Entry)} (reached : answer = .ok (.found dir (.directory members)))

include follows reached

/-- A path that leads to a directory goes on from there, with some of the links left. -/
theorem exists_append {rest : List Bytes} (more : rest ≠ []) (followLast : Bool) :
    ∃ fewer, ∀ final, Follows top followLast fewer dir.reverse rest final →
      Follows top followLast links place (parts ++ rest) final := by
  induction follows with
  | @arrived links place entry found =>
      cases reached
      rw [List.reverse_reverse]
      exact ⟨links, fun _ onward => onward⟩
  | stay staying _ induction =>
      obtain ⟨fewer, onward⟩ := induction reached
      exact ⟨fewer, fun final ends => .stay staying (onward final ends)⟩
  | up _ induction =>
      obtain ⟨fewer, onward⟩ := induction reached
      exact ⟨fewer, fun final ends => .up (onward final ends)⟩
  | link meets _ filled _ induction =>
      obtain ⟨fewer, onward⟩ := induction reached
      refine ⟨fewer, fun final ends => .link meets (by simp [more]) filled ?_⟩
      have whole := onward final ends
      rw [List.append_assoc] at whole
      exact whole
  | down meets _ induction =>
      obtain ⟨fewer, onward⟩ := induction reached
      exact ⟨fewer, fun final ends => .down meets (onward final ends)⟩
  | kept => cases reached
  | leaf _ _ leaf =>
      cases reached
      cases leaf
  | _ => cases reached

/-- The last part of a path to a directory may be followed or not. -/
theorem followed : Follows top true links place parts answer := by
  induction follows with
  | arrived found => exact .arrived found
  | stay staying _ induction => exact .stay staying (induction reached)
  | up _ induction => exact .up (induction reached)
  | link meets _ filled _ induction =>
      exact .link meets (Bool.and_false _) filled (induction reached)
  | down meets _ induction => exact .down meets (induction reached)
  | leaf meets noLink leaf => exact .leaf meets noLink leaf
  | _ => cases reached

end

/-- Names of directories are followed one after the other. -/
theorem names_append {names rest : List Bytes} {members : List (Bytes × Entry)}
    (found : top.descend (place.reverse ++ names) = some (.directory members))
    (proper : ∀ name ∈ names, Path.Proper name ∧ name.length ≤ longestName)
    (follows : Follows top followLast links (names.reverse ++ place) rest answer) :
    Follows top followLast links place (names ++ rest) answer := by
  induction names generalizing place with
  | nil => exact follows
  | cons name names induction =>
      rw [List.forall_mem_cons] at proper
      obtain ⟨⟨own, short⟩, others⟩ := proper
      have next : place.reverse ++ name :: names = (name :: place).reverse ++ names := by simp
      rw [next] at found
      have inside := found
      rw [Entry.descend_append, Option.bind_eq_some_iff] at inside
      obtain ⟨inner, met, below⟩ := inside
      obtain ⟨innerMembers, rfl⟩ : ∃ innerMembers, inner = .directory innerMembers := by
        cases names with
        | nil => exact ⟨members, Option.some.inj below⟩
        | cons second rest =>
            rw [Entry.descend_cons, Option.bind_eq_some_iff] at below
            exact Entry.isDirectory_of_member? below.choose_spec.1
      rw [List.reverse_cons, List.append_assoc] at follows
      exact .down ⟨.of_proper own, short, met⟩ (induction found others follows)

end Follows

/-! ### Paths in their shortest form -/

theorem follow_stay {part : Bytes} (staying : (part.isEmpty || part == Path.here) = true)
    (rest : List Bytes) :
    follow top followLast links place (part :: rest) = follow top followLast links place rest :=
  (Follows.stay staying (follows_follow _ _ _ _ _)).follow_eq

/-- What a path starts with stays where it is. -/
theorem follow_ofParts {rooted : Bool} (normal : Path.Normal rooted parts) (some : parts ≠ []) :
    follow top followLast links place (Bytes.splitOn Bytes.slash (Path.ofParts rooted parts)) =
      follow top followLast links place parts := by
  rw [normal.splitOn_ofParts some]
  cases rooted with
  | true => exact follow_stay rfl parts
  | false => rfl

theorem follow_clean (root : Bytes) :
    follow top followLast links place (Bytes.splitOn Bytes.slash (Path.clean root)) =
      follow top followLast links place (Path.parts root) := by
  rw [Path.clean_eq]
  by_cases bare : Path.parts root = []
  · rw [bare]
    cases Path.isRooted root with
    | true =>
        change follow top followLast links place [[], []] = _
        rw [follow_stay rfl, follow_stay rfl]
    | false =>
        change follow top followLast links place [Path.here] = _
        rw [follow_stay rfl]
  · rw [if_neg fun both => bare both.2, follow_ofParts (Path.normal_parts root) bare]

end Files

end Reroute
