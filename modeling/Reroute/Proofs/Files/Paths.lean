import Mathlib
import Reroute.Files.Path
import Reroute.Proofs.SourceMap.Comment
import Reroute.Proofs.SourceMap.Grammar

/-!
# The algebra of paths

A path is made shortest by going through its parts.  What is left of it are parts that go up,
which a rooted path has none of, and then names, and such a path is as short as it gets.  Names
behind a path stay as they are, so that a path with names behind it has the same start whatever
the names, and what is below a path is found again.
-/

namespace Reroute

namespace Bytes

variable {separator : UInt8}

theorem splitOn_of_not_mem {text : Bytes} (absent : separator ∉ text) :
    splitOn separator text = [text] := by
  induction text with
  | nil => rfl
  | cons byte text induction =>
      rw [List.mem_cons, not_or] at absent
      obtain ⟨part, parts, split, consSplit⟩ := splitOn_cons_of_ne (Ne.symm absent.1) text
      rw [induction absent.2] at split
      obtain ⟨rfl, rfl⟩ := List.cons.inj split
      exact consSplit

theorem splitOn_append (left right : Bytes) :
    splitOn separator (left ++ separator :: right) =
      splitOn separator left ++ splitOn separator right := by
  induction left with
  | nil => exact splitOn_cons_self separator right
  | cons byte left induction =>
      rw [List.cons_append]
      by_cases found : byte = separator
      · subst found
        rw [splitOn_cons_self, splitOn_cons_self, induction, List.cons_append]
      · obtain ⟨part, parts, split, consSplit⟩ := splitOn_cons_of_ne found left
        obtain ⟨whole, wholes, wholeSplit, wholeConsSplit⟩ :=
          splitOn_cons_of_ne found (left ++ separator :: right)
        rw [induction, split, List.cons_append] at wholeSplit
        obtain ⟨rfl, rfl⟩ := List.cons.inj wholeSplit
        rw [consSplit, wholeConsSplit, List.cons_append]

/-- A joined text starts with its first parts, each with a separator behind it. -/
theorem join_append (left : List Bytes) {right : List Bytes} (nonempty : right ≠ []) :
    join [separator] (left ++ right) =
      (left.flatMap fun part => part ++ [separator]) ++ join [separator] right := by
  induction left with
  | nil => rfl
  | cons part left induction =>
      obtain ⟨second, rest, equality⟩ := List.exists_cons_of_ne_nil
        (show left ++ right ≠ [] by simp [nonempty])
      rw [List.cons_append, equality, Mappings.join_cons_cons, ← equality, induction]
      simp

theorem splitOn_join {parts : List Bytes} (nonempty : parts ≠ [])
    (apart : ∀ part ∈ parts, separator ∉ part) :
    splitOn separator (join [separator] parts) = parts := by
  induction parts with
  | nil => exact absurd rfl nonempty
  | cons part parts induction =>
      have first := apart part List.mem_cons_self
      cases parts with
      | nil =>
          rw [show join [separator] [part] = part by simp [join]]
          exact splitOn_of_not_mem first
      | cons second rest =>
          rw [Mappings.join_cons_cons, List.singleton_append, splitOn_append,
            splitOn_of_not_mem first, induction (List.cons_ne_nil _ _), List.singleton_append]
          exact fun other member => apart other (List.mem_cons_of_mem _ member)

end Bytes

namespace Path

open Bytes (slash dot)

/-- The part is the name of a member of a directory. -/
structure Proper (part : Bytes) : Prop where
  nonempty : part ≠ []
  inside : slash ∉ part
  notHere : part ≠ here
  notAbove : part ≠ above

theorem step_of_proper {part : Bytes} (proper : Proper part) (rooted : Bool)
    (done : List Bytes) : step rooted done part = part :: done := by
  unfold step
  rw [if_neg, if_neg]
  · simpa using proper.notAbove
  · simpa using ⟨proper.nonempty, proper.notHere⟩

theorem foldl_step_proper {names : List Bytes} (proper : ∀ name ∈ names, Proper name)
    (rooted : Bool) (done : List Bytes) :
    names.foldl (step rooted) done = names.reverse ++ done := by
  induction names generalizing done with
  | nil => rfl
  | cons name names induction =>
      rw [List.foldl_cons, step_of_proper (proper name List.mem_cons_self),
        induction fun other member => proper other (List.mem_cons_of_mem _ member)]
      simp

/-- Names can be read off a path, because no slash is in them. -/
theorem names_eq_of_join_eq {left right : List Bytes} (leftSome : left ≠ [])
    (leftProper : ∀ name ∈ left, Proper name) (rightSome : right ≠ [])
    (rightProper : ∀ name ∈ right, Proper name)
    (same : Bytes.join [slash] left = Bytes.join [slash] right) : left = right := by
  have leftSplit := Bytes.splitOn_join leftSome fun name member => (leftProper name member).inside
  have rightSplit := Bytes.splitOn_join rightSome fun name member =>
    (rightProper name member).inside
  rw [← leftSplit, same, rightSplit]

/-- The parts of a path that are left when it is made shortest. -/
def parts (path : Bytes) : List Bytes :=
  ((Bytes.splitOn slash path).foldl (step (isRooted path)) []).reverse

/-- The path that has these parts. -/
def ofParts (rooted : Bool) (parts : List Bytes) : Bytes :=
  (if rooted then [slash] else []) ++ Bytes.join [slash] parts

/-- What comes before the names behind a path. -/
def lead (path : Bytes) : Bytes :=
  (if isRooted path then [slash] else []) ++ (parts path).flatMap fun part => part ++ [slash]

theorem clean_eq (root : Bytes) :
    clean root =
      if isRooted root = false ∧ parts root = [] then here
      else ofParts (isRooted root) (parts root) := by
  unfold clean ofParts parts
  cases isRooted root <;> simp

/-! ### Names behind a path -/

section

variable {root : Bytes} {names : List Bytes} (some : names ≠ [])

include some

theorem lead_append (root : Bytes) :
    lead root ++ Bytes.join [slash] names = ofParts (isRooted root) (parts root ++ names) := by
  rw [lead, ofParts, Bytes.join_append _ some, List.append_assoc]

variable (given : root ≠ []) (proper : ∀ name ∈ names, Proper name)

include given proper

theorem clean_append :
    clean (root ++ slash :: Bytes.join [slash] names) =
      lead root ++ Bytes.join [slash] names := by
  have rooted : isRooted (root ++ slash :: Bytes.join [slash] names) = isRooted root := by
    obtain ⟨byte, rest, rfl⟩ := List.exists_cons_of_ne_nil given
    rfl
  have extended : parts (root ++ slash :: Bytes.join [slash] names) = parts root ++ names := by
    rw [parts, rooted, Bytes.splitOn_append, Bytes.splitOn_join some fun name member =>
      (proper name member).inside, List.foldl_append, foldl_step_proper proper,
      List.reverse_append, List.reverse_reverse]
    rfl
  rw [clean_eq, rooted, extended, if_neg (by simp [some]), lead_append some]

theorem join_names : join (root :: names) = lead root ++ Bytes.join [slash] names := by
  have kept : ((root :: names).filter fun path => !path.isEmpty) = root :: names := by
    rw [List.filter_eq_self]
    intro part member
    rcases List.mem_cons.mp member with rfl | named
    · simpa using given
    · simpa using (proper part named).nonempty
  obtain ⟨name, rest, rfl⟩ := List.exists_cons_of_ne_nil some
  unfold join
  simp only [kept, List.isEmpty_cons, Bool.false_eq_true, if_false, Mappings.join_cons_cons]
  exact clean_append some given proper

theorem join_relative :
    join [root, Bytes.join [slash] names] = lead root ++ Bytes.join [slash] names := by
  obtain ⟨name, rest, rfl⟩ := List.exists_cons_of_ne_nil some
  have filled : Bytes.join [slash] (name :: rest) ≠ [] := by
    have named := (proper name List.mem_cons_self).nonempty
    cases rest with
    | nil => simpa [Bytes.join] using named
    | cons second rest => simp [Mappings.join_cons_cons, named]
  have kept : ([root, Bytes.join [slash] (name :: rest)].filter fun path => !path.isEmpty) =
      [root, Bytes.join [slash] (name :: rest)] := by
    simp [given, filled]
  unfold join
  simp only [kept, List.isEmpty_cons, Bool.false_eq_true, if_false, Mappings.join_cons_cons]
  rw [show Bytes.join [slash] [Bytes.join [slash] (name :: rest)] =
    Bytes.join [slash] (name :: rest) by simp [Bytes.join]]
  exact clean_append some given proper

end

/-! ### Shortest paths -/

/-- The parts of a shortest path: some go up, unless it is rooted, and names follow. -/
def Normal (rooted : Bool) (parts : List Bytes) : Prop :=
  ∃ ups names, parts = List.replicate ups above ++ names ∧ (rooted = true → ups = 0) ∧
    ∀ name ∈ names, Proper name

section

variable {rooted : Bool} {parts names : List Bytes}

theorem Normal.append (normal : Normal rooted parts) (proper : ∀ name ∈ names, Proper name) :
    Normal rooted (parts ++ names) := by
  obtain ⟨ups, earlier, rfl, level, earlierProper⟩ := normal
  refine ⟨ups, earlier ++ names, List.append_assoc _ _ _, level, ?_⟩
  intro name member
  rcases List.mem_append.mp member with old | new
  · exact earlierProper name old
  · exact proper name new

theorem Normal.concat_above (normal : Normal rooted (parts ++ [above])) :
    Normal rooted (parts ++ [above] ++ [above]) := by
  obtain ⟨ups, names, equality, level, allProper⟩ := normal
  rcases List.eq_nil_or_concat names with rfl | ⟨rest, last, rfl⟩
  · refine ⟨ups + 1, [], ?_, ?_, nofun⟩
    · rw [equality, List.append_nil, List.append_nil, List.replicate_succ']
    · intro isRooted
      simp [level isRooted] at equality
  · rw [List.concat_eq_append, ← List.append_assoc] at equality
    obtain rfl := List.singleton_inj.mp (List.append_inj' equality rfl).2
    exact absurd rfl (allProper above (by simp)).notAbove

theorem Normal.dropLast {last : Bytes} (normal : Normal rooted (parts ++ [last]))
    (named : last ≠ above) : Normal rooted parts := by
  obtain ⟨ups, names, equality, level, allProper⟩ := normal
  rcases List.eq_nil_or_concat names with rfl | ⟨rest, final, rfl⟩
  · have member : last ∈ List.replicate ups above := by
      rw [List.append_nil] at equality
      rw [← equality]
      simp
    exact absurd (List.eq_of_mem_replicate member) named
  · rw [List.concat_eq_append, ← List.append_assoc] at equality
    refine ⟨ups, rest, (List.append_inj' equality rfl).1, level, ?_⟩
    exact fun name member => allProper name (by simp [member])

/-- Every step on the way leaves the parts of a shortest path. -/
theorem Normal.step {done : List Bytes} (normal : Normal rooted done.reverse) {part : Bytes}
    (inside : slash ∉ part) : Normal rooted (step rooted done part).reverse := by
  unfold Path.step
  split
  · exact normal
  · next staying =>
      simp only [Bool.or_eq_true, List.isEmpty_iff, beq_iff_eq, not_or] at staying
      split
      · next upward =>
          split
          · split
            · exact normal
            · next level => exact ⟨1, [], rfl, fun isRooted => absurd isRooted level, nofun⟩
          · next last earlier =>
              rw [List.reverse_cons] at normal
              split
              · next again =>
                  obtain rfl := beq_iff_eq.mp again
                  rw [List.reverse_cons, List.reverse_cons]
                  exact normal.concat_above
              · next named => exact normal.dropLast (by simpa using named)
      · next notUpward =>
          rw [List.reverse_cons]
          refine normal.append ?_
          intro name member
          rw [List.mem_singleton.mp member]
          exact ⟨staying.1, inside, staying.2, by simpa using notUpward⟩

theorem normal_parts (path : Bytes) : Normal (isRooted path) (Path.parts path) := by
  have steps (texts : List Bytes) (inside : ∀ text ∈ texts, slash ∉ text) (done : List Bytes)
      (normal : Normal (isRooted path) done.reverse) :
      Normal (isRooted path) (texts.foldl (Path.step (isRooted path)) done).reverse := by
    induction texts generalizing done with
    | nil => exact normal
    | cons text texts induction =>
        apply induction
        · exact fun other member => inside other (List.mem_cons_of_mem _ member)
        · exact normal.step (inside text List.mem_cons_self)
  apply steps
  · intro part member slashInside
    exact (Bytes.of_mem_splitOn member slashInside).1 rfl
  · exact ⟨0, [], rfl, fun _ => rfl, nofun⟩

theorem foldl_step_above (count done : Nat) :
    (List.replicate count above).foldl (step false) (List.replicate done above) =
      List.replicate (done + count) above := by
  induction count generalizing done with
  | zero => rfl
  | succ count induction =>
      have stepped : step false (List.replicate done above) above =
          List.replicate (done + 1) above := by
        cases done with
        | zero => rfl
        | succ done => rfl
      rw [List.replicate_succ, List.foldl_cons, stepped, induction]
      congr 1
      omega

/-- The parts of a shortest path are left as they are. -/
theorem Normal.foldl_step (normal : Normal rooted parts) :
    parts.foldl (Path.step rooted) [] = parts.reverse := by
  obtain ⟨ups, names, rfl, level, proper⟩ := normal
  cases rooted with
  | false =>
      have climbed := foldl_step_above ups 0
      rw [List.replicate_zero] at climbed
      rw [List.foldl_append, climbed, foldl_step_proper proper]
      simp
  | true =>
      obtain rfl := level rfl
      rw [List.foldl_append, List.replicate_zero, List.foldl_nil, foldl_step_proper proper]
      simp

theorem Normal.of_mem (normal : Normal rooted parts) {part : Bytes} (member : part ∈ parts) :
    part ≠ [] ∧ slash ∉ part ∧ part ≠ here := by
  obtain ⟨ups, names, rfl, -, proper⟩ := normal
  rcases List.mem_append.mp member with up | named
  · rw [List.eq_of_mem_replicate up]
    decide
  · have own := proper part named
    exact ⟨own.nonempty, own.inside, own.notHere⟩

theorem Normal.splitOn_join (normal : Normal rooted parts) (some : parts ≠ []) :
    Bytes.splitOn slash (Bytes.join [slash] parts) = parts :=
  Bytes.splitOn_join some fun _ member => (normal.of_mem member).2.1

/-- Parts that are joined make a relative path. -/
theorem Normal.relative_join (normal : Normal rooted parts) (some : parts ≠ []) :
    Bytes.join [slash] parts ≠ [] ∧ isRooted (Bytes.join [slash] parts) = false := by
  obtain ⟨first, rest, rfl⟩ := List.exists_cons_of_ne_nil some
  obtain ⟨filled, apart, -⟩ := normal.of_mem List.mem_cons_self
  obtain ⟨byte, tail, rfl⟩ := List.exists_cons_of_ne_nil filled
  have different : byte ≠ slash := fun same => apart (by simp [same])
  cases rest with
  | nil => simpa [isRooted, Bytes.join] using different
  | cons second rest => simpa [isRooted, Mappings.join_cons_cons] using different

theorem Normal.join_ne_here (normal : Normal rooted parts) (some : parts ≠ []) :
    Bytes.join [slash] parts ≠ here := by
  intro same
  have split := normal.splitOn_join some
  rw [same, Bytes.splitOn_of_not_mem (by decide)] at split
  have member : here ∈ parts := by simp [← split]
  exact (normal.of_mem member).2.2 rfl

/-! ### The path of such parts -/

theorem Normal.isRooted_ofParts (normal : Normal rooted parts) (some : parts ≠ []) :
    isRooted (ofParts rooted parts) = rooted := by
  cases rooted with
  | true => rfl
  | false => exact (normal.relative_join some).2

theorem Normal.splitOn_ofParts (normal : Normal rooted parts) (some : parts ≠ []) :
    Bytes.splitOn slash (ofParts rooted parts) = (if rooted then [[]] else []) ++ parts := by
  cases rooted with
  | true => exact (Bytes.splitOn_cons_self _ _).trans (congrArg _ (normal.splitOn_join some))
  | false => exact normal.splitOn_join some

theorem Normal.parts_ofParts (normal : Normal rooted parts) (some : parts ≠ []) :
    Path.parts (ofParts rooted parts) = parts := by
  have started : (if rooted then [[]] else []).foldl (Path.step rooted) [] = [] := by
    cases rooted <;> rfl
  rw [Path.parts, normal.isRooted_ofParts some, normal.splitOn_ofParts some, List.foldl_append,
    started, normal.foldl_step, List.reverse_reverse]

theorem Normal.clean_ofParts (normal : Normal rooted parts) (some : parts ≠ []) :
    clean (ofParts rooted parts) = ofParts rooted parts := by
  rw [clean_eq, normal.parts_ofParts some, normal.isRooted_ofParts some,
    if_neg fun bare => some bare.2]

end

theorem isRooted_clean (root : Bytes) : isRooted (clean root) = isRooted root := by
  by_cases bare : parts root = []
  · rw [clean_eq, bare]
    cases isRooted root <;> rfl
  · rw [clean_eq, if_neg fun both => bare both.2, (normal_parts root).isRooted_ofParts bare]

/-- A shortest path does not get shorter. -/
theorem clean_clean (root : Bytes) : clean (clean root) = clean root := by
  by_cases bare : parts root = []
  · rw [clean_eq root, bare]
    cases isRooted root <;> rfl
  · rw [clean_eq root, if_neg fun both => bare both.2, (normal_parts root).clean_ofParts bare]

theorem mem_clean {root part : Bytes} {byte : UInt8} (member : part ∈ parts root)
    (inside : byte ∈ part) : byte ∈ clean root := by
  have some := List.ne_nil_of_mem member
  rw [← (normal_parts root).splitOn_join some] at member
  rw [clean_eq, if_neg fun both => some both.2]
  exact List.mem_append_right _ (Bytes.of_mem_splitOn member inside).2

/-- The names behind a path are what lies below it. -/
theorem below?_names (root : Bytes) {names : List Bytes} (some : names ≠ [])
    (proper : ∀ name ∈ names, Proper name) :
    below? root (lead root ++ Bytes.join [slash] names) = .some (Bytes.join [slash] names) := by
  have normal := normal_parts root
  have kept : clean (lead root ++ Bytes.join [slash] names) =
      lead root ++ Bytes.join [slash] names := by
    rw [lead_append some]
    exact (normal.append proper).clean_ofParts (by simp [some])
  unfold below?
  rw [kept]
  by_cases bare : parts root = []
  · rw [clean_eq, bare, lead, bare]
    cases isRooted root <;> rfl
  · have shortest : clean root = ofParts (isRooted root) (parts root) := by
      rw [clean_eq, if_neg fun both => bare both.2]
    have headed : lead root = ofParts (isRooted root) (parts root) ++ [slash] := by
      obtain ⟨front, last, equality⟩ := List.eq_nil_or_concat (parts root) |>.resolve_left bare
      rw [lead, ofParts, equality, List.concat_eq_append,
        Bytes.join_append front (List.cons_ne_nil last [])]
      simp [Bytes.join]
    have filled := (normal.relative_join bare).1
    have away : ofParts (isRooted root) (parts root) ≠ here := by
      cases isRooted root with
      | true => simp [ofParts, here, slash, dot]
      | false => exact normal.join_ne_here bare
    have notTop : ofParts (isRooted root) (parts root) ≠ [slash] := by
      intro same
      have rooted := normal.isRooted_ofParts bare
      rw [same] at rooted
      rw [← rooted] at same
      exact filled (List.cons.inj same).2
    rw [shortest, if_neg (by simpa using away), if_neg (by simpa using notTop), headed]
    exact Bytes.cutHead?_append _ _

/-! ### Extensions -/

theorem takeWhile_append_of_not_mem {byte : UInt8} {front : Bytes} (absent : byte ∉ front)
    (rest : Bytes) :
    (front ++ rest).takeWhile (· != byte) = front ++ rest.takeWhile (· != byte) := by
  apply List.takeWhile_append_of_pos
  intro other member
  rw [bne_iff_ne]
  rintro rfl
  exact absent member

/-- A name with an extension behind a path has that extension. -/
theorem extension_append {path suffix : Bytes} (inside : slash ∉ suffix)
    (dotted : dot ∈ suffix) : extension (path ++ suffix) = extension suffix := by
  have last (front : Bytes) : (split (front ++ suffix)).2 = (split front).2 ++ suffix := by
    have reversed : slash ∉ suffix.reverse := by simpa using inside
    unfold split
    dsimp only
    rw [List.reverse_append, takeWhile_append_of_not_mem reversed]
    simp
  have tail (name : Bytes) : extensionOf (name ++ suffix) = extensionOf suffix := by
    obtain ⟨before, after, equality, absent⟩ :=
      List.eq_append_cons_of_mem (List.mem_reverse.mpr dotted)
    have cut (rest : Bytes) :
        (suffix.reverse ++ rest).takeWhile (· != dot) = before := by
      rw [equality, List.append_assoc, takeWhile_append_of_not_mem absent]
      simp
    have shorter : before.length < suffix.length := by
      have counted := congrArg List.length equality
      rw [List.length_reverse, List.length_append, List.length_cons] at counted
      omega
    have whole := cut []
    rw [List.append_nil] at whole
    unfold extensionOf
    simp only [List.reverse_append, cut, whole, List.length_reverse, List.length_append]
    rw [if_neg (by simp; omega), if_neg (by simp; omega)]
  have own := last []
  rw [List.nil_append] at own
  rw [extension, extension, last path, own, tail, tail]

end Path

end Reroute
