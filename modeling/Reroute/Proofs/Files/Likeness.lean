import Mathlib
import Reroute.Proofs.Files.Completeness
import Reroute.Proofs.Files.Walking

/-!
# Trees that differ in the rows of a store file

Two trees are alike if the same names lead to like entries: files and links are the same,
directories may hold anything, and so may store files at hidden places, but for the version of
their layout.  Names are looked up and paths followed in alike trees with the same outcome, and
what is put in both of them leaves them alike.
-/

namespace Reroute

/-- Both fail with the same error, or both have a result. -/
inductive Likewise {ε α β : Type} (related : α → β → Prop) : Except ε α → Except ε β → Prop where
  | error (error : ε) : Likewise related (.error error) (.error error)
  | ok {left : α} {right : β} : related left right → Likewise related (.ok left) (.ok right)

theorem Likewise.cases {ε α β : Type} {related : α → β → Prop} {left : Except ε α}
    {right : Except ε β} (likewise : Likewise related left right) :
    (∃ error, left = .error error ∧ right = .error error) ∨
      ∃ own other, left = .ok own ∧ right = .ok other ∧ related own other := by
  cases likewise with
  | error error => exact .inl ⟨error, rfl, rfl⟩
  | ok same => exact .inr ⟨_, _, rfl, rfl, same⟩

theorem rel_cases {α β : Type} {related : α → β → Prop} {left : Option α} {right : Option β}
    (both : Option.Rel related left right) :
    (left = none ∧ right = none) ∨
      ∃ own other, left = some own ∧ right = some other ∧ related own other := by
  cases both with
  | none => exact .inl ⟨rfl, rfl⟩
  | some same => exact .inr ⟨_, _, rfl, rfl, same⟩

namespace Entry

/-- Entries that cannot be told apart without looking below them, nor at their rows if these
are hidden. -/
inductive Similar (hidden : Prop) : Entry → Entry → Prop where
  | file (content : Bytes) : Similar hidden (.file content) (.file content)
  | link (target : Bytes) : Similar hidden (.link target) (.link target)
  | directory (left right : List (Bytes × Entry)) :
      Similar hidden (.directory left) (.directory right)
  | database {left right : Tables} : left.version = right.version → (¬hidden → left = right) →
      Similar hidden (.database left) (.database right)

namespace Similar

variable {hidden : Prop} {left right : Entry}

theorem refl (hidden : Prop) (entry : Entry) : Similar hidden entry entry := by
  cases entry with
  | file content => exact .file content
  | database tables => exact .database rfl fun _ => rfl
  | link target => exact .link target
  | directory entries => exact .directory entries entries

theorem isDirectory (similar : Similar hidden left right) :
    left.isDirectory = right.isDirectory := by
  cases similar with
  | file => rfl
  | link => rfl
  | directory => rfl
  | database => rfl

theorem ne_link (similar : Similar hidden left right) (noLink : ∀ target, left ≠ .link target)
    (target : Bytes) : right ≠ .link target := by
  rintro rfl
  cases similar with
  | link => exact noLink target rfl

end Similar

/-- The same names lead to similar entries. -/
def Alike (hidden : List Bytes → Prop) (left right : Entry) : Prop :=
  ∀ names, Option.Rel (Similar (hidden names)) (left.descend names) (right.descend names)

namespace Alike

variable {hidden : List Bytes → Prop} {left right : Entry}

theorem refl (hidden : List Bytes → Prop) (entry : Entry) : Alike hidden entry entry := by
  intro names
  cases entry.descend names with
  | none => exact .none
  | some found => exact .some (.refl _ found)

theorem similar (alike : Alike hidden left right) : Similar (hidden []) left right := by
  cases alike [] with
  | some similar => exact similar

/-- The members with a name are alike, or there is none on either side. -/
theorem member? (alike : Alike hidden left right) (name : Bytes) :
    Option.Rel (Alike fun rest => hidden (name :: rest)) (left.member? name)
      (right.member? name) := by
  have below (names : List Bytes) := alike (name :: names)
  simp only [descend_cons] at below
  generalize left.member? name = own at below
  generalize right.member? name = other at below
  cases own with
  | none =>
      cases other with
      | none => exact .none
      | some inner => cases below []
  | some inner =>
      cases other with
      | none => cases below []
      | some found => exact .some below

/-- What stands in two directories is alike if their members are. -/
theorem directory {left right : List (Bytes × Entry)}
    (members : ∀ name, Option.Rel (Alike fun rest => hidden (name :: rest))
      ((Entry.directory left).member? name) ((Entry.directory right).member? name)) :
    Alike hidden (.directory left) (.directory right) := by
  intro names
  cases names with
  | nil => exact .some (.directory left right)
  | cons name names =>
      rw [descend_cons, descend_cons]
      rcases rel_cases (members name) with ⟨own, other⟩ | ⟨inner, found, own, other, same⟩
      · rw [own, other]
        exact .none
      · rw [own, other]
        exact same names

theorem look (alike : Alike hidden left right) (names : List Bytes) :
    Likewise (Similar (hidden names)) (left.look names) (right.look names) := by
  induction names generalizing left right hidden with
  | nil => exact .ok alike.similar
  | cons name names induction =>
      rw [Entry.look, Entry.look, alike.similar.isDirectory]
      split
      · exact .error _
      · split
        · exact .error _
        · rcases rel_cases (alike.member? name) with
            ⟨own, other⟩ | ⟨inner, found, own, other, same⟩
          · rw [own, other]
            exact .error _
          · rw [own, other]
            exact induction same

theorem putAt (alike : Alike hidden left right) {names : List Bytes} {new other : Entry}
    (put : Alike (fun rest => hidden (names ++ rest)) new other) :
    Alike hidden (left.putAt new names) (right.putAt other names) := by
  induction names generalizing left right hidden with
  | nil => exact put
  | cons name names induction =>
      have similar := alike.similar
      cases left with
      | file content =>
          cases similar
          exact alike
      | link target =>
          cases similar
          exact alike
      | database tables =>
          cases similar
          exact alike
      | directory entries =>
          cases similar
          apply directory
          intro label
          rw [member?_insertMember, member?_insertMember]
          split
          · next same =>
              obtain rfl := same
              apply Option.Rel.some
              apply induction _ put
              rcases rel_cases (alike.member? name) with
                ⟨own, other⟩ | ⟨inner, found, own, other, both⟩
              · rw [own, other]
                exact .refl _ _
              · rw [own, other]
                exact both
          · exact alike.member? label

/-- The rows at a hidden place may be replaced. -/
theorem putDatabase (alike : Alike hidden left right) {names : List Bytes} (away : hidden names)
    {tables other : Tables} (found : right.descend names = some (.database tables))
    (version : other.version = tables.version) :
    Alike hidden (left.putAt (.database other) names) right := by
  induction names generalizing left right hidden with
  | nil =>
      cases found
      intro names
      cases names with
      | nil => exact .some (.database version fun shown => absurd away shown)
      | cons name names => exact .none
  | cons name names induction =>
      rw [descend_cons] at found
      obtain ⟨inner, member, below⟩ := Option.bind_eq_some_iff.mp found
      have similar := alike.similar
      cases right with
      | file content => cases member
      | link target => cases member
      | database tables => cases member
      | directory entries =>
          cases similar
          apply directory
          intro label
          rw [member?_insertMember]
          split
          · next same =>
              obtain rfl := same
              rcases rel_cases (alike.member? name) with
                ⟨-, missing⟩ | ⟨own, other, isOwn, isOther, both⟩
              · rw [member] at missing
                cases missing
              · cases member.symm.trans isOther
                rw [isOwn, isOther]
                exact .some (induction both away below)
          · exact alike.member? label

end Alike

end Entry

namespace Files

/-- The path leads to an entry, and not to a place for one. -/
def Reached.isFound : Reached → Bool
  | .found _ _ => true
  | .free _ => false

/-- The trees are alike, but for the rows of the store file at a place. -/
structure AlikeBut (place : Option (List Bytes)) (left right : Files) : Prop where
  tops : left.top.Alike (fun names => place = some names) right.top
  home : left.home = right.home

section

variable {top other : Entry} {hidden : List Bytes → Prop}

theorem Meets.likewise (alike : top.Alike hidden other) {place : List Bytes} {part : Bytes}
    {own : Option Entry} (meets : Meets top place part own) :
    ∃ found, Meets other place part found ∧
      Option.Rel (Entry.Similar (hidden (part :: place).reverse)) own found := by
  obtain ⟨looked, short, rfl⟩ := meets
  exact ⟨_, ⟨looked, short, rfl⟩, alike _⟩

/-- In alike trees the same rules apply. -/
theorem Follows.likewise (alike : top.Alike hidden other) {followLast : Bool} {links : Nat}
    {place parts : List Bytes} {own : Except FileError Reached}
    (follows : Follows top followLast links place parts own) :
    ∃ found, Follows other followLast links place parts found ∧
      Likewise (fun own found => own.isFound = found.isFound) own found := by
  induction follows with
  | @arrived links place entry there =>
      have ends := alike place.reverse
      rw [there] at ends
      generalize same : other.descend place.reverse = found at ends
      cases ends with
      | some similar => exact ⟨_, .arrived same, .ok rfl⟩
  | @lost links place gone =>
      have ends := alike place.reverse
      rw [gone] at ends
      generalize same : other.descend place.reverse = found at ends
      cases ends with
      | none => exact ⟨_, .lost same, .error _⟩
  | stay staying _ induction =>
      obtain ⟨found, follows, both⟩ := induction
      exact ⟨found, .stay staying follows, both⟩
  | up _ induction =>
      obtain ⟨found, follows, both⟩ := induction
      exact ⟨found, .up follows, both⟩
  | long looked long => exact ⟨_, .long looked long, .error _⟩
  | free meets ended =>
      obtain ⟨_, there, ⟨⟩⟩ := meets.likewise alike
      exact ⟨_, .free there ended, .ok rfl⟩
  | missing meets more =>
      obtain ⟨_, there, ⟨⟩⟩ := meets.likewise alike
      exact ⟨_, .missing there more, .error _⟩
  | kept meets stopped =>
      obtain ⟨_, there, ⟨⟨⟩⟩⟩ := meets.likewise alike
      exact ⟨_, .kept there stopped, .ok rfl⟩
  | nowhere meets onward empty =>
      obtain ⟨_, there, ⟨⟨⟩⟩⟩ := meets.likewise alike
      exact ⟨_, .nowhere there onward empty, .error _⟩
  | tooMany meets onward filled =>
      obtain ⟨_, there, ⟨⟨⟩⟩⟩ := meets.likewise alike
      exact ⟨_, .tooMany there onward filled, .error _⟩
  | link meets onward filled _ induction =>
      obtain ⟨_, there, ⟨⟨⟩⟩⟩ := meets.likewise alike
      obtain ⟨found, follows, both⟩ := induction
      exact ⟨found, .link there onward filled follows, both⟩
  | down meets _ induction =>
      obtain ⟨_, there, ⟨⟨⟩⟩⟩ := meets.likewise alike
      obtain ⟨found, follows, both⟩ := induction
      exact ⟨found, .down there follows, both⟩
  | leaf meets noLink leaf =>
      obtain ⟨_, there, ⟨similar⟩⟩ := meets.likewise alike
      exact ⟨_, .leaf there (similar.ne_link noLink) (similar.isDirectory ▸ leaf), .ok rfl⟩
  | notDirectory meets noLink leaf more =>
      obtain ⟨_, there, ⟨similar⟩⟩ := meets.likewise alike
      exact ⟨_, .notDirectory there (similar.ne_link noLink) (similar.isDirectory ▸ leaf) more,
        .error _⟩

theorem follow_likewise (alike : top.Alike hidden other) (followLast : Bool) (links : Nat)
    (place parts : List Bytes) :
    Likewise (fun own found => own.isFound = found.isFound)
      (follow top followLast links place parts) (follow other followLast links place parts) := by
  obtain ⟨found, follows, both⟩ :=
    (follows_follow top followLast links place parts).likewise alike
  rw [follows.follow_eq]
  exact both

theorem makePlain_congr (alike : top.Alike hidden other) (links : Nat)
    (place parts : List Bytes) :
    makePlain top links place parts = makePlain other links place parts := by
  induction links using Nat.strong_induction_on generalizing place parts with
  | h links outer =>
      induction parts generalizing place with
      | nil => rw [makePlain, makePlain]
      | cons part rest inner =>
          rw [makePlain.eq_def top, makePlain.eq_def other]
          dsimp only
          split
          · exact inner place
          · split
            · exact inner place.tail
            · split
              · rfl
              · rcases (alike.look (part :: place).reverse).cases with
                  ⟨error, own, found⟩ | ⟨entry, _, own, found, similar⟩
                · rw [own, found]
                  cases error with
                  | missing => exact inner (part :: place)
                  | _ => rfl
                · rw [own, found]
                  cases similar with
                  | file content => exact inner (part :: place)
                  | database version shown => exact inner (part :: place)
                  | directory own found => exact inner (part :: place)
                  | link target =>
                      cases links with
                      | zero => rfl
                      | succ links => exact outer links (Nat.lt_succ_self links) _ _

end

namespace AlikeBut

variable {place : Option (List Bytes)} {left right : Files}

theorem reach (alike : AlikeBut place left right) (followLast : Bool) (path : Bytes) :
    Likewise (fun own found => own.isFound = found.isFound) (left.reach followLast path)
      (right.reach followLast path) := by
  rw [Files.reach, Files.reach, alike.home]
  split
  · exact .error _
  · split
    · exact .error _
    · split
      · exact .error _
      · exact follow_likewise alike.tops followLast mostLinks _ _

theorem stat (alike : AlikeBut place left right) (path : Bytes) :
    Likewise (fun _ _ => True) (left.stat path) (right.stat path) := by
  rw [Files.stat, Files.stat, entryAt, entryAt]
  rcases (alike.reach true path).cases with
    ⟨error, own, other⟩ | ⟨reached, found, own, other, same⟩
  · rw [own, other]
    exact .error error
  · rw [own, other]
    cases reached with
    | found names entry =>
        cases found with
        | found _ _ => exact .ok trivial
        | free _ => cases same
    | free names =>
        cases found with
        | found _ _ => cases same
        | free _ => exact .error _

theorem storeNames? (alike : AlikeBut place left right) (path : Bytes) :
    left.storeNames? path = right.storeNames? path := by
  rw [Files.storeNames?, Files.storeNames?, makePlain_congr alike.tops, alike.home]

end AlikeBut

end Files

end Reroute
