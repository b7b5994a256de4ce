import Mathlib
import Reroute.Proofs.Files.Holding

/-!
# What a walk comes to

A walk through a proper directory comes to exactly the entries below it that are no directories
themselves and lie in none that is passed over.
-/

namespace Reroute

namespace Entry

/-! ### Members -/

theorem member?_of_mem {entries : List (Bytes × Entry)} (distinct : (entries.map Prod.fst).Nodup)
    {name : Bytes} {inner : Entry} (member : (name, inner) ∈ entries) :
    (directory entries).member? name = some inner := by
  induction entries with
  | nil => cases member
  | cons first entries induction =>
      rw [List.map_cons, List.nodup_cons] at distinct
      rw [member?, List.find?_cons]
      rcases List.mem_cons.mp member with rfl | later
      · rw [BEq.refl]
        rfl
      · have different : (first.1 == name) = false := by
          rw [beq_eq_false_iff_ne]
          rintro rfl
          exact distinct.1 (List.mem_map.mpr ⟨_, later, rfl⟩)
        rw [different]
        exact induction distinct.2 later

theorem mem_of_member? {entries : List (Bytes × Entry)} {name : Bytes} {inner : Entry}
    (found : (directory entries).member? name = some inner) : (name, inner) ∈ entries := by
  obtain ⟨member, listed, rfl⟩ := Option.map_eq_some_iff.mp found
  have same : member.1 = name := by simpa using List.find?_some listed
  rw [← same]
  exact List.mem_of_find?_eq_some listed

/-! ### Leaves -/

/-- A leaf lies at the end of some more names below an entry, and no directory on the way is
passed over. -/
structure LeafAt (passOver : Bytes → Bool) (front : List Bytes) (entry : Entry) (leaf : Leaf)
    (rest : List Bytes) : Prop where
  names : leaf.names = front.reverse ++ rest
  found : entry.descend rest = some leaf.entry
  plain : leaf.entry.isDirectory = false
  visited : ∀ name ∈ rest.dropLast, passOver name = false

namespace LeafAt

variable {passOver : Bytes → Bool} {front rest : List Bytes} {entry : Entry} {leaf : Leaf}

/-- Only a directory has leaves other than itself. -/
theorem eq_nil (leafAt : LeafAt passOver front entry leaf rest)
    (plain : entry.isDirectory = false) : rest = [] := by
  cases rest with
  | nil => rfl
  | cons name rest =>
      have found := leafAt.found
      rw [descend_cons, Option.bind_eq_some_iff] at found
      obtain ⟨inner, member, -⟩ := found
      obtain ⟨entries, rfl⟩ := isDirectory_of_member? member
      cases plain

theorem self_iff (plain : entry.isDirectory = false) :
    (∃ rest, LeafAt passOver front entry leaf rest) ↔ leaf = ⟨front.reverse, entry⟩ := by
  constructor
  · rintro ⟨rest, leafAt⟩
    obtain rfl := leafAt.eq_nil plain
    obtain ⟨names, found, -, -⟩ := leafAt
    rw [List.append_nil] at names
    rw [← names, Option.some.inj found]
  · rintro rfl
    exact ⟨[], (List.append_nil _).symm, rfl, plain, nofun⟩

/-- The leaves of a directory are those of its members, directories to be passed over apart. -/
theorem directory_iff {entries : List (Bytes × Entry)}
    (distinct : (entries.map Prod.fst).Nodup) :
    (∃ rest, LeafAt passOver front (directory entries) leaf rest) ↔
      ∃ member ∈ entries, (member.2.isDirectory && passOver member.1) = false ∧
        ∃ rest, LeafAt passOver (member.1 :: front) member.2 leaf rest := by
  constructor
  · rintro ⟨rest, names, found, plain, visited⟩
    cases rest with
    | nil =>
        rw [← Option.some.inj found] at plain
        cases plain
    | cons name rest =>
        rw [descend_cons, Option.bind_eq_some_iff] at found
        obtain ⟨inner, member, below⟩ := found
        refine ⟨(name, inner), mem_of_member? member, ?_, rest, ?_, below, plain, ?_⟩
        · cases rest with
          | nil =>
              have same : inner = leaf.entry := Option.some.inj below
              rw [same, plain, Bool.false_and]
          | cons second rest => rw [visited name List.mem_cons_self, Bool.and_false]
        · rw [names, List.reverse_cons, List.append_assoc]
          rfl
        · intro other among
          cases rest with
          | nil => cases among
          | cons second rest => exact visited other (List.mem_cons_of_mem name among)
  · rintro ⟨⟨name, inner⟩, member, open_, rest, leafAt⟩
    obtain ⟨names, found, plain, visited⟩ := leafAt
    refine ⟨name :: rest, ?_, ?_, plain, ?_⟩
    · rw [names, List.reverse_cons, List.append_assoc]
      rfl
    · rw [descend_cons, member?_of_mem distinct member]
      exact found
    · intro other among
      cases rest with
      | nil => cases among
      | cons second rest =>
          rw [List.dropLast_cons_of_ne_nil (List.cons_ne_nil second rest)] at among
          rcases List.mem_cons.mp among with rfl | later
          · have further := found
            rw [descend_cons, Option.bind_eq_some_iff] at further
            obtain ⟨between, inside, -⟩ := further
            obtain ⟨entries, rfl⟩ := isDirectory_of_member? inside
            exact open_
          · exact visited other later

end LeafAt

mutual

theorem Proper.mem_leavesFrom_iff (passOver : Bytes → Bool) (front : List Bytes) {entry : Entry}
    (proper : entry.Proper) (leaf : Leaf) :
    leaf ∈ entry.leavesFrom passOver front ↔ ∃ rest, LeafAt passOver front entry leaf rest := by
  match entry with
  | .directory entries =>
      rw [Proper] at proper
      rw [leavesFrom, proper.2.mem_memberLeaves_iff passOver front leaf,
        LeafAt.directory_iff proper.1]
  | .file content => rw [leavesFrom, List.mem_singleton, LeafAt.self_iff rfl]; nofun
  | .database tables => rw [leavesFrom, List.mem_singleton, LeafAt.self_iff rfl]; nofun
  | .link target => rw [leavesFrom, List.mem_singleton, LeafAt.self_iff rfl]; nofun

theorem MembersProper.mem_memberLeaves_iff (passOver : Bytes → Bool) (front : List Bytes)
    {entries : List (Bytes × Entry)} (proper : MembersProper entries) (leaf : Leaf) :
    leaf ∈ memberLeaves passOver front entries ↔
      ∃ member ∈ entries, (member.2.isDirectory && passOver member.1) = false ∧
        ∃ rest, LeafAt passOver (member.1 :: front) member.2 leaf rest := by
  match entries with
  | [] =>
      rw [memberLeaves]
      simp
  | (name, entry) :: entries =>
      rw [MembersProper] at proper
      obtain ⟨-, ownProper, othersProper⟩ := proper
      rw [memberLeaves, List.mem_append, othersProper.mem_memberLeaves_iff passOver front leaf,
        List.exists_mem_cons_iff]
      apply or_congr _ Iff.rfl
      rw [← ownProper.mem_leavesFrom_iff passOver (name :: front) leaf]
      cases entry.isDirectory && passOver name with
      | true => simp
      | false => simp

end

/-- A walk comes to whatever lies below a directory and is none, unless it lies in a directory
that is passed over. -/
theorem Proper.mem_leaves_iff {entries : List (Bytes × Entry)}
    (proper : (directory entries).Proper) (passOver : Bytes → Bool) (leaf : Leaf) :
    leaf ∈ (directory entries).leaves passOver ↔
      (directory entries).descend leaf.names = some leaf.entry ∧
        leaf.entry.isDirectory = false ∧ ∀ name ∈ leaf.names.dropLast, passOver name = false := by
  rw [Entry.leaves, proper.mem_leavesFrom_iff passOver [] leaf]
  constructor
  · rintro ⟨rest, names, found, plain, visited⟩
    obtain rfl : leaf.names = rest := names
    exact ⟨found, plain, visited⟩
  · rintro ⟨found, plain, visited⟩
    exact ⟨leaf.names, rfl, found, plain, visited⟩

/-! ### Places -/

mutual

/-- The names of all entries at or below an entry. -/
def places : Entry → List (List Bytes)
  | .directory entries => [] :: memberPlaces entries
  | _ => [[]]

def memberPlaces : List (Bytes × Entry) → List (List Bytes)
  | [] => []
  | (name, entry) :: entries => entry.places.map (name :: ·) ++ memberPlaces entries

end

theorem mem_memberPlaces {entries : List (Bytes × Entry)} {name : Bytes} {inner : Entry}
    (member : (name, inner) ∈ entries) {names : List Bytes} (below : names ∈ inner.places) :
    name :: names ∈ memberPlaces entries := by
  induction entries with
  | nil => cases member
  | cons first entries induction =>
      obtain ⟨label, entry⟩ := first
      rw [memberPlaces, List.mem_append]
      rcases List.mem_cons.mp member with same | later
      · cases same
        exact .inl (List.mem_map_of_mem below)
      · exact .inr (induction later)

theorem mem_places_of_descend {names : List Bytes} {entry inner : Entry}
    (found : entry.descend names = some inner) : names ∈ entry.places := by
  induction names generalizing entry with
  | nil =>
      cases entry with
      | directory entries =>
          rw [places]
          exact List.mem_cons_self
      | _ => exact List.mem_singleton_self []
  | cons name names induction =>
      rw [descend_cons, Option.bind_eq_some_iff] at found
      obtain ⟨next, member, below⟩ := found
      obtain ⟨entries, rfl⟩ := isDirectory_of_member? member
      rw [places]
      exact List.mem_cons_of_mem [] (mem_memberPlaces (mem_of_member? member) (induction below))

end Entry

end Reroute
