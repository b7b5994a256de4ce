import Mathlib
import Reroute.Store.Site

/-!
# What putting an entry in a tree leaves alone

An entry is put at the end of a list of names.  Whatever lies elsewhere, and is no directory
on the way, stays as it is.  A store that is opened or put back in its place therefore changes
its own file and no other.
-/

namespace Reroute

namespace Entry

theorem find?_insertMember (name other : Bytes) (new : Entry)
    (entries : List (Bytes × Entry)) :
    (insertMember name new entries).find? (fun entry => entry.1 == other) =
      if name = other then some (name, new)
      else entries.find? fun entry => entry.1 == other := by
  induction entries with
  | nil =>
      rw [insertMember, List.find?_singleton]
      simp
  | cons first entries induction =>
      obtain ⟨label, found⟩ := first
      rw [insertMember]
      split
      · next same =>
          obtain rfl := beq_iff_eq.mp same
          by_cases here : name = other
          · simp [here]
          · simp [here]
      · next different =>
          split
          · by_cases here : name = other
            · simp [here]
            · simp [here]
          · rw [List.find?_cons, List.find?_cons, induction]
            by_cases here : name = other
            · subst here
              have away : (label == name) = false := by
                rw [beq_eq_false_iff_ne]
                rintro rfl
                exact different (beq_self_eq_true _)
              rw [away, if_pos rfl]
            · rw [if_neg here, if_neg here]

theorem member?_insertMember (name other : Bytes) (new : Entry)
    (entries : List (Bytes × Entry)) :
    (directory (insertMember name new entries)).member? other =
      if name = other then some new else (directory entries).member? other := by
  rw [member?, member?, find?_insertMember]
  split
  · rfl
  · rfl

/-- Nothing but the directory itself is found in an empty directory. -/
theorem descend_empty {names : List Bytes} {entry : Entry} (leaf : entry.isDirectory = false) :
    (directory []).descend names ≠ some entry := by
  cases names with
  | nil =>
      rintro ⟨⟩
      cases leaf
  | cons name names =>
      rw [descend, member?]
      simp

/-- A leaf that does not lie at or below the names of an entry stays where it is when the
entry is put in its place. -/
theorem descend_putAt {names other : List Bytes} (outside : ¬names <+: other)
    (new : Entry) {leaf : Entry} (isLeaf : leaf.isDirectory = false) (entry : Entry) :
    (entry.putAt new names).descend other = some leaf ↔ entry.descend other = some leaf := by
  induction names generalizing entry other with
  | nil => exact absurd List.nil_prefix outside
  | cons name names induction =>
      cases entry with
      | file => rfl
      | database => rfl
      | link => rfl
      | directory entries =>
          rw [putAt]
          cases other with
          | nil =>
              constructor
              · rintro ⟨⟩
                cases isLeaf
              · rintro ⟨⟩
                cases isLeaf
          | cons first rest =>
              rw [descend, descend, member?_insertMember]
              by_cases here : name = first
              · subst here
                have below : ¬names <+: rest := by
                  intro inside
                  exact outside (List.cons_prefix_cons.mpr ⟨rfl, inside⟩)
                rw [if_pos rfl]
                cases (directory entries).member? name with
                | some inner => exact induction below inner
                | none =>
                    -- The directories on the way are made, and hold nothing else.
                    constructor
                    · intro found
                      exact absurd ((induction below (directory [])).mp found)
                        (descend_empty isLeaf)
                    · exact nofun
              · rw [if_neg here]

end Entry

namespace Files

/-- The trees have the same leaves, apart from what lies at or below a place. -/
def AgreeOutside (place : Option (List Bytes)) (left right : Files) : Prop :=
  ∀ names leaf, leaf.isDirectory = false → (∀ own, place = some own → ¬own <+: names) →
    (left.top.descend names = some leaf ↔ right.top.descend names = some leaf)

namespace AgreeOutside

theorem refl (place : Option (List Bytes)) (files : Files) : AgreeOutside place files files :=
  fun _ _ _ _ => Iff.rfl

theorem trans {place : Option (List Bytes)} {first second third : Files}
    (before : AgreeOutside place first second) (after : AgreeOutside place second third) :
    AgreeOutside place first third := by
  intro names leaf isLeaf outside
  exact (before names leaf isLeaf outside).trans (after names leaf isLeaf outside)

theorem put (files : Files) (names : List Bytes) (entry : Entry) :
    AgreeOutside (some names) (files.put names entry) files := by
  intro other leaf isLeaf outside
  exact Entry.descend_putAt (outside names rfl) entry isLeaf files.top

end AgreeOutside

/-! ### Opening a store file, step by step -/

theorem claim_cases {files claimed : Files} {address : Address} {names : List Bytes}
    {entry : Entry} (made : files.claim address names = some (entry, claimed)) :
    (files.top.look names = .ok entry ∧ entry.isDirectory = false ∧ claimed = files) ∨
      ∃ error entries, files.top.look names = .error error ∧
        files.top.look names.dropLast = .ok (.directory entries) ∧ entry = .file [] ∧
        claimed = files.put names (.file []) := by
  unfold claim at made
  split at made
  · next found looked =>
      split at made
      · cases made
      · next leaf =>
          cases made
          exact .inl ⟨looked, Bool.eq_false_iff.mpr leaf, rfl⟩
  · next error looked =>
      split at made
      · next entries parent =>
          split at made
          · cases made
            exact .inr ⟨error, entries, looked, parent, rfl, rfl⟩
          · cases made
      · cases made

/-- Open the store file that stands or was made at some names. -/
def settle (address : Address) (names : List Bytes) (entry : Entry) (files : Files) :
    Except StoreError PlacedTables × Files :=
  match address.fault? with
  | some error => (.error (.address error), files)
  | none =>
      match tablesIn entry with
      | .error error => (.error error, files)
      | .ok (tables, false) => (.ok ⟨some names, tables, address.access⟩, files)
      | .ok (tables, true) =>
          if address.isWritable && hasRoom names then
            (.ok ⟨some names, tables, .everything⟩, files.put names (.database tables))
          else (.error .unreadable, files)

theorem openFile_eq (files : Files) (address : Address) (path : Bytes) :
    files.openFile address path =
      match files.storeNames? path with
      | none => (.error .unreadable, files)
      | some names =>
          match files.claim address names with
          | none => (.error .unreadable, files)
          | some (entry, files) => settle address names entry files := by
  rw [openFile]
  cases files.storeNames? path with
  | none => rfl
  | some names =>
      dsimp only [Option.bind_some]
      cases files.claim address names with
      | none => rfl
      | some claimed => rfl

/-- A store file is opened as it is, or laid out without rows. -/
theorem settle_cases (address : Address) (names : List Bytes) (entry : Entry) (files : Files) :
    ((settle address names entry files).2 = files ∧
        ∀ placed, (settle address names entry files).1 = .ok placed →
          ∃ tables, entry = .database tables ∧ placed = ⟨some names, tables, address.access⟩) ∨
      ∃ content, entry = .file content ∧ hasRoom names = true ∧
        settle address names entry files =
          (.ok ⟨some names, .empty, .everything⟩, files.put names (.database .empty)) := by
  unfold settle
  split
  · exact .inl ⟨rfl, nofun⟩
  · cases entry with
    | directory entries => exact .inl ⟨rfl, nofun⟩
    | link target => exact .inl ⟨rfl, nofun⟩
    | database tables =>
        rw [tablesIn]
        by_cases current : tables.version == Tables.currentVersion
        · rw [if_pos current]
          refine .inl ⟨rfl, ?_⟩
          rintro placed ⟨⟩
          exact ⟨tables, rfl, rfl⟩
        · rw [if_neg current]
          exact .inl ⟨rfl, nofun⟩
    | file content =>
        rw [tablesIn]
        by_cases blank : content.length ≤ 1
        · rw [if_pos blank]
          by_cases room : (address.isWritable && hasRoom names) = true
          · dsimp only
            rw [if_pos room]
            exact .inr ⟨content, rfl, (Bool.and_eq_true_iff.mp room).2, rfl⟩
          · dsimp only
            rw [if_neg room]
            exact .inl ⟨rfl, nofun⟩
        · rw [if_neg blank]
          exact .inl ⟨rfl, nofun⟩

/-! ### What opening a store leaves alone -/

theorem claim_agreeOutside {files claimed : Files} {address : Address} {names : List Bytes}
    {entry : Entry} (made : files.claim address names = some (entry, claimed)) :
    AgreeOutside (some names) claimed files := by
  rcases claim_cases made with ⟨-, -, rfl⟩ | ⟨-, -, -, -, -, rfl⟩
  · exact .refl _ _
  · exact .put files names _

theorem openFile_agreeOutside {files opened : Files} {address : Address} {path : Bytes}
    {placed : PlacedTables} (answered : files.openFile address path = (.ok placed, opened)) :
    AgreeOutside placed.names opened files := by
  rw [openFile_eq] at answered
  split at answered
  · cases answered
  · next names reached =>
      split at answered
      · cases answered
      · next entry claimed made =>
          have kept := claim_agreeOutside made
          rcases settle_cases address names entry claimed with
            ⟨same, settled⟩ | ⟨content, -, -, laidOut⟩
          · rw [answered] at same settled
            obtain ⟨tables, -, rfl⟩ := settled placed rfl
            obtain rfl : opened = claimed := same
            exact kept
          · rw [laidOut] at answered
            cases answered
            exact (AgreeOutside.put claimed names _).trans kept

/-- Opening a store changes nothing but its own file. -/
theorem openStore_agreeOutside {files opened : Files} {address : Bytes} {placed : PlacedStore}
    (answered : files.openStore address = (.ok placed, opened)) :
    AgreeOutside placed.names opened files := by
  unfold openStore at answered
  split at answered
  · cases answered
  · split at answered
    · cases answered
      exact .refl _ _
    · split at answered
      · cases answered
      · next tables reached same =>
          cases answered
          unfold openTables at same
          split at same
          · cases same
          · split at same
            · obtain ⟨-, rfl⟩ := Prod.mk.inj same
              exact .refl _ _
            · exact openFile_agreeOutside same

theorem openStore_memoryPath (files : Files) :
    files.openStore memoryPath = (.ok ⟨none, .memory⟩, files) := by
  rw [openStore, if_neg (by decide), if_pos (by decide)]

/-- So does putting a store back in its place. -/
theorem keepStore_agreeOutside (files : Files) (placed : PlacedStore) :
    AgreeOutside placed.names (files.keepStore placed) files := by
  unfold keepStore
  split
  · next names tables place stored =>
      rw [place]
      exact .put files names _
  · exact .refl _ _

end Files

end Reroute
