import Mathlib
import Reroute.Proofs.Store.Completeness
import Reroute.Proofs.Store.Histories

/-!
# The union of store files

Copying the rows whose key is new, from one source after the other, adds for every key that the
target lacks the row of the first source that has one.  The rows of the target stay in front of
them, as they are.  Each of the four tables has a key of its own, and all are copied alike.
-/

namespace Reroute

/-! ### Rows with a key -/

section

variable {α κ : Type} [BEq κ] {key : α → κ} {same : α → α → Bool}

/-- The first row with a key, of tables taken in order. -/
def firstRow? (key : α → κ) (sources : List (List α)) (wanted : κ) : Option α :=
  sources.findSome? fun rows => rows.find? fun row => key row == wanted

/-- A table was extended by so many rows: those of the first source with their key, for the keys
that it lacked. -/
def Extended (key : α → κ) (target : List α) (sources : List (List α)) (merged : List α)
    (count : Nat) : Prop :=
  ∃ fresh, merged = target ++ fresh ∧ fresh.length = count ∧ (fresh.map key).Nodup ∧
    ∀ row, row ∈ fresh ↔ key row ∉ target.map key ∧ firstRow? key sources (key row) = some row

namespace Tables

variable [LawfulBEq κ]

theorem insertFirst_eq (compared : ∀ left right, same left right = (key left == key right))
    (row : α) (rows : List α) :
    insertFirst same row rows = if key row ∈ rows.map key then rows else rows ++ [row] := by
  have known : rows.any (same row) = true ↔ key row ∈ rows.map key := by
    simp only [compared, List.any_eq_true, beq_iff_eq, List.mem_map]
    constructor
    · rintro ⟨old, member, equal⟩
      exact ⟨old, member, equal.symm⟩
    · rintro ⟨old, member, equal⟩
      exact ⟨old, member, equal.symm⟩
  rw [insertFirst]
  by_cases present : key row ∈ rows.map key
  · rw [if_pos (known.mpr present), if_pos present]
  · rw [if_neg (mt known.mp present), if_neg present]

/-- Rows whose keys are known are not copied. -/
theorem copyRows_of_subset (compared : ∀ left right, same left right = (key left == key right))
    {source target : List α} (known : source.map key ⊆ target.map key) :
    copyRows same source target = target := by
  induction source with
  | nil => rfl
  | cons row source induction =>
      rw [List.map_cons, List.cons_subset] at known
      rw [copyRows_cons, insertFirst_eq compared, if_pos known.1]
      exact induction known.2

theorem copyRows_eq_append (compared : ∀ left right, same left right = (key left == key right))
    (source target : List α) :
    ∃ fresh, copyRows same source target = target ++ fresh ∧ (fresh.map key).Nodup ∧
      ∀ row, row ∈ fresh ↔
        key row ∉ target.map key ∧ (source.find? fun other => key other == key row) = some row := by
  induction source generalizing target with
  | nil => exact ⟨[], by simp [copyRows], by simp, by simp⟩
  | cons first source induction =>
      rw [copyRows_cons, insertFirst_eq compared]
      split
      · next known =>
          obtain ⟨fresh, copied, once, member⟩ := induction target
          refine ⟨fresh, copied, once, ?_⟩
          intro row
          rw [member, and_congr_right_iff]
          intro new
          have different : (key first == key row) = false := by
            rw [beq_eq_false_iff_ne]
            intro equal
            exact new (equal ▸ known)
          rw [List.find?_cons, different]
      · next new =>
          obtain ⟨fresh, copied, once, member⟩ := induction (target ++ [first])
          refine ⟨first :: fresh, by simpa using copied, ?_, ?_⟩
          · rw [List.map_cons, List.nodup_cons]
            refine ⟨?_, once⟩
            intro again
            obtain ⟨row, isFresh, equal⟩ := List.mem_map.mp again
            apply ((member row).mp isFresh).1
            simp [equal]
          · intro row
            rw [List.mem_cons, member, List.find?_cons]
            by_cases equal : key first = key row
            · -- The row at the front is the first with its key, and new.
              rw [equal] at new
              simp [equal, new, eq_comm]
            · have different : row ≠ first := by
                rintro rfl
                exact equal rfl
              rw [beq_eq_false_iff_ne.mpr equal]
              simp [different, Ne.symm equal]

theorem extended_copyRows (compared : ∀ left right, same left right = (key left == key right))
    (sources : List (List α)) (target : List α) :
    Extended key target sources (copyRows same sources.flatten target)
      ((copyRows same sources.flatten target).length - target.length) := by
  obtain ⟨fresh, copied, once, member⟩ := copyRows_eq_append compared sources.flatten target
  refine ⟨fresh, copied, ?_, once, ?_⟩
  · simp [copied]
  · intro row
    rw [member, List.find?_flatten, firstRow?]

end Tables

end

/-! ### The keys of the tables -/

theorem ChunkSize.sameKey_eq (left right : ChunkSize) :
    left.sameKey right = (left.id == right.id) :=
  rfl

/-- What tells places apart: the chunk, the kind of source and the path. -/
def Place.key (place : Place) : ChunkId × Bytes × Bytes :=
  (place.chunk, place.provenance.label, place.provenance.path)

/-- What tells outcomes apart: the chunk and the key they were put under. -/
def StoredResult.place (result : StoredResult) : ChunkId × Bytes :=
  (result.chunk, result.key)

theorem Provenance.ext_label {left right : Provenance} (label : left.label = right.label)
    (path : left.path = right.path) : left = right := by
  have different : utf8 "file" ≠ utf8 "hook" := by decide
  cases left with
  | file path =>
      cases right with
      | file other =>
          cases path
          rfl
      | hook other => exact absurd label different
  | hook path =>
      cases right with
      | file other => exact absurd label different.symm
      | hook other =>
          cases path
          rfl

theorem Place.key_injective : Function.Injective Place.key := by
  rintro ⟨chunk, provenance⟩ ⟨other, found⟩ equal
  simp only [key, Prod.mk.injEq] at equal
  obtain ⟨rfl, label, path⟩ := equal
  rw [Provenance.ext_label label path]

theorem Place.beq_eq (left right : Place) : (left == right) = (left.key == right.key) := by
  rw [Bool.eq_iff_iff, beq_iff_eq, beq_iff_eq]
  exact key_injective.eq_iff.symm

theorem StoredResult.sameKey_eq (left right : StoredResult) :
    left.sameKey right = (left.place == right.place) := by
  rw [Bool.eq_iff_iff]
  simp [sameKey, place]

namespace Tables

/-! ### All tables together -/

/-- Tables with the rows of stores, copied from one after the other. -/
def uniteAll (stores : List Tables) (target : Tables) : Tables :=
  stores.foldl (fun tables store => unite store tables) target

theorem uniteAll_cons (store : Tables) (stores : List Tables) (target : Tables) :
    uniteAll (store :: stores) target = uniteAll stores (unite store target) :=
  rfl

/-- Tables as a first-wins union of a target and stores, and how many rows each of them
gained. -/
structure Merged (target : Tables) (stores : List Tables) (merged : Tables)
    (gained : Gained) : Prop where
  version : merged.version = target.version
  chunks : Extended ChunkSize.id target.chunks (stores.map Tables.chunks) merged.chunks
    gained.chunks
  places : Extended Place.key target.places (stores.map Tables.places) merged.places
    gained.places
  substitutions : Extended Substitution.key target.substitutions
    (stores.map Tables.substitutions) merged.substitutions gained.substitutions
  results : Extended StoredResult.place target.results (stores.map Tables.results)
    merged.results gained.results

theorem uniteAll_eq (stores : List Tables) (target : Tables) :
    uniteAll stores target =
      { version := target.version
        chunks := copyRows ChunkSize.sameKey (stores.map Tables.chunks).flatten target.chunks
        places := copyRows (· == ·) (stores.map Tables.places).flatten target.places
        substitutions := copyRows Substitution.sameKey (stores.map Tables.substitutions).flatten
          target.substitutions
        results := copyRows StoredResult.sameKey (stores.map Tables.results).flatten
          target.results } := by
  induction stores generalizing target with
  | nil => rfl
  | cons store stores induction =>
      rw [uniteAll_cons, induction]
      simp only [List.map_cons, List.flatten_cons, copyRows_append]
      rfl

/-- Each of the tables starts with the rows it had before. -/
structure Leads (before after : Tables) : Prop where
  chunks : before.chunks <+: after.chunks
  places : before.places <+: after.places
  substitutions : before.substitutions <+: after.substitutions
  results : before.results <+: after.results

namespace Leads

variable {before between after : Tables}

theorem refl (tables : Tables) : Leads tables tables :=
  ⟨List.prefix_rfl, List.prefix_rfl, List.prefix_rfl, List.prefix_rfl⟩

theorem trans (first : Leads before between) (second : Leads between after) :
    Leads before after :=
  ⟨first.chunks.trans second.chunks, first.places.trans second.places,
    first.substitutions.trans second.substitutions, first.results.trans second.results⟩

theorem unite (source target : Tables) : Leads target (Tables.unite source target) :=
  ⟨prefix_copyRows _ _, prefix_copyRows _ _, prefix_copyRows _ _, prefix_copyRows _ _⟩

/-- Tables take nothing from the ones they grew from. -/
theorem unite_eq (leads : Leads before after) : Tables.unite before after = after := by
  rw [Tables.unite,
    copyRows_of_subset ChunkSize.sameKey_eq (List.map_subset ChunkSize.id leads.chunks.subset),
    copyRows_of_subset Place.beq_eq (List.map_subset Place.key leads.places.subset),
    copyRows_of_subset Substitution.sameKey_eq
      (List.map_subset Substitution.key leads.substitutions.subset),
    copyRows_of_subset StoredResult.sameKey_eq
      (List.map_subset StoredResult.place leads.results.subset)]

end Leads

/-- The rows of each table, counted before and after. -/
structure Grew (before after : Tables) (gained : Gained) : Prop where
  chunks : after.chunks.length = before.chunks.length + gained.chunks
  places : after.places.length = before.places.length + gained.places
  substitutions : after.substitutions.length = before.substitutions.length + gained.substitutions
  results : after.results.length = before.results.length + gained.results

namespace Grew

variable {before between after : Tables} {gained later : Gained}

theorem refl (tables : Tables) : Grew tables tables .none :=
  ⟨rfl, rfl, rfl, rfl⟩

theorem trans (first : Grew before between gained) (second : Grew between after later) :
    Grew before after (gained.add later) := by
  constructor
  · rw [second.chunks, first.chunks, Nat.add_assoc]
    rfl
  · rw [second.places, first.places, Nat.add_assoc]
    rfl
  · rw [second.substitutions, first.substitutions, Nat.add_assoc]
    rfl
  · rw [second.results, first.results, Nat.add_assoc]
    rfl

theorem eq_gainedOver (grew : Grew before after gained) : gained = after.gainedOver before := by
  simp [gainedOver, grew.chunks, grew.places, grew.substitutions, grew.results]

theorem of_leads (leads : Leads before after) : Grew before after (after.gainedOver before) := by
  constructor
  · exact (Nat.add_sub_of_le leads.chunks.length_le).symm
  · exact (Nat.add_sub_of_le leads.places.length_le).symm
  · exact (Nat.add_sub_of_le leads.substitutions.length_le).symm
  · exact (Nat.add_sub_of_le leads.results.length_le).symm

end Grew

theorem merged_uniteAll (stores : List Tables) (target : Tables) :
    target.Merged stores (uniteAll stores target) ((uniteAll stores target).gainedOver target) := by
  rw [uniteAll_eq]
  exact ⟨rfl, extended_copyRows ChunkSize.sameKey_eq _ _, extended_copyRows Place.beq_eq _ _,
    extended_copyRows Substitution.sameKey_eq _ _, extended_copyRows StoredResult.sameKey_eq _ _⟩

end Tables

end Reroute
