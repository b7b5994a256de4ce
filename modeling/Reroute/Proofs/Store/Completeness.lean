import Mathlib
import Reroute.Proofs.Store.Agreement
import Reroute.Proofs.Store.Copying

/-!
# Stores that lack nothing

No table of a store refers to another one by itself.  A store is complete if its records do:
every replaced occurrence is of a chunk that is listed, and every changed outcome is of a chunk
with a replaced occurrence.  A change keeps a store complete if what it refers to was recorded
before it, and so does copying the rows of complete tables, although rows are copied table by
table and not all of them are.
-/

namespace Reroute

/-! ### Adding records -/

/-- Where records are told apart by one field, copying rows copies the fields. -/
theorem Tables.map_copyRows {α β : Type} [BEq β] {same : α → α → Bool} (field : α → β)
    (compared : ∀ left right, same left right = (field left == field right))
    (source target : List α) :
    (copyRows same source target).map field =
      copyRows (· == ·) (source.map field) (target.map field) := by
  induction source generalizing target with
  | nil => rfl
  | cons row source induction =>
      change (copyRows same source (insertFirst same row target)).map field = _
      rw [induction, map_insertFirst field compared]
      rfl

theorem Tables.nodup_copyRows {β : Type} [BEq β] [LawfulBEq β] (source : List β)
    {target : List β} (distinct : target.Nodup) : (copyRows (· == ·) source target).Nodup := by
  induction source generalizing target with
  | nil => exact distinct
  | cons row source induction => exact induction (nodup_insertFirst row distinct)

theorem Substitution.chunk_of_sameKey {left right : Substitution}
    (same : left.sameKey right = true) : left.chunk = right.chunk := by
  simp only [sameKey, Bool.and_eq_true, beq_iff_eq] at same
  exact same.1.1

/-! ### Completeness -/

/-- The records refer to what is there: every chunk is listed once, every replaced occurrence
is of a listed chunk, and every changed outcome is of a chunk with a replaced occurrence. -/
structure Complete (ids : List ChunkId) (substitutions : List Substitution)
    (results : List StoredResult) : Prop where
  distinct : ids.Nodup
  owned : ∀ record ∈ substitutions, record.chunk ∈ ids
  replaced : ∀ result ∈ results, result.changed = true →
    ∃ record ∈ substitutions, record.chunk = result.chunk

namespace Complete

variable {ids : List ChunkId} {substitutions : List Substitution} {results : List StoredResult}

theorem addChunk (complete : Complete ids substitutions results) (id : ChunkId) :
    Complete (insertFirst (· == ·) id ids) substitutions results where
  distinct := nodup_insertFirst id complete.distinct
  owned record member := mem_insertFirst.mpr (.inl (complete.owned record member))
  replaced := complete.replaced

theorem addSubstitution (complete : Complete ids substitutions results) {record : Substitution}
    (listed : record.chunk ∈ ids) :
    Complete ids (insertFirst Substitution.sameKey record substitutions) results where
  distinct := complete.distinct
  owned other member := by
    rcases eq_or_mem_of_mem_insertFirst member with rfl | old
    · exact listed
    · exact complete.owned other old
  replaced result member changed := by
    obtain ⟨other, old, same⟩ := complete.replaced result member changed
    exact ⟨other, (prefix_insertFirst record substitutions).subset old, same⟩

theorem putResult (complete : Complete ids substitutions results) {result : StoredResult}
    (supported : result.changed = true → ∃ record ∈ substitutions, record.chunk = result.chunk) :
    Complete ids substitutions (replaceResult result results) where
  distinct := complete.distinct
  owned := complete.owned
  replaced other member changed := by
    rcases List.mem_append.mp member with old | new
    · exact complete.replaced other (List.mem_of_mem_filter old) changed
    · obtain rfl := List.mem_singleton.mp new
      exact supported changed

end Complete

namespace Backend

/-- The chunks that are listed. -/
def chunkIds : Backend → List ChunkId
  | .memory records => records.chunks.map SeenChunk.id
  | .file tables _ => tables.chunks.map ChunkSize.id

/-- The replaced occurrences, in the order of recording. -/
def substitutions : Backend → List Substitution
  | .memory records => records.substitutions
  | .file tables _ => tables.substitutions

/-- The outcomes, in the order of recording. -/
def results : Backend → List StoredResult
  | .memory records => records.results
  | .file tables _ => tables.results

/-- The store can be read and lacks nothing that its records refer to. -/
structure Whole (backend : Backend) : Prop where
  complete : Complete backend.chunkIds backend.substitutions backend.results
  readable : ∀ tables, backend ≠ .file tables .nothing

end Backend

theorem MemoryStore.ids_addChunk (id : ChunkId) (size : Int) (provenance : Option Provenance)
    (chunks : List SeenChunk) :
    (addChunk id size provenance chunks).map SeenChunk.id =
      insertFirst (· == ·) id (chunks.map SeenChunk.id) := by
  induction chunks with
  | nil => rfl
  | cons chunk chunks induction =>
      rw [addChunk]
      split
      · next here =>
          have listed : ((chunk :: chunks).map SeenChunk.id).any (id == ·) = true := by
            simp [beq_iff_eq.mp here]
          rw [insertFirst, if_pos listed]
          rfl
      · next elsewhere =>
          have other : (id == chunk.id) = false := by
            rw [beq_eq_false_iff_ne]
            rintro rfl
            exact elsewhere (beq_self_eq_true chunk.id)
          rw [List.map_cons, induction, List.map_cons, insertFirst, insertFirst, List.any_cons,
            other, Bool.false_or]
          split
          · rfl
          · rfl

namespace Store

/-! ### What one change does -/

theorem writeTo_chunk {backend after : Backend} {id : ChunkId} {size : Int}
    {provenance : Option Provenance}
    (written : writeTo backend (.chunk id size provenance) = .ok after) :
    after.chunkIds = insertFirst (· == ·) id backend.chunkIds ∧
      after.substitutions = backend.substitutions ∧ after.results = backend.results := by
  unfold writeTo at written
  split at written
  · next records =>
      cases written
      exact ⟨MemoryStore.ids_addChunk id size provenance records.chunks, rfl, rfl⟩
  · next tables =>
      cases written
      exact ⟨Tables.ids_write tables id size provenance, rfl, rfl⟩
  · cases written
  · cases written

theorem writeTo_substitution {backend after : Backend} {record : Substitution}
    (written : writeTo backend (.substitution record) = .ok after) :
    after.chunkIds = backend.chunkIds ∧
      after.substitutions =
        insertFirst Substitution.sameKey record backend.substitutions ∧
      after.results = backend.results := by
  unfold writeTo at written
  split at written
  · cases written
    exact ⟨rfl, rfl, rfl⟩
  · cases written
    exact ⟨rfl, rfl, rfl⟩
  · cases written
  · cases written

theorem writeTo_result {backend after : Backend} {result : StoredResult}
    (written : writeTo backend (.result result) = .ok after) :
    after.chunkIds = backend.chunkIds ∧ after.substitutions = backend.substitutions ∧
      ∃ stored : StoredResult,
        stored.chunk = result.chunk ∧ stored.changed = result.changed ∧
          after.results = replaceResult stored backend.results := by
  unfold writeTo at written
  split at written
  · cases written
    exact ⟨rfl, rfl, result, rfl, rfl, rfl⟩
  · cases written
    exact ⟨rfl, rfl, result.withoutEmptyMap, rfl, rfl, rfl⟩
  · cases written
  · cases written

/-- A store that takes a change can be read. -/
theorem readable_of_writeTo {backend after : Backend} {change : Write}
    (written : writeTo backend change = .ok after) (tables : Tables) :
    after ≠ .file tables .nothing := by
  unfold writeTo at written
  split at written
  · cases written
    exact nofun
  · cases written
    exact nofun
  · cases written
  · cases written

/-- A change that fails leaves the records alone. -/
theorem write_cases {store after : Store} {change : Write} {answer : Except StoreError Unit}
    (written : store.write change = (answer, after)) :
    answer = .ok () ∧ writeTo store.backend change = .ok after.backend ∨
      (∃ error, answer = .error error) ∧ after.backend = store.backend := by
  unfold write at written
  dsimp only at written
  split at written
  · cases written
    exact .inr ⟨⟨_, rfl⟩, rfl⟩
  · split at written
    · next backend taken =>
        cases written
        exact .inl ⟨rfl, taken⟩
    · cases written
      exact .inr ⟨⟨_, rfl⟩, rfl⟩

theorem backend_getResult (store : Store) (id : ChunkId) (key : Bytes) :
    (store.getResult id key).2.backend = store.backend := by
  unfold getResult
  dsimp only
  split
  · rfl
  · split
    · rfl
    · rfl
    · rfl

theorem backend_getSubstitutions (store : Store) (id : ChunkId) :
    (store.getSubstitutions id).2.backend = store.backend := by
  unfold getSubstitutions
  dsimp only
  split
  · rfl
  · rfl

end Store

/-! ### What a list of changes does -/

/-- Every change refers to chunks that are listed and to occurrences that were replaced, at
first or by a change before it. -/
def Orderly (listed replaced : Set ChunkId) : List Write → Prop
  | [] => True
  | .chunk id _ _ :: changes => Orderly (insert id listed) replaced changes
  | .substitution record :: changes =>
      record.chunk ∈ listed ∧ Orderly listed (insert record.chunk replaced) changes
  | .result result :: changes =>
      (result.changed = true → result.chunk ∈ replaced) ∧ Orderly listed replaced changes

/-- The store is whole, lists some chunks, and has replaced occurrences of some. -/
structure Backend.Holds (listed replaced : Set ChunkId) (backend : Backend) : Prop where
  whole : backend.Whole
  lists : ∀ id ∈ listed, id ∈ backend.chunkIds
  replaces : ∀ id ∈ replaced, ∃ record ∈ backend.substitutions, record.chunk = id

theorem Backend.Whole.holds {backend : Backend} (whole : backend.Whole) :
    backend.Holds ∅ ∅ :=
  ⟨whole, nofun, nofun⟩

namespace Backend.Holds

variable {listed replaced : Set ChunkId} {backend after : Backend}

theorem writeTo_chunk (holds : backend.Holds listed replaced) {id : ChunkId} {size : Int}
    {provenance : Option Provenance}
    (written : Store.writeTo backend (.chunk id size provenance) = .ok after) :
    after.Holds (insert id listed) replaced := by
  obtain ⟨ids, substitutions, results⟩ := Store.writeTo_chunk written
  constructor
  · refine ⟨?_, Store.readable_of_writeTo written⟩
    rw [ids, substitutions, results]
    exact holds.whole.complete.addChunk id
  · intro other member
    rw [ids, mem_insertFirst]
    rcases member with rfl | earlier
    · exact .inr rfl
    · exact .inl (holds.lists other earlier)
  · rw [substitutions]
    exact holds.replaces

theorem writeTo_substitution (holds : backend.Holds listed replaced) {record : Substitution}
    (own : record.chunk ∈ listed)
    (written : Store.writeTo backend (.substitution record) = .ok after) :
    after.Holds listed (insert record.chunk replaced) := by
  obtain ⟨ids, substitutions, results⟩ := Store.writeTo_substitution written
  constructor
  · refine ⟨?_, Store.readable_of_writeTo written⟩
    rw [ids, substitutions, results]
    exact holds.whole.complete.addSubstitution (holds.lists _ own)
  · rw [ids]
    exact holds.lists
  · intro other member
    rw [substitutions]
    rcases member with rfl | earlier
    · obtain ⟨kept, known, same⟩ := exists_same_insertFirst Substitution.sameKey_self record
        backend.substitutions
      exact ⟨kept, known, (Substitution.chunk_of_sameKey same).symm⟩
    · obtain ⟨old, known, same⟩ := holds.replaces other earlier
      exact ⟨old, (prefix_insertFirst record _).subset known, same⟩

theorem writeTo_result (holds : backend.Holds listed replaced) {result : StoredResult}
    (supported : result.changed = true → result.chunk ∈ replaced)
    (written : Store.writeTo backend (.result result) = .ok after) :
    after.Holds listed replaced := by
  obtain ⟨ids, substitutions, stored, chunk, changed, results⟩ := Store.writeTo_result written
  constructor
  · refine ⟨?_, Store.readable_of_writeTo written⟩
    rw [ids, substitutions, results]
    apply holds.whole.complete.putResult
    rw [chunk, changed]
    exact fun isChanged => holds.replaces _ (supported isChanged)
  · rw [ids]
    exact holds.lists
  · rw [substitutions]
    exact holds.replaces

/-- The next of some orderly changes leaves the others orderly. -/
theorem writeTo (holds : backend.Holds listed replaced) {change : Write} {changes : List Write}
    (orderly : Orderly listed replaced (change :: changes))
    (written : Store.writeTo backend change = .ok after) :
    ∃ listed replaced, after.Holds listed replaced ∧ Orderly listed replaced changes := by
  cases change with
  | chunk id size provenance => exact ⟨_, _, holds.writeTo_chunk written, orderly⟩
  | substitution record =>
      exact ⟨_, _, holds.writeTo_substitution orderly.1 written, orderly.2⟩
  | result result => exact ⟨_, _, holds.writeTo_result orderly.1 written, orderly.2⟩

end Backend.Holds

/-! ### Merging -/

/-- The tables lack nothing that their rows refer to. -/
def Tables.Complete (tables : Tables) : Prop :=
  Reroute.Complete (tables.chunks.map ChunkSize.id) tables.substitutions tables.results

namespace Tables.Complete

theorem empty : Tables.Complete .empty :=
  ⟨List.nodup_nil, nofun, nofun⟩

/-- Copying rows keeps tables complete, because a row that is not copied has a like one. -/
theorem unite {source target : Tables} (sourceComplete : source.Complete)
    (targetComplete : target.Complete) : (Tables.unite source target).Complete := by
  have ids : (Tables.unite source target).chunks.map ChunkSize.id =
      copyRows (· == ·) (source.chunks.map ChunkSize.id) (target.chunks.map ChunkSize.id) :=
    map_copyRows ChunkSize.id (fun _ _ => rfl) source.chunks target.chunks
  constructor
  · rw [ids]
    exact nodup_copyRows _ targetComplete.distinct
  · intro record member
    rw [ids]
    rcases mem_of_mem_copyRows member with copied | old
    · have listed := sourceComplete.owned record copied
      obtain ⟨id, known, same⟩ := exists_same_copyRows (fun id => beq_self_eq_true id)
        (target.chunks.map ChunkSize.id) listed
      rw [beq_iff_eq.mp same]
      exact known
    · exact subset_copyRows _ _ (targetComplete.owned record old)
  · intro result member changed
    rcases mem_of_mem_copyRows member with copied | old
    · obtain ⟨record, known, chunk⟩ := sourceComplete.replaced result copied changed
      obtain ⟨kept, listed, same⟩ := exists_same_copyRows Substitution.sameKey_self
        target.substitutions known
      exact ⟨kept, listed, (Substitution.chunk_of_sameKey same).symm.trans chunk⟩
    · obtain ⟨record, known, chunk⟩ := targetComplete.replaced result old changed
      exact ⟨record, subset_copyRows _ _ known, chunk⟩

end Tables.Complete

end Reroute
