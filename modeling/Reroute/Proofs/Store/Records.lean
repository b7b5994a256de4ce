import Mathlib
import Reroute.Store.Handle

/-!
# Records of a store in memory

What a store in memory answers after a write, in terms of what it answered before.  An
outcome is found under its own chunk and key and nowhere else.  Records of replaced
occurrences are kept apart by chunk: writing those of one chunk adds exactly what is
missing, and leaves all other chunks alone.
-/

namespace Reroute

/-! ### Outcomes -/

theorem findResult?_replaceResult (result : StoredResult) (results : List StoredResult)
    (chunk : ChunkId) (key : Bytes) :
    findResult? chunk key (replaceResult result results) =
      if result.chunk = chunk ∧ result.key = key then some result
      else findResult? chunk key results := by
  unfold findResult? replaceResult
  rw [List.find?_append]
  by_cases here : result.chunk = chunk ∧ result.key = key
  · have gone : (results.filter fun old => !result.sameKey old).find?
        (fun old => old.chunk == chunk && old.key == key) = none := by
      rw [List.find?_eq_none]
      intro old member same
      have different := (List.mem_filter.mp member).2
      simp_all [StoredResult.sameKey]
    rw [gone, if_pos here]
    simp [here.1, here.2]
  · have missed : ([result].find? fun old => old.chunk == chunk && old.key == key) = none := by
      simpa using here
    have kept : (results.filter fun old => !result.sameKey old).find?
        (fun old => old.chunk == chunk && old.key == key) =
          results.find? fun old => old.chunk == chunk && old.key == key := by
      rw [List.find?_filter]
      congr 1
      funext old
      by_cases same : old.chunk = chunk ∧ old.key = key
      · have different : result.sameKey old = false := by
          rw [StoredResult.sameKey, same.1, same.2]
          simpa using here
        simp [same.1, same.2, different]
      · have wanted : (old.chunk == chunk && old.key == key) = false := by simpa using same
        simp [wanted]
    rw [kept, missed, if_neg here, Option.or_none]

namespace MemoryStore

@[simp] theorem result?_empty (id : ChunkId) (key : Bytes) : empty.result? id key = none := rfl

theorem result?_write_result (records : MemoryStore) (result : StoredResult) (id : ChunkId)
    (key : Bytes) :
    (records.write (.result result)).result? id key =
      if result.chunk = id ∧ result.key = key then some result
      else records.result? id key :=
  findResult?_replaceResult result records.results id key

end MemoryStore

/-! ### Replaced occurrences -/

/-- Add records one after the other, each unless it is there already. -/
def insertAll (fresh records : List Substitution) : List Substitution :=
  fresh.foldl (fun records record => insertFirst Substitution.sameKey record records) records

def recordsOf (id : ChunkId) (records : List Substitution) : List Substitution :=
  records.filter fun record => record.chunk == id

theorem Substitution.sameKey_self (record : Substitution) : record.sameKey record = true := by
  simp [sameKey]

theorem any_recordsOf (record : Substitution) (records : List Substitution) :
    (recordsOf record.chunk records).any record.sameKey = records.any record.sameKey := by
  rw [recordsOf, List.any_filter]
  congr 1
  funext other
  by_cases same : other.chunk = record.chunk
  · simp [same]
  · simp [Substitution.sameKey, beq_false_of_ne same, beq_false_of_ne (Ne.symm same)]

theorem recordsOf_insertFirst_self (record : Substitution) (records : List Substitution) :
    recordsOf record.chunk (insertFirst Substitution.sameKey record records) =
      insertFirst Substitution.sameKey record (recordsOf record.chunk records) := by
  rw [insertFirst, insertFirst, any_recordsOf]
  split
  · rfl
  · simp [recordsOf]

theorem recordsOf_insertFirst_of_ne {record : Substitution} {id : ChunkId}
    (different : record.chunk ≠ id) (records : List Substitution) :
    recordsOf id (insertFirst Substitution.sameKey record records) = recordsOf id records := by
  rw [insertFirst]
  split
  · rfl
  · simp [recordsOf, different]

/-- Records of one chunk are added among the records of that chunk. -/
theorem recordsOf_insertAll_self {fresh : List Substitution} {id : ChunkId}
    (own : ∀ record ∈ fresh, record.chunk = id) (records : List Substitution) :
    recordsOf id (insertAll fresh records) = insertAll fresh (recordsOf id records) := by
  induction fresh generalizing records with
  | nil => rfl
  | cons record fresh induction =>
      obtain rfl := own record (by simp)
      have continued :=
        induction (fun other member => own other (List.mem_cons_of_mem _ member))
          (insertFirst Substitution.sameKey record records)
      rw [recordsOf_insertFirst_self] at continued
      exact continued

theorem recordsOf_insertAll_of_ne {fresh : List Substitution} {own id : ChunkId}
    (owned : ∀ record ∈ fresh, record.chunk = own) (different : own ≠ id)
    (records : List Substitution) :
    recordsOf id (insertAll fresh records) = recordsOf id records := by
  induction fresh generalizing records with
  | nil => rfl
  | cons record fresh induction =>
      have continued :=
        induction (fun other member => owned other (List.mem_cons_of_mem _ member))
          (insertFirst Substitution.sameKey record records)
      rw [recordsOf_insertFirst_of_ne (by rw [owned record (by simp)]; exact different)]
        at continued
      exact continued

/-- Records that are all there already are not added again. -/
theorem insertAll_of_subset {fresh records : List Substitution} (subset : fresh ⊆ records) :
    insertAll fresh records = records := by
  induction fresh with
  | nil => rfl
  | cons record fresh induction =>
      have present : records.any record.sameKey = true :=
        List.any_eq_true.mpr ⟨record, subset (by simp), record.sameKey_self⟩
      have kept : insertFirst Substitution.sameKey record records = records := by
        rw [insertFirst, if_pos present]
      change insertAll fresh (insertFirst Substitution.sameKey record records) = records
      rw [kept]
      exact induction (fun other member => subset (List.mem_cons_of_mem _ member))

/-- Records with different starts are all added behind others they differ from. -/
theorem insertAll_append {fresh done : List Substitution}
    (ascending : (done ++ fresh).Pairwise fun left right =>
      left.offset.start < right.offset.start) :
    insertAll fresh done = done ++ fresh := by
  induction fresh generalizing done with
  | nil => simp [insertAll]
  | cons record fresh induction =>
      have absent : ¬done.any record.sameKey = true := by
        rw [List.any_eq_true]
        rintro ⟨other, member, same⟩
        have before := (List.pairwise_append.mp ascending).2.2 other member record (by simp)
        simp only [Substitution.sameKey, Bool.and_eq_true, beq_iff_eq] at same
        omega
      have added : insertFirst Substitution.sameKey record done = done ++ [record] := by
        rw [insertFirst, if_neg absent]
      change insertAll fresh (insertFirst Substitution.sameKey record done) = _
      rw [added, induction (by simpa using ascending)]
      simp

theorem mem_of_mem_insertAll {fresh records : List Substitution} {record : Substitution}
    (member : record ∈ insertAll fresh records) : record ∈ records ∨ record ∈ fresh := by
  induction fresh generalizing records with
  | nil => exact .inl member
  | cons first fresh induction =>
      change record ∈ insertAll fresh (insertFirst Substitution.sameKey first records) at member
      rcases induction member with earlier | later
      · unfold insertFirst at earlier
        split at earlier
        · exact .inl earlier
        · rcases List.mem_append.mp earlier with known | new
          · exact .inl known
          · exact .inr (by simp [List.mem_singleton.mp new])
      · exact .inr (List.mem_cons_of_mem _ later)

namespace MemoryStore

/-- The records of a chunk are answered in ascending order of their starts, which is how
they stand when they were written that way. -/
theorem substitutionsOf_of_ascending {records : MemoryStore} {id : ChunkId}
    (ascending : (recordsOf id records.substitutions).Pairwise fun left right =>
      left.offset.start < right.offset.start) :
    records.substitutionsOf id = recordsOf id records.substitutions := by
  unfold substitutionsOf
  apply List.mergeSort_of_pairwise
  refine (List.Pairwise.and_mem.mp ascending).imp ?_
  rintro left right ⟨leftMember, rightMember, before⟩
  have leftChunk : left.chunk = id := by simpa using (List.mem_filter.mp leftMember).2
  have rightChunk : right.chunk = id := by simpa using (List.mem_filter.mp rightMember).2
  simp only [Substitution.notAfter, leftChunk, rightChunk, beq_self_eq_true, if_true,
    decide_eq_true_eq]
  omega

end MemoryStore

/-! ### Stores in memory do not fail -/

namespace Store

/-- A store in memory with some records. -/
def ofRecords (records : MemoryStore) : Store :=
  ⟨.memory records, none⟩

theorem write_ofRecords (records : MemoryStore) (change : Write) :
    (ofRecords records).write change = (.ok (), ofRecords (records.write change)) := rfl

theorem getResult_ofRecords (records : MemoryStore) (id : ChunkId) (key : Bytes) :
    (ofRecords records).getResult id key =
      match records.result? id key with
      | some result => (.ok result, ofRecords records)
      | none => (.error .notFound, ofRecords records) := by
  unfold getResult
  simp only [ofRecords, strike, ask]
  cases records.result? id key <;> rfl

theorem getSubstitutions_ofRecords (records : MemoryStore) (id : ChunkId) :
    (ofRecords records).getSubstitutions id =
      (.ok (records.substitutionsOf id), ofRecords records) := rfl

end Store

end Reroute
