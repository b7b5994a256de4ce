import Mathlib
import Reroute.Proofs.Digest.Messages
import Reroute.Proofs.Store.Agreement

/-!
# What stores say after any history

A history is the list of changes that a store went through.  Of the replaced occurrences that
agree on chunk, rule and start, a store lists the one that was recorded first; of the outcomes
for a chunk and a key it gives the one that was put last.  A store in memory and a store file
do so in terms of their own: the file does not tell an empty map from none, it names chunks by
their digits and sorts by these, and it breaks ties by the rule where the other keeps the order
of recording.  Their answers agree but for that.
-/

namespace Reroute

/-! ### The first record of an occurrence -/

namespace Substitution

/-- What tells records apart: chunk, rule and start. -/
def key (record : Substitution) : ChunkId × Bytes × Int :=
  (record.chunk, record.ruleId, record.offset.start)

theorem sameKey_eq (left right : Substitution) :
    left.sameKey right = (left.key == right.key) := by
  rw [Bool.eq_iff_iff]
  simp [sameKey, key, and_assoc]

/-- What records are listed by: chunk and start. -/
def place (record : Substitution) : ChunkId × Int :=
  (record.chunk, record.offset.start)

/-- The order of lists: by the digits of the chunk and then by the start. -/
def InOrder (left right : Substitution) : Prop :=
  left.chunk.hex < right.chunk.hex ∨
    left.chunk = right.chunk ∧ left.offset.start ≤ right.offset.start

end Substitution

/-- In this history the record was added before any other with its key. -/
def FirstAdded (changes : List Write) (record : Substitution) : Prop :=
  ∃ before after, changes = before ++ .substitution record :: after ∧
    ∀ earlier, .substitution earlier ∈ before → earlier.key ≠ record.key

/-- The records after a change. -/
def addRecord (records : List Substitution) : Write → List Substitution
  | .substitution record => insertFirst Substitution.sameKey record records
  | _ => records

/-- The records that stay in a history. -/
def firstRecords (changes : List Write) : List Substitution :=
  changes.foldl addRecord []

theorem firstRecords_append (changes : List Write) (change : Write) :
    firstRecords (changes ++ [change]) = addRecord (firstRecords changes) change := by
  simp [firstRecords]

theorem FirstAdded.append {changes : List Write} {record : Substitution} (change : Write)
    (added : FirstAdded changes record) : FirstAdded (changes ++ [change]) record := by
  obtain ⟨before, after, rfl, fresh⟩ := added
  exact ⟨before, after ++ [change], by simp, fresh⟩

/-- A record is first in a longer history if it was before, or if it comes last and no other
has its key. -/
theorem firstAdded_append_iff {changes : List Write} {change : Write} {record : Substitution} :
    FirstAdded (changes ++ [change]) record ↔
      FirstAdded changes record ∨
        change = .substitution record ∧
          ∀ earlier, .substitution earlier ∈ changes → earlier.key ≠ record.key := by
  constructor
  · rintro ⟨before, after, equality, fresh⟩
    rcases List.eq_nil_or_concat after with rfl | ⟨rest, last, rfl⟩
    · obtain ⟨rfl, last⟩ := List.append_inj' equality rfl
      exact .inr ⟨(List.cons.inj last).1, fresh⟩
    · rw [List.concat_eq_append, ← List.cons_append, ← List.append_assoc] at equality
      exact .inl ⟨before, rest, (List.append_inj' equality rfl).1, fresh⟩
  · rintro (added | ⟨rfl, fresh⟩)
    · exact added.append change
    · exact ⟨changes, [], rfl, fresh⟩

/-- The keys of the records that stay are the keys of all records, each once. -/
theorem keys_firstRecords (changes : List Write) :
    ((firstRecords changes).map Substitution.key).Nodup ∧
      ∀ key, key ∈ (firstRecords changes).map Substitution.key ↔
        ∃ record, .substitution record ∈ changes ∧ record.key = key := by
  induction changes using List.reverseRecOn with
  | nil => simp [firstRecords]
  | append_singleton changes change induction =>
      rw [firstRecords_append]
      cases change with
      | chunk id size provenance => simpa [addRecord] using induction
      | result result => simpa [addRecord] using induction
      | substitution record =>
          rw [addRecord, map_insertFirst Substitution.key Substitution.sameKey_eq]
          refine ⟨nodup_insertFirst _ induction.1, ?_⟩
          intro key
          rw [mem_insertFirst, induction.2]
          simp [or_and_right, exists_or, eq_comm]

theorem mem_firstRecords_iff {changes : List Write} {record : Substitution} :
    record ∈ firstRecords changes ↔ FirstAdded changes record := by
  induction changes using List.reverseRecOn with
  | nil => simp [firstRecords, FirstAdded]
  | append_singleton changes change induction =>
      rw [firstRecords_append, firstAdded_append_iff, ← induction]
      cases change with
      | chunk id size provenance => simp [addRecord]
      | result result => simp [addRecord]
      | substitution new =>
          have known : (firstRecords changes).any new.sameKey = true ↔
              ∃ earlier, .substitution earlier ∈ changes ∧ earlier.key = new.key := by
            rw [← (keys_firstRecords changes).2, List.any_eq_true, List.mem_map]
            simp only [Substitution.sameKey_eq, beq_iff_eq, eq_comm (a := new.key)]
          rw [addRecord, insertFirst]
          split
          · next old =>
              obtain ⟨earlier, member, same⟩ := known.mp old
              constructor
              · exact .inl
              · rintro (member | ⟨⟨⟩, fresh⟩)
                · exact member
                · exact absurd same (fresh earlier member)
          · next fresh =>
              rw [known, not_exists] at fresh
              constructor
              · intro member
                rcases List.mem_append.mp member with old | last
                · exact .inl old
                · obtain rfl := List.mem_singleton.mp last
                  exact .inr ⟨rfl, fun earlier member same => fresh earlier ⟨member, same⟩⟩
              · rintro (old | ⟨⟨⟩, -⟩)
                · exact List.mem_append_left _ old
                · exact List.mem_append_right _ List.mem_cons_self

/-! ### Lists of records -/

/-- The list holds the first records that were added among some, in order. -/
structure Listed (changes : List Write) (among : Substitution → Prop)
    (records : List Substitution) : Prop where
  mem_iff : ∀ record, record ∈ records ↔ among record ∧ FirstAdded changes record
  nodup : records.Nodup
  sorted : records.Pairwise Substitution.InOrder

/-- The lists differ in nothing but the order of records with the same chunk and start. -/
def SameUpToTies (left right : List Substitution) : Prop :=
  left.Perm right ∧ left.map Substitution.place = right.map Substitution.place

theorem Substitution.inOrder_iff (left right : Substitution) :
    left.InOrder right ↔ MemoryStore.rank left ≤ MemoryStore.rank right := by
  rw [InOrder, Digest.hex_lt_hex_iff, ← Digest.toNat_inj]
  simp [MemoryStore.rank, Prod.Lex.le_iff]

/-- Records with the same chunk and start are all that the order does not tell apart. -/
theorem Substitution.InOrder.place_eq {left right : Substitution} (before : left.InOrder right)
    (after : right.InOrder left) : left.place = right.place := by
  rw [inOrder_iff] at before after
  have same := le_antisymm before after
  simp only [MemoryStore.rank, EmbeddingLike.apply_eq_iff_eq, Prod.mk.injEq] at same
  exact Prod.ext (Digest.toNat_inj.mp same.1) same.2

theorem Listed.sameUpToTies {changes : List Write} {among : Substitution → Prop}
    {left right : List Substitution} (leftListed : Listed changes among left)
    (rightListed : Listed changes among right) : SameUpToTies left right := by
  have permutation : left.Perm right := by
    rw [List.perm_ext_iff_of_nodup leftListed.nodup rightListed.nodup]
    intro record
    rw [leftListed.mem_iff, rightListed.mem_iff]
  refine ⟨permutation, ?_⟩
  let before (first second : ChunkId × Int) : Prop :=
    first.1.hex < second.1.hex ∨ first.1 = second.1 ∧ first.2 ≤ second.2
  have leftSorted : (left.map Substitution.place).Pairwise before :=
    List.pairwise_map.mpr leftListed.sorted
  have rightSorted : (right.map Substitution.place).Pairwise before :=
    List.pairwise_map.mpr rightListed.sorted
  refine (permutation.map Substitution.place).eq_of_pairwise ?_ leftSorted rightSorted
  intro first second firstMember secondMember earlier later
  obtain ⟨firstRecord, -, rfl⟩ := List.mem_map.mp firstMember
  obtain ⟨secondRecord, -, rfl⟩ := List.mem_map.mp secondMember
  exact Substitution.InOrder.place_eq earlier later

/-- Sorting some of the first records lists them, whatever order breaks ties. -/
theorem listed_mergeSort (changes : List Write) {select : Substitution → Bool}
    {notAfter : Substitution → Substitution → Bool}
    (trans : ∀ first second third, notAfter first second = true → notAfter second third = true →
      notAfter first third = true)
    (total : ∀ left right, (notAfter left right || notAfter right left) = true)
    (inOrder : ∀ left right, notAfter left right = true → left.InOrder right) :
    Listed changes (fun record => select record = true)
      (((firstRecords changes).filter select).mergeSort notAfter) where
  mem_iff record := by
    rw [List.mem_mergeSort, List.mem_filter, mem_firstRecords_iff, and_comm]
  nodup := by
    rw [(List.mergeSort_perm _ _).nodup_iff]
    exact (List.Nodup.of_map _ (keys_firstRecords changes).1).filter _
  sorted := (List.pairwise_mergeSort trans total _).imp fun before => inOrder _ _ before

/-! ### Order in a file -/

namespace Substitution

/-- A file breaks ties by the rule. -/
theorem notAfterWithRule_iff (left right : Substitution) :
    left.notAfterWithRule right = true ↔
      MemoryStore.rank left < MemoryStore.rank right ∨
        MemoryStore.rank left = MemoryStore.rank right ∧ left.ruleId ≤ right.ruleId := by
  have same : MemoryStore.rank left = MemoryStore.rank right ↔
      left.chunk = right.chunk ∧ left.offset.start = right.offset.start := by
    simp [MemoryStore.rank, Digest.toNat_inj]
  unfold notAfterWithRule
  split
  · next tie =>
      have equal := same.mpr (by simpa using tie)
      rw [Bytes.notAfter_iff]
      simp [equal]
  · next apart =>
      have different : MemoryStore.rank left ≠ MemoryStore.rank right := by
        intro equal
        exact apart (by simpa using same.mp equal)
      rw [MemoryStore.notAfter_eq_rank]
      simp [different, lt_iff_le_and_ne]

theorem notAfterWithRule_trans (first second third : Substitution)
    (before : first.notAfterWithRule second = true)
    (after : second.notAfterWithRule third = true) : first.notAfterWithRule third = true := by
  rw [notAfterWithRule_iff] at before after ⊢
  rcases before with less | ⟨same, rule⟩
  · rcases after with later | ⟨again, -⟩
    · exact .inl (less.trans later)
    · exact .inl (again ▸ less)
  · rcases after with later | ⟨again, rest⟩
    · exact .inl (same ▸ later)
    · exact .inr ⟨same.trans again, List.le_trans rule rest⟩

theorem notAfterWithRule_total (left right : Substitution) :
    (left.notAfterWithRule right || right.notAfterWithRule left) = true := by
  rw [Bool.or_eq_true, notAfterWithRule_iff, notAfterWithRule_iff]
  rcases lt_trichotomy (MemoryStore.rank left) (MemoryStore.rank right) with
    less | same | greater
  · exact .inl (.inl less)
  · rcases List.le_total left.ruleId right.ruleId with before | after
    · exact .inl (.inr ⟨same, before⟩)
    · exact .inr (.inr ⟨same.symm, after⟩)
  · exact .inr (.inl greater)

theorem inOrder_of_notAfterWithRule (left right : Substitution)
    (before : left.notAfterWithRule right = true) : left.InOrder right := by
  rw [inOrder_iff]
  rcases (notAfterWithRule_iff left right).mp before with less | ⟨same, -⟩
  · exact less.le
  · exact same.le

end Substitution

/-- A store in memory lists the first records of a history. -/
theorem listed_notAfter (changes : List Write) (select : Substitution → Bool) :
    Listed changes (fun record => select record = true)
      (((firstRecords changes).filter select).mergeSort Substitution.notAfter) := by
  rw [MemoryStore.notAfter_eq_rank]
  apply listed_mergeSort changes (ranked_trans MemoryStore.rank) (ranked_total MemoryStore.rank)
  intro left right before
  exact (Substitution.inOrder_iff left right).mpr (of_decide_eq_true before)

/-- So does a store file. -/
theorem listed_notAfterWithRule (changes : List Write) (select : Substitution → Bool) :
    Listed changes (fun record => select record = true)
      (((firstRecords changes).filter select).mergeSort Substitution.notAfterWithRule) :=
  listed_mergeSort changes Substitution.notAfterWithRule_trans
    Substitution.notAfterWithRule_total Substitution.inOrder_of_notAfterWithRule

/-! ### The last outcome for a key -/

/-- In this history no later outcome was put in the place of this one. -/
def LastPut (changes : List Write) (result : StoredResult) : Prop :=
  ∃ before after, changes = before ++ .result result :: after ∧
    ∀ later, .result later ∈ after → ¬(later.chunk = result.chunk ∧ later.key = result.key)

/-- The outcome for a chunk and a key after a change. -/
def putOutcome (id : ChunkId) (key : Bytes) (found : Option StoredResult) :
    Write → Option StoredResult
  | .result result => if result.chunk = id ∧ result.key = key then some result else found
  | _ => found

/-- The outcome for a chunk and a key that stays in a history. -/
def lastResult? (changes : List Write) (id : ChunkId) (key : Bytes) : Option StoredResult :=
  changes.foldl (putOutcome id key) none

theorem lastResult?_append (changes : List Write) (change : Write) (id : ChunkId)
    (key : Bytes) :
    lastResult? (changes ++ [change]) id key =
      putOutcome id key (lastResult? changes id key) change := by
  simp [lastResult?]

/-- An outcome is last in a longer history if it comes last, or if it was before and what comes
last is for another chunk or key. -/
theorem lastPut_append_iff {changes : List Write} {change : Write} {result : StoredResult} :
    LastPut (changes ++ [change]) result ↔
      change = .result result ∨
        LastPut changes result ∧
          ∀ later, change = .result later →
            ¬(later.chunk = result.chunk ∧ later.key = result.key) := by
  constructor
  · rintro ⟨before, after, equality, kept⟩
    rcases List.eq_nil_or_concat after with rfl | ⟨rest, last, rfl⟩
    · exact .inl (List.cons.inj (List.append_inj' equality rfl).2).1
    · rw [List.concat_eq_append, ← List.cons_append, ← List.append_assoc] at equality
      obtain ⟨rfl, single⟩ := List.append_inj' equality rfl
      obtain rfl := (List.cons.inj single).1
      refine .inr ⟨⟨before, rest, rfl, ?_⟩, ?_⟩
      · intro later member
        exact kept later (by simp [member])
      · rintro later rfl
        exact kept later (by simp)
  · rintro (rfl | ⟨⟨before, after, rfl, kept⟩, apart⟩)
    · exact ⟨changes, [], rfl, nofun⟩
    · refine ⟨before, after ++ [change], by simp, ?_⟩
      intro later member
      rcases List.mem_append.mp member with earlier | last
      · exact kept later earlier
      · exact apart later (List.mem_singleton.mp last).symm

theorem lastResult?_eq_some_iff {changes : List Write} {id : ChunkId} {key : Bytes}
    {result : StoredResult} :
    lastResult? changes id key = some result ↔
      (result.chunk = id ∧ result.key = key) ∧ LastPut changes result := by
  induction changes using List.reverseRecOn with
  | nil => simp [lastResult?, LastPut]
  | append_singleton changes change induction =>
      rw [lastResult?_append, lastPut_append_iff]
      cases change with
      | chunk newId size provenance => simpa [putOutcome] using induction
      | substitution record => simpa [putOutcome] using induction
      | result new =>
          rw [putOutcome]
          split
          · next here =>
              constructor
              · rintro ⟨⟩
                exact ⟨here, .inl rfl⟩
              · rintro ⟨place, ⟨⟨⟩⟩ | ⟨-, apart⟩⟩
                · rfl
                · exact absurd ⟨here.1.trans place.1.symm, here.2.trans place.2.symm⟩
                    (apart new rfl)
          · next elsewhere =>
              rw [induction]
              constructor
              · rintro ⟨place, last⟩
                refine ⟨place, .inr ⟨last, ?_⟩⟩
                rintro later ⟨⟩ same
                exact elsewhere ⟨same.1.trans place.1, same.2.trans place.2⟩
              · rintro ⟨place, ⟨⟨⟩⟩ | ⟨last, -⟩⟩
                · exact absurd place elsewhere
                · exact ⟨place, last⟩

theorem lastResult?_eq_none_iff {changes : List Write} {id : ChunkId} {key : Bytes} :
    lastResult? changes id key = none ↔
      ∀ result, .result result ∈ changes → ¬(result.chunk = id ∧ result.key = key) := by
  induction changes using List.reverseRecOn with
  | nil => simp [lastResult?]
  | append_singleton changes change induction =>
      rw [lastResult?_append]
      cases change with
      | chunk newId size provenance => simpa [putOutcome] using induction
      | substitution record => simpa [putOutcome] using induction
      | result new =>
          rw [putOutcome]
          split
          · next here =>
              constructor
              · exact nofun
              · intro none
                exact absurd here (none new (by simp))
          · next elsewhere =>
              rw [induction]
              constructor
              · intro none result member
                rcases List.mem_append.mp member with earlier | last
                · exact none result earlier
                · cases List.mem_singleton.mp last
                  exact elsewhere
              · intro none result member
                exact none result (List.mem_append_left _ member)

/-! ### Both stores after a history -/

namespace MemoryStore

/-- The records of a store in memory after a history. -/
def ofHistory (changes : List Write) : MemoryStore :=
  changes.foldl write empty

theorem substitutions_ofHistory (changes : List Write) :
    (ofHistory changes).substitutions = firstRecords changes := by
  refine (List.foldl_hom MemoryStore.substitutions ?_).symm
  intro store change
  cases change <;> rfl

theorem result?_ofHistory (changes : List Write) (id : ChunkId) (key : Bytes) :
    (ofHistory changes).result? id key = lastResult? changes id key := by
  refine (List.foldl_hom (fun store : MemoryStore => store.result? id key) ?_).symm
  intro store change
  cases change with
  | chunk newId size provenance => rfl
  | substitution record => rfl
  | result result => exact (result?_write_result store result id key).symm

end MemoryStore

namespace Tables

/-- The tables of a store file after a history. -/
def ofHistory (changes : List Write) : Tables :=
  changes.foldl write empty

theorem substitutions_ofHistory (changes : List Write) :
    (ofHistory changes).substitutions = firstRecords changes := by
  refine (List.foldl_hom Tables.substitutions ?_).symm
  intro tables change
  cases change <;> rfl

theorem result?_write_result (tables : Tables) (result : StoredResult) (id : ChunkId)
    (key : Bytes) :
    (tables.write (.result result)).result? id key =
      if result.chunk = id ∧ result.key = key then some result.withoutEmptyMap
      else tables.result? id key :=
  findResult?_replaceResult result.withoutEmptyMap tables.results id key

theorem result?_ofHistory (changes : List Write) (id : ChunkId) (key : Bytes) :
    (ofHistory changes).result? id key =
      (lastResult? changes id key).map StoredResult.withoutEmptyMap := by
  induction changes using List.reverseRecOn with
  | nil => rfl
  | append_singleton changes change induction =>
      rw [lastResult?_append, ofHistory, List.foldl_append]
      change ((ofHistory changes).write change).result? id key = _
      cases change with
      | chunk newId size provenance => exact induction
      | substitution record => exact induction
      | result result =>
          rw [result?_write_result, putOutcome, induction]
          split
          · rfl
          · rfl

end Tables

namespace Store

/-- A store after a history. -/
def afterHistory (changes : List Write) (store : Store) : Store :=
  changes.foldl (fun store change => (store.write change).2) store

theorem afterHistory_memory (changes : List Write) :
    afterHistory changes memory = ofRecords (.ofHistory changes) :=
  List.foldl_hom ofRecords fun _ _ => rfl

theorem afterHistory_ofTables (changes : List Write) :
    afterHistory changes (ofTables .empty) = ofTables (.ofHistory changes) :=
  List.foldl_hom ofTables fun _ _ => rfl

theorem getResult_ofTables (tables : Tables) (id : ChunkId) (key : Bytes) :
    ((ofTables tables).getResult id key).1 =
      match tables.result? id key with
      | some result => .ok result
      | none => .error .notFound := by
  simp only [getResult, ofTables, onFile, strike, ask]
  cases tables.result? id key <;> rfl

/-- After any history a store in memory and a store file give the same outcome for every chunk
and key, up to an empty map, and it is the one put last.  They list the same replaced
occurrences, of a chunk and altogether, up to the order of those with the same chunk and start:
the first record for every chunk, rule and start, in order of chunk and start. -/
theorem history_answers_agree (changes : List Write) :
    let inMemory := afterHistory changes memory
    let inFile := afterHistory changes (ofTables .empty)
    (∀ id key,
      (inFile.getResult id key).1 =
          (inMemory.getResult id key).1.map StoredResult.withoutEmptyMap ∧
        (∀ result, (inMemory.getResult id key).1 = .ok result ↔
          (result.chunk = id ∧ result.key = key) ∧ LastPut changes result) ∧
        ((inMemory.getResult id key).1 = .error .notFound ↔
          ∀ result, .result result ∈ changes → ¬(result.chunk = id ∧ result.key = key))) ∧
    (∀ id, ∃ left right, (inMemory.getSubstitutions id).1 = .ok left ∧
      (inFile.getSubstitutions id).1 = .ok right ∧
      Listed changes (fun record => record.chunk = id) left ∧
      Listed changes (fun record => record.chunk = id) right ∧ SameUpToTies left right) ∧
    ∃ left right, inMemory.allSubstitutions = .ok left ∧ inFile.allSubstitutions = .ok right ∧
      Listed changes (fun _ => True) left ∧ Listed changes (fun _ => True) right ∧
      SameUpToTies left right := by
  intro inMemory inFile
  have memory : inMemory = ofRecords (.ofHistory changes) := afterHistory_memory changes
  have file : inFile = ofTables (.ofHistory changes) := afterHistory_ofTables changes
  rw [memory, file]
  refine ⟨?_, ?_, ?_⟩
  · intro id key
    rw [getResult_ofTables, getResult_ofRecords, MemoryStore.result?_ofHistory,
      Tables.result?_ofHistory, ← lastResult?_eq_none_iff]
    refine ⟨?_, ?_, ?_⟩
    · cases lastResult? changes id key <;> rfl
    · intro result
      rw [← lastResult?_eq_some_iff]
      cases lastResult? changes id key <;> simp
    · cases lastResult? changes id key <;> simp
  · intro id
    have left := listed_notAfter changes fun record => record.chunk == id
    have right := listed_notAfterWithRule changes fun record => record.chunk == id
    simp only [beq_iff_eq] at left right
    refine ⟨_, _, ?_, ?_, left, right, left.sameUpToTies right⟩
    · rw [← MemoryStore.substitutions_ofHistory]
      rfl
    · rw [← Tables.substitutions_ofHistory]
      rfl
  · have left := listed_notAfter changes fun _ => true
    have right := listed_notAfterWithRule changes fun _ => true
    simp only [List.filter_true] at left right
    refine ⟨_, _, ?_, ?_, left, right, left.sameUpToTies right⟩
    · rw [← MemoryStore.substitutions_ofHistory]
      rfl
    · rw [← Tables.substitutions_ofHistory]
      rfl

end Store

end Reroute
