import Mathlib
import Reroute.Proofs.Digest.Messages
import Reroute.Proofs.Pipeline.Steps

/-!
# The ledger of an incremental pipeline

The records of a store in memory that an incremental pipeline filled are accounted for by
the chunks it worked on.  Whatever is stored was stored for one of them, whatever was
stored for one of them is still there, and the records of replaced occurrences are exactly
those of the chunks that were changed.

The accounts rest on digests: as far as digests of the hashed messages tell these apart, a
key stands for the path and the parent map of a chunk, and an identifier for its content.
-/

namespace Reroute

namespace Pipeline

/-! ### Keys -/

/-- The message whose digest is the key of an outcome. -/
def keyMessage (pipeline : Pipeline) (chunk : Chunk) : Bytes :=
  pipeline.rule.structuralId ++ 0 :: chunk.path ++ 0 ::
    (if pipeline.includeContent then utf8 "true" else utf8 "false") ++ 0 :: chunk.map

theorem keyMessage_injective {pipeline : Pipeline} {left right : Chunk}
    (leftClear : 0 ∉ left.path) (rightClear : 0 ∉ right.path)
    (equality : pipeline.keyMessage left = pipeline.keyMessage right) :
    left.path = right.path ∧ left.map = right.map := by
  simp only [keyMessage, List.append_assoc, List.cons_append, List.append_cancel_left_eq,
    List.cons.injEq, true_and] at equality
  obtain ⟨path, rest⟩ := Bytes.cut_at_separator leftClear rightClear equality
  rw [List.append_cancel_left_eq, List.cons.injEq] at rest
  exact ⟨path, rest.2⟩

/-- No outcome of a chunk is stored under the key of output marks. -/
theorem resultKey_ne_outputKey (pipeline : Pipeline) (chunk : Chunk) :
    pipeline.resultKey chunk ≠ pipeline.outputKey := by
  intro equality
  have marked : 0 ∈ pipeline.outputKey := by simp [outputKey]
  rw [← equality] at marked
  exact Digest.zero_not_mem_hex _ marked

/-- A chunk with a path that keys can tell from other paths, whose content and key are
hashed. -/
structure Keyed (pipeline : Pipeline) (messages : List Bytes) (chunk : Chunk) : Prop where
  path : 0 ∉ chunk.path
  content : ChunkId.message chunk.content ∈ messages
  key : pipeline.keyMessage chunk ∈ messages

namespace Keyed

variable {pipeline : Pipeline} {messages : List Bytes} {left right : Chunk}

theorem content_eq (apart : DigestsApart messages) (leftKeyed : pipeline.Keyed messages left)
    (rightKeyed : pipeline.Keyed messages right) (same : left.id = right.id) :
    left.content = right.content :=
  ChunkId.content_eq_of_ofContent_eq apart leftKeyed.content rightKeyed.content same

theorem path_map_eq (apart : DigestsApart messages) (leftKeyed : pipeline.Keyed messages left)
    (rightKeyed : pipeline.Keyed messages right)
    (same : pipeline.resultKey left = pipeline.resultKey right) :
    left.path = right.path ∧ left.map = right.map := by
  apply keyMessage_injective leftKeyed.path rightKeyed.path
  exact apart _ leftKeyed.key _ rightKeyed.key (Digest.hex_injective same)

/-- Chunks that share identifier and key have the same outcome. -/
theorem work_eq (apart : DigestsApart messages) (leftKeyed : pipeline.Keyed messages left)
    (rightKeyed : pipeline.Keyed messages right) (sameId : left.id = right.id)
    (sameKey : pipeline.resultKey left = pipeline.resultKey right) :
    pipeline.work left = pipeline.work right := by
  obtain ⟨path, map⟩ := leftKeyed.path_map_eq apart rightKeyed sameKey
  exact pipeline.work_congr (leftKeyed.content_eq apart rightKeyed sameId) path map

end Keyed

/-- The messages that are hashed to look a chunk up. -/
def lookupMessages (pipeline : Pipeline) (chunk : Chunk) : List Bytes :=
  [ChunkId.message chunk.content, ChunkId.message (Comment.strip chunk.content),
    pipeline.keyMessage chunk]

/-- The messages that are hashed to mark output. -/
def outputMessages (result : ChunkResult) : List Bytes :=
  if result.changed then [ChunkId.message (Comment.strip result.code)] else []

/-- A chunk with a path that keys can tell from other paths, whose messages are hashed. -/
structure Hashed (pipeline : Pipeline) (messages : List Bytes) (chunk : Chunk) : Prop where
  path : 0 ∉ chunk.path
  subset : pipeline.lookupMessages chunk ⊆ messages

namespace Hashed

variable {pipeline : Pipeline} {messages : List Bytes} {left right : Chunk}

theorem keyed (hashed : pipeline.Hashed messages left) : pipeline.Keyed messages left :=
  ⟨hashed.path, hashed.subset (by simp [lookupMessages]),
    hashed.subset (by simp [lookupMessages])⟩

theorem content_eq (apart : DigestsApart messages) (leftHashed : pipeline.Hashed messages left)
    (rightHashed : pipeline.Hashed messages right) (same : left.id = right.id) :
    left.content = right.content :=
  leftHashed.keyed.content_eq apart rightHashed.keyed same

theorem path_map_eq (apart : DigestsApart messages) (leftHashed : pipeline.Hashed messages left)
    (rightHashed : pipeline.Hashed messages right)
    (same : pipeline.resultKey left = pipeline.resultKey right) :
    left.path = right.path ∧ left.map = right.map :=
  leftHashed.keyed.path_map_eq apart rightHashed.keyed same

/-- A stored outcome is found for chunks with the same outcome only. -/
theorem work_eq (apart : DigestsApart messages) (leftHashed : pipeline.Hashed messages left)
    (rightHashed : pipeline.Hashed messages right) (sameId : left.id = right.id)
    (sameKey : pipeline.resultKey left = pipeline.resultKey right) :
    pipeline.work left = pipeline.work right :=
  leftHashed.keyed.work_eq apart rightHashed.keyed sameId sameKey

end Hashed

/-! ### The ledger -/

/-- A chunk that was worked on, and its result. -/
structure Entry where
  chunk : Chunk
  result : ChunkResult

/-- The records are accounted for by the entries. -/
structure Ledger (pipeline : Pipeline) (messages : List Bytes) (records : MemoryStore)
    (entries : List Entry) : Prop where
  works : ∀ entry ∈ entries, pipeline.work entry.chunk = .ok entry.result
  hashed : ∀ entry ∈ entries, pipeline.Hashed messages entry.chunk
  outputs : ∀ entry ∈ entries, outputMessages entry.result ⊆ messages
  found : ∀ {id key stored}, records.result? id key = some stored →
    (∃ entry ∈ entries, entry.chunk.id = id ∧ pipeline.resultKey entry.chunk = key ∧
      stored = pipeline.storedResult entry.chunk entry.result) ∨
    (∃ entry ∈ entries, entry.result.changed = true ∧ outputId entry.result.code = id ∧
      pipeline.outputKey = key)
  kept : ∀ entry ∈ entries,
    records.result? entry.chunk.id (pipeline.resultKey entry.chunk) =
      some (pipeline.storedResult entry.chunk entry.result)
  marked : ∀ entry ∈ entries, entry.result.changed = true →
    (records.result? (outputId entry.result.code) pipeline.outputKey).isSome = true
  listed : ∀ entry ∈ entries, entry.result.changed = true →
    recordsOf entry.chunk.id records.substitutions = pipeline.replaced entry.chunk.content
  owned : ∀ record ∈ records.substitutions, ∃ entry ∈ entries,
    entry.result.changed = true ∧ record.chunk = entry.chunk.id

namespace Ledger

variable {pipeline : Pipeline} {messages : List Bytes} {records : MemoryStore}
  {entries : List Entry} {chunk : Chunk} {result : ChunkResult}

theorem empty (pipeline : Pipeline) (messages : List Bytes) :
    Ledger pipeline messages .empty [] where
  works := by simp
  hashed := by simp
  outputs := by simp
  found := by simp
  kept := by simp
  marked := by simp
  listed := by simp
  owned := by simp [MemoryStore.empty]

theorem seen (ledger : Ledger pipeline messages records entries) (chunk : Chunk) :
    Ledger pipeline messages (Pipeline.seen chunk records) entries :=
  ⟨ledger.works, ledger.hashed, ledger.outputs, ledger.found, ledger.kept, ledger.marked,
    ledger.listed, ledger.owned⟩

/-- An outcome found for a chunk was stored for a chunk with the same work. -/
theorem exists_entry_of_result? (ledger : Ledger pipeline messages records entries)
    (apart : DigestsApart messages) (hashed : pipeline.Hashed messages chunk)
    {stored : StoredResult}
    (found : records.result? chunk.id (pipeline.resultKey chunk) = some stored) :
    ∃ entry ∈ entries, entry.chunk.content = chunk.content ∧
      entry.chunk.path = chunk.path ∧ entry.chunk.map = chunk.map ∧
      stored = pipeline.storedResult entry.chunk entry.result := by
  rcases ledger.found found with
    ⟨entry, member, sameId, sameKey, stored⟩ | ⟨entry, member, changed, sameId, sameKey⟩
  · have entryHashed := ledger.hashed entry member
    obtain ⟨path, map⟩ := entryHashed.path_map_eq apart hashed sameKey
    exact ⟨entry, member, entryHashed.content_eq apart hashed sameId, path, map, stored⟩
  · exact absurd sameKey.symm (resultKey_ne_outputKey pipeline chunk)

/-- A mark found for a chunk was stored for output that agrees with it up to comments. -/
theorem exists_entry_of_mark (ledger : Ledger pipeline messages records entries)
    (apart : DigestsApart messages) (hashed : pipeline.Hashed messages chunk)
    {mark : StoredResult}
    (found : records.result? (outputId chunk.content) pipeline.outputKey = some mark) :
    ∃ entry ∈ entries, entry.result.changed = true ∧
      Comment.strip entry.result.code = Comment.strip chunk.content := by
  rcases ledger.found found with
    ⟨entry, member, sameId, sameKey, stored⟩ | ⟨entry, member, changed, sameId, sameKey⟩
  · exact absurd sameKey (resultKey_ne_outputKey pipeline entry.chunk)
  · have output : ChunkId.message (Comment.strip entry.result.code) ∈ messages :=
      ledger.outputs entry member (by simp [outputMessages, changed])
    have input : ChunkId.message (Comment.strip chunk.content) ∈ messages :=
      hashed.subset (by simp [lookupMessages])
    exact ⟨entry, member, changed,
      ChunkId.content_eq_of_ofContent_eq apart output input sameId⟩

/-- The records of a chunk are those of its content, once the content was changed. -/
theorem recordsOf_eq (ledger : Ledger pipeline messages records entries)
    (apart : DigestsApart messages) (hashed : pipeline.Hashed messages chunk) :
    recordsOf chunk.id records.substitutions = [] ∨
      recordsOf chunk.id records.substitutions = pipeline.replaced chunk.content := by
  by_cases known : ∃ entry ∈ entries, entry.result.changed = true ∧ chunk.id = entry.chunk.id
  · obtain ⟨entry, member, changed, same⟩ := known
    right
    rw [same, ledger.listed entry member changed,
      (ledger.hashed entry member).content_eq apart hashed same.symm]
  · left
    unfold recordsOf
    rw [List.filter_eq_nil_iff]
    intro record member own
    obtain ⟨entry, entryMember, changed, owner⟩ := ledger.owned record member
    apply known
    exact ⟨entry, entryMember, changed, (beq_iff_eq.mp own).symm.trans owner⟩

/-- The records of a chunk that is recorded as changed become those of its content. -/
theorem recordsOf_recorded_self (ledger : Ledger pipeline messages records entries)
    (default : pipeline.transform = none) (apart : DigestsApart messages)
    (hashed : pipeline.Hashed messages chunk) (worked : pipeline.work chunk = .ok result)
    (changed : result.changed = true) :
    recordsOf chunk.id (pipeline.recorded chunk result records).substitutions =
      pipeline.replaced chunk.content := by
  have owned : ∀ record ∈ pipeline.replaced chunk.content, record.chunk = chunk.id :=
    fun record member => (pipeline.replaced_owned chunk.content record member).1
  rw [substitutions_recorded, substitutions_of_work default worked, if_pos changed,
    recordsOf_insertAll_self owned]
  rcases ledger.recordsOf_eq apart hashed with none | all
  · rw [none]
    exact insertAll_append (pipeline.replaced_ascending chunk.content)
  · rw [all]
    exact insertAll_of_subset (List.Subset.refl _)

theorem recordsOf_recorded_of_ne (default : pipeline.transform = none)
    (worked : pipeline.work chunk = .ok result) {id : ChunkId} (different : chunk.id ≠ id)
    (records : MemoryStore) :
    recordsOf id (pipeline.recorded chunk result records).substitutions =
      recordsOf id records.substitutions := by
  have owned : ∀ record ∈ result.substitutions, record.chunk = chunk.id := by
    intro record member
    rw [substitutions_of_work default worked] at member
    split at member
    · exact (pipeline.replaced_owned chunk.content record member).1
    · simp at member
  rw [substitutions_recorded, recordsOf_insertAll_of_ne owned different]

theorem listed_recorded (ledger : Ledger pipeline messages records entries)
    (default : pipeline.transform = none) (apart : DigestsApart messages)
    (hashed : pipeline.Hashed messages chunk) (worked : pipeline.work chunk = .ok result)
    (entry : Entry) (member : entry ∈ entries) (entryChanged : entry.result.changed = true) :
    recordsOf entry.chunk.id (pipeline.recorded chunk result records).substitutions =
      pipeline.replaced entry.chunk.content := by
  by_cases same : chunk.id = entry.chunk.id
  · by_cases changed : result.changed = true
    · rw [← same, ledger.recordsOf_recorded_self default apart hashed worked changed,
        hashed.content_eq apart (ledger.hashed entry member) same]
    · rw [substitutions_recorded, substitutions_of_work default worked, if_neg changed]
      exact ledger.listed entry member entryChanged
  · rw [recordsOf_recorded_of_ne default worked same]
    exact ledger.listed entry member entryChanged

/-- What is stored for an entry stays stored when another chunk is recorded. -/
theorem kept_recorded (ledger : Ledger pipeline messages records entries)
    (apart : DigestsApart messages)
    (hashed : pipeline.Hashed messages chunk) (worked : pipeline.work chunk = .ok result)
    (entry : Entry) (member : entry ∈ entries) :
    (pipeline.recorded chunk result records).result? entry.chunk.id
        (pipeline.resultKey entry.chunk) =
      some (pipeline.storedResult entry.chunk entry.result) := by
  rw [result?_recorded,
    if_neg fun mark => resultKey_ne_outputKey pipeline entry.chunk mark.2.2.symm]
  split
  · next same =>
      have sameId : chunk.id = entry.chunk.id := (names_of_work worked).2.symm.trans same.1
      have sameWork := hashed.work_eq apart (ledger.hashed entry member) sameId same.2
      rw [worked, ledger.works entry member, Except.ok.injEq] at sameWork
      rw [storedResult, storedResult, same.2, sameWork]
  · exact ledger.kept entry member

theorem found_recorded (ledger : Ledger pipeline messages records entries)
    (worked : pipeline.work chunk = .ok result) {id : ChunkId} {key : Bytes} {stored : StoredResult}
    (found : (pipeline.recorded chunk result records).result? id key = some stored) :
    (∃ entry ∈ (⟨chunk, result⟩ :: entries : List Entry), entry.chunk.id = id ∧
      pipeline.resultKey entry.chunk = key ∧
      stored = pipeline.storedResult entry.chunk entry.result) ∨
    (∃ entry ∈ (⟨chunk, result⟩ :: entries : List Entry), entry.result.changed = true ∧
      outputId entry.result.code = id ∧ pipeline.outputKey = key) := by
  rw [result?_recorded] at found
  split at found
  · next mark => exact .inr ⟨⟨chunk, result⟩, List.mem_cons_self, mark⟩
  split at found
  · next same =>
      left
      refine ⟨⟨chunk, result⟩, List.mem_cons_self, ?_, same.2, (Option.some.inj found).symm⟩
      exact (names_of_work worked).2.symm.trans same.1
  · rcases ledger.found found with ⟨entry, member, facts⟩ | ⟨entry, member, facts⟩
    · exact .inl ⟨entry, List.mem_cons_of_mem _ member, facts⟩
    · exact .inr ⟨entry, List.mem_cons_of_mem _ member, facts⟩

/-- Working on a chunk and recording it adds one entry. -/
theorem record (ledger : Ledger pipeline messages records entries)
    (default : pipeline.transform = none) (apart : DigestsApart messages)
    (hashed : pipeline.Hashed messages chunk) (worked : pipeline.work chunk = .ok result)
    (output : outputMessages result ⊆ messages) :
    Ledger pipeline messages (pipeline.recorded chunk result records)
      (⟨chunk, result⟩ :: entries) where
  works := List.forall_mem_cons.mpr ⟨worked, ledger.works⟩
  hashed := List.forall_mem_cons.mpr ⟨hashed, ledger.hashed⟩
  outputs := List.forall_mem_cons.mpr ⟨output, ledger.outputs⟩
  found := ledger.found_recorded worked
  kept := by
    refine List.forall_mem_cons.mpr
      ⟨?_, ledger.kept_recorded apart hashed worked⟩
    rw [result?_recorded,
      if_neg fun mark => resultKey_ne_outputKey pipeline chunk mark.2.2.symm,
      if_pos ⟨(names_of_work worked).2, rfl⟩]
  marked := by
    intro entry member changed
    rw [result?_recorded]
    split
    · rfl
    · next unmarked =>
        rw [if_neg fun same => resultKey_ne_outputKey pipeline chunk same.2]
        rcases List.mem_cons.mp member with rfl | earlier
        · exact absurd ⟨changed, rfl, rfl⟩ unmarked
        · exact ledger.marked entry earlier changed
  listed := List.forall_mem_cons.mpr
    ⟨ledger.recordsOf_recorded_self default apart hashed worked,
      ledger.listed_recorded default apart hashed worked⟩
  owned := by
    intro record member
    rw [substitutions_recorded] at member
    rcases mem_of_mem_insertAll member with earlier | new
    · obtain ⟨entry, entryMember, facts⟩ := ledger.owned record earlier
      exact ⟨entry, List.mem_cons_of_mem _ entryMember, facts⟩
    · rw [substitutions_of_work default worked] at new
      split at new
      · next changed =>
          exact ⟨⟨chunk, result⟩, List.mem_cons_self, changed,
            (pipeline.replaced_owned chunk.content record new).1⟩
      · simp at new

/-- An outcome that is used again is the outcome of working on the chunk. -/
theorem reusedResult_eq (ledger : Ledger pipeline messages records entries)
    (default : pipeline.transform = none) (apart : DigestsApart messages)
    (hashed : pipeline.Hashed messages chunk) {stored : StoredResult}
    (found : records.result? chunk.id (pipeline.resultKey chunk) = some stored) :
    ∃ result, pipeline.work chunk = .ok result ∧
      pipeline.reusedResult chunk stored records = { result with cached := true } := by
  obtain ⟨entry, member, content, path, map, rfl⟩ :=
    ledger.exists_entry_of_result? apart hashed found
  have worked := ledger.works entry member
  have sameId : entry.chunk.id = chunk.id := congrArg ChunkId.ofContent content
  rw [pipeline.work_congr content path map] at worked
  refine ⟨entry.result, worked, ?_⟩
  rcases work_cases default worked with unchanged | ⟨code, mapText, changed⟩
  · rw [unchanged]
    rfl
  · have isChanged : entry.result.changed = true := by rw [changed, changedResult]
    have records_ := ledger.listed entry member isChanged
    rw [sameId, content] at records_
    have answered : records.substitutionsOf chunk.id = pipeline.replaced chunk.content := by
      rw [MemoryStore.substitutionsOf_of_ascending
        (by rw [records_]; exact pipeline.replaced_ascending chunk.content), records_]
    have allOwn : (pipeline.replaced chunk.content).filter
        (fun record => record.ruleId == pipeline.rule.id) =
          pipeline.replaced chunk.content := by
      rw [List.filter_eq_self]
      intro record recordMember
      rw [(pipeline.replaced_owned chunk.content record recordMember).2]
      exact beq_self_eq_true _
    rw [changed]
    simp only [reusedResult, storedResult, changedResult, if_true, answered, allOwn]

/-- A chunk that agrees with the output of an entry is left as it is, unless an outcome is
stored for it. -/
theorem process_output (ledger : Ledger pipeline messages records entries)
    (incremental : pipeline.incremental = true)
    (missing : records.result? chunk.id (pipeline.resultKey chunk) = none) {entry : Entry}
    (member : entry ∈ entries) (changed : entry.result.changed = true)
    (stripped : Comment.strip entry.result.code = Comment.strip chunk.content) :
    pipeline.process chunk (.ofRecords records) =
      (.ok (unchangedResult chunk true), .ofRecords records) := by
  have same : outputId entry.result.code = outputId chunk.content :=
    congrArg ChunkId.ofContent stripped
  have marked := ledger.marked entry member changed
  rw [same] at marked
  obtain ⟨mark, found⟩ := Option.isSome_iff_exists.mp marked
  rw [process_ofRecords incremental, missing]
  simp only [found]

end Ledger

/-- The ways in which a chunk is answered from records, with the entries that account for
the records afterwards. -/
inductive Answered (pipeline : Pipeline) (records : MemoryStore) (entries : List Entry)
    (chunk : Chunk) : Except Error ChunkResult → List Entry → Prop where
  | reused {stored : StoredResult} :
      records.result? chunk.id (pipeline.resultKey chunk) = some stored →
      Answered pipeline records entries chunk
        (.ok (pipeline.reusedResult chunk stored records)) entries
  | recognized {entry : Entry} :
      entry ∈ entries →
      entry.result.changed = true →
      Comment.strip entry.result.code = Comment.strip chunk.content →
      Answered pipeline records entries chunk (.ok (unchangedResult chunk true)) entries
  | failed {error : Error} :
      pipeline.work chunk = .error error →
      Answered pipeline records entries chunk (.error error) entries
  | worked {result : ChunkResult} :
      pipeline.work chunk = .ok result →
      Answered pipeline records entries chunk (.ok result) (⟨chunk, result⟩ :: entries)

variable {pipeline : Pipeline} {messages : List Bytes} {records : MemoryStore}
  {entries next : List Entry} {chunk : Chunk} {answer : Except Error ChunkResult}

theorem Answered.mem_or_eq
    (answered : Answered pipeline records entries chunk answer next) {entry : Entry}
    (member : entry ∈ next) :
    entry ∈ entries ∨ (entry.chunk, .ok entry.result) = (chunk, answer) := by
  cases answered with
  | reused => exact .inl member
  | recognized => exact .inl member
  | failed => exact .inl member
  | worked =>
      rcases List.mem_cons.mp member with rfl | earlier
      · exact .inr rfl
      · exact .inl earlier

theorem Answered.subset
    (answered : Answered pipeline records entries chunk answer next) : entries ⊆ next := by
  cases answered with
  | reused => exact List.Subset.refl _
  | recognized => exact List.Subset.refl _
  | failed => exact List.Subset.refl _
  | worked => exact List.subset_cons_self _ _

/-- Processing a chunk answers it in one of these ways and keeps a ledger. -/
theorem Ledger.process
    (ledger : Ledger pipeline messages records entries)
    (default : pipeline.transform = none) (incremental : pipeline.incremental = true)
    (apart : DigestsApart messages) (hashed : pipeline.Hashed messages chunk) {store : Store}
    (processed : pipeline.process chunk (.ofRecords records) = (answer, store))
    (outputs : ∀ result, answer = .ok result → outputMessages result ⊆ messages) :
    ∃ after next, store = .ofRecords after ∧ Ledger pipeline messages after next ∧
      Answered pipeline records entries chunk answer next := by
  rw [process_ofRecords incremental] at processed
  cases found : records.result? chunk.id (pipeline.resultKey chunk) with
  | some stored =>
      rw [found] at processed
      cases processed
      exact ⟨_, entries, rfl, ledger.seen chunk, .reused found⟩
  | none =>
      cases marked : records.result? (outputId chunk.content) pipeline.outputKey with
      | some mark =>
          rw [found, marked] at processed
          cases processed
          obtain ⟨entry, member, changed, stripped⟩ :=
            ledger.exists_entry_of_mark apart hashed marked
          exact ⟨_, entries, rfl, ledger, .recognized member changed stripped⟩
      | none =>
          cases worked : pipeline.work chunk with
          | error error =>
              rw [found, marked, worked] at processed
              cases processed
              exact ⟨_, entries, rfl, ledger, .failed worked⟩
          | ok result =>
              rw [found, marked, worked] at processed
              cases processed
              exact ⟨_, _, rfl, ledger.record default apart hashed worked (outputs result rfl),
                .worked worked⟩

end Pipeline

end Reroute
