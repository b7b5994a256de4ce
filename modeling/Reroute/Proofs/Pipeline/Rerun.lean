import Mathlib
import Reroute.Proofs.Pipeline.Transparency
import Reroute.Proofs.SourceMap.Comment

/-!
# Reruns in place

The results of a batch are written back over the chunks, and the batch is run again.  The
second run finds every chunk in the ledger of the first: a chunk that was changed comes
back as output, under a comment that does not count, and any other chunk comes back as it
was.  Writing back a second time changes nothing.
-/

namespace Reroute

namespace Pipeline

/-- A chunk with its result written over it.  `url` gives the address of the map for a
path. -/
def writeBack (url : Bytes → Bytes) (chunk : Chunk) (result : ChunkResult) : Chunk :=
  if result.changed then
    { chunk with
      content := Comment.set result.code (url chunk.path)
      map := result.map.getD [] }
  else chunk

def writeBackAll (url : Bytes → Bytes) (chunks : List Chunk) (results : List ChunkResult) :
    List Chunk :=
  List.zipWith (writeBack url) chunks results

/-- The messages that are hashed when a batch is run, written back and run again. -/
def rerunMessages (pipeline : Pipeline) (url : Bytes → Bytes) (chunks : List Chunk)
    (results : List ChunkResult) : List Bytes :=
  (chunks ++ writeBackAll url chunks results).flatMap pipeline.lookupMessages
    ++ results.flatMap outputMessages

theorem writeBackAll_eq (url : Bytes → Bytes) (chunks : List Chunk)
    (results : List ChunkResult) :
    writeBackAll url chunks results =
      (chunks.zip results).map fun pair => writeBack url pair.1 pair.2 := by
  rw [writeBackAll, List.zip, List.map_zipWith]

@[simp] theorem path_writeBack (url : Bytes → Bytes) (chunk : Chunk) (result : ChunkResult) :
    (writeBack url chunk result).path = chunk.path := by
  unfold writeBack
  split
  · rfl
  · rfl

/-! ### The first run -/

/-- The ledger of a batch so far.  Every entry is one of the results, and every result is
an entry or belongs to a chunk that agrees with the output of an entry. -/
structure Settled (pipeline : Pipeline) (messages : List Bytes) (records : MemoryStore)
    (entries : List Entry) (done : List (Chunk × ChunkResult)) : Prop where
  ledger : Ledger pipeline messages records entries
  origins : ∀ entry ∈ entries, (entry.chunk, entry.result) ∈ done
  outcomes : ∀ chunk result, (chunk, result) ∈ done →
    ⟨chunk, result⟩ ∈ entries ∨
      (result = unchangedResult chunk true ∧ ∃ entry ∈ entries,
        entry.result.changed = true ∧
        Comment.strip entry.result.code = Comment.strip chunk.content)

namespace Settled

variable {pipeline : Pipeline} {messages : List Bytes} {records : MemoryStore}
  {entries : List Entry} {done : List (Chunk × ChunkResult)} {chunk : Chunk}

theorem start (pipeline : Pipeline) (messages : List Bytes) :
    Settled pipeline messages .empty [] [] :=
  ⟨Ledger.empty pipeline messages, by simp, by simp⟩

theorem result?_eq_none (settled : Settled pipeline messages records entries done)
    (apart : DigestsApart messages) (hashed : pipeline.Hashed messages chunk)
    (fresh : ∀ earlier result, (earlier, result) ∈ done → earlier.path ≠ chunk.path) :
    records.result? chunk.id (pipeline.resultKey chunk) = none := by
  cases found : records.result? chunk.id (pipeline.resultKey chunk) with
  | none => rfl
  | some stored =>
      obtain ⟨entry, member, -, path, -⟩ :=
        settled.ledger.exists_entry_of_result? apart hashed found
      exact absurd path (fresh entry.chunk entry.result (settled.origins entry member))

/-- Processing a chunk with a new path settles it. -/
theorem process (settled : Settled pipeline messages records entries done)
    (default : pipeline.transform = none) (incremental : pipeline.incremental = true)
    (apart : DigestsApart messages) (hashed : pipeline.Hashed messages chunk)
    (fresh : ∀ earlier result, (earlier, result) ∈ done → earlier.path ≠ chunk.path)
    {result : ChunkResult} {store : Store}
    (processed : pipeline.process chunk (.ofRecords records) = (.ok result, store))
    (output : outputMessages result ⊆ messages) :
    ∃ after next, store = .ofRecords after ∧
      Settled pipeline messages after next (done ++ [(chunk, result)]) := by
  obtain ⟨after, next, stored, ledger, answered⟩ :=
    settled.ledger.process default incremental apart hashed processed
      (fun _ same => Except.ok.inj same ▸ output)
  refine ⟨after, next, stored, ledger, ?_, ?_⟩
  · intro entry member
    rcases answered.mem_or_eq member with earlier | last
    · exact List.mem_append_left _ (settled.origins entry earlier)
    · rw [Prod.mk.injEq, Except.ok.injEq] at last
      rw [last.1, last.2]
      exact List.mem_append_right _ (List.mem_singleton_self _)
  · intro other otherResult member
    rcases List.mem_append.mp member with earlier | last
    · rcases settled.outcomes other otherResult earlier with entry |
        ⟨same, entry, entryMember, facts⟩
      · exact .inl (answered.subset entry)
      · exact .inr ⟨same, entry, answered.subset entryMember, facts⟩
    · cases List.mem_singleton.mp last
      cases answered with
      | reused found =>
          rw [settled.result?_eq_none apart hashed fresh] at found
          cases found
      | recognized entryMember changed stripped =>
          exact .inr ⟨rfl, _, entryMember, changed, stripped⟩
      | worked => exact .inl List.mem_cons_self

/-- A batch over chunks with new and different paths settles all of them. -/
theorem processBatch (settled : Settled pipeline messages records entries done)
    (default : pipeline.transform = none) (incremental : pipeline.incremental = true)
    (apart : DigestsApart messages) {chunks : List Chunk}
    (hashed : ∀ chunk ∈ chunks, pipeline.Hashed messages chunk)
    (distinct : ((done.map fun pair => pair.1.path) ++ chunks.map Chunk.path).Nodup)
    {results : List ChunkResult} {store : Store}
    (ran : pipeline.processBatch none chunks (.ofRecords records) = (.ok results, store))
    (outputs : results.flatMap outputMessages ⊆ messages) :
    results.length = chunks.length ∧
      ∃ after next, store = .ofRecords after ∧
        Settled pipeline messages after next (done ++ chunks.zip results) := by
  induction chunks generalizing records entries done results with
  | nil =>
      cases ran
      exact ⟨rfl, records, entries, rfl, by simpa using settled⟩
  | cons chunk chunks induction =>
      rw [processBatch_cons] at ran
      split at ran
      · cases ran
      next result middle processed =>
      split at ran
      · cases ran
      next later last continued =>
      cases ran
      rw [List.flatMap_cons, List.append_subset] at outputs
      have fresh : ∀ earlier earlierResult, (earlier, earlierResult) ∈ done →
          earlier.path ≠ chunk.path := by
        intro earlier earlierResult member
        refine (List.nodup_append.mp distinct).2.2 earlier.path ?_ chunk.path (by simp)
        exact List.mem_map.mpr ⟨_, member, rfl⟩
      obtain ⟨between, accounted, rfl, settledNext⟩ :=
        settled.process default incremental apart (hashed chunk (by simp)) fresh processed
          outputs.1
      obtain ⟨length, after, next, stored, settledLast⟩ :=
        induction settledNext
          (fun other member => hashed other (List.mem_cons_of_mem _ member))
          (by simpa using distinct) continued outputs.2
      refine ⟨by rw [List.length_cons, length, List.length_cons], after, next, stored, ?_⟩
      simpa using settledLast

/-! ### The second run -/

theorem eq_of_path (distinct : (done.map fun pair => pair.1.path).Nodup)
    {left right : Chunk × ChunkResult} (leftMember : left ∈ done) (rightMember : right ∈ done)
    (same : left.1.path = right.1.path) : left = right :=
  List.inj_on_of_nodup_map distinct leftMember rightMember same

/-- An outcome that is found under the path of a settled chunk is that chunk's own. -/
theorem stored_eq (settled : Settled pipeline messages records entries done)
    (apart : DigestsApart messages) (distinct : (done.map fun pair => pair.1.path).Nodup)
    {result : ChunkResult} (member : (chunk, result) ∈ done) {current : MemoryStore}
    (ledger : Ledger pipeline messages current entries) {other : Chunk}
    (hashed : pipeline.Hashed messages other) (path : other.path = chunk.path)
    {stored : StoredResult}
    (found : current.result? other.id (pipeline.resultKey other) = some stored) :
    stored = pipeline.storedResult chunk result := by
  obtain ⟨entry, entryMember, -, entryPath, -, stored⟩ :=
    ledger.exists_entry_of_result? apart hashed found
  have same : (entry.chunk, entry.result) = (chunk, result) :=
    eq_of_path distinct (settled.origins entry entryMember) member (entryPath.trans path)
  rw [Prod.mk.injEq] at same
  rw [stored, same.1, same.2]

/-- Writing back what was stored for a chunk is writing back its result. -/
theorem writeBack_reused (pipeline : Pipeline) (url : Bytes → Bytes) (chunk : Chunk)
    (result : ChunkResult) (records : MemoryStore) :
    writeBack url (writeBack url chunk result)
        (pipeline.reusedResult (writeBack url chunk result)
          (pipeline.storedResult chunk result) records) =
      writeBack url chunk result := by
  cases changed : result.changed with
  | true => simp [writeBack, reusedResult, storedResult, changed]
  | false => simp [writeBack, reusedResult, storedResult, changed]

/-- A settled chunk for which nothing is stored after writing back agrees with the output of
an entry. -/
theorem exists_output (settled : Settled pipeline messages records entries done)
    {result : ChunkResult} (member : (chunk, result) ∈ done) {url : Bytes → Bytes}
    (address : Comment.Address (url chunk.path)) {current : MemoryStore}
    (ledger : Ledger pipeline messages current entries)
    (missing : current.result? (writeBack url chunk result).id
      (pipeline.resultKey (writeBack url chunk result)) = none) :
    ∃ entry ∈ entries, entry.result.changed = true ∧
      Comment.strip entry.result.code =
        Comment.strip (writeBack url chunk result).content := by
  rcases settled.outcomes chunk result member with worked | ⟨rfl, output⟩
  · by_cases changed : result.changed = true
    · refine ⟨⟨chunk, result⟩, worked, changed, ?_⟩
      rw [writeBack, if_pos changed]
      exact (Comment.strip_set address result.code).symm
    · rw [writeBack, if_neg changed, ledger.kept _ worked] at missing
      cases missing
  · exact output

/-- The second run leaves what was written back as it is. -/
theorem rerun (settled : Settled pipeline messages records entries done)
    (incremental : pipeline.incremental = true) (apart : DigestsApart messages)
    (distinct : (done.map fun pair => pair.1.path).Nodup)
    {result : ChunkResult} (member : (chunk, result) ∈ done) {url : Bytes → Bytes}
    (address : Comment.Address (url chunk.path))
    (hashed : pipeline.Hashed messages (writeBack url chunk result))
    {current : MemoryStore} (ledger : Ledger pipeline messages current entries) :
    ∃ again after,
      pipeline.process (writeBack url chunk result) (.ofRecords current) =
        (.ok again, .ofRecords after) ∧
      Ledger pipeline messages after entries ∧
      writeBack url (writeBack url chunk result) again = writeBack url chunk result := by
  cases found : current.result? (writeBack url chunk result).id
      (pipeline.resultKey (writeBack url chunk result)) with
  | some stored =>
      have processed := process_ofRecords incremental (writeBack url chunk result) current
      rw [found] at processed
      refine ⟨_, _, processed, ledger.seen _, ?_⟩
      rw [settled.stored_eq apart distinct member ledger hashed (path_writeBack url chunk result)
        found]
      exact writeBack_reused pipeline url chunk result current
  | none =>
      obtain ⟨entry, entryMember, changed, stripped⟩ :=
        settled.exists_output member address ledger found
      exact ⟨_, _, ledger.process_output incremental found entryMember changed stripped, ledger,
        rfl⟩

theorem rerunBatch (settled : Settled pipeline messages records entries done)
    (incremental : pipeline.incremental = true) (apart : DigestsApart messages)
    (distinct : (done.map fun pair => pair.1.path).Nodup) {url : Bytes → Bytes}
    (addresses : ∀ pair ∈ done, Comment.Address (url pair.1.path))
    (hashed : ∀ pair ∈ done, pipeline.Hashed messages (writeBack url pair.1 pair.2))
    {pairs : List (Chunk × ChunkResult)} (subset : pairs ⊆ done) {current : MemoryStore}
    (ledger : Ledger pipeline messages current entries) :
    ∃ again last,
      pipeline.processBatch none (pairs.map fun pair => writeBack url pair.1 pair.2)
          (.ofRecords current) = (.ok again, last) ∧
      writeBackAll url (pairs.map fun pair => writeBack url pair.1 pair.2) again =
        pairs.map fun pair => writeBack url pair.1 pair.2 := by
  induction pairs generalizing current with
  | nil => exact ⟨[], .ofRecords current, rfl, rfl⟩
  | cons pair pairs induction =>
      have member : pair ∈ done := subset List.mem_cons_self
      obtain ⟨first, after, processed, nextLedger, firstKept⟩ :=
        settled.rerun incremental apart distinct member (addresses pair member)
          (hashed pair member) ledger
      obtain ⟨again, last, ran, kept⟩ :=
        induction (fun other otherMember => subset (List.mem_cons_of_mem _ otherMember))
          nextLedger
      refine ⟨first :: again, last, ?_, ?_⟩
      · simp only [List.map_cons, processBatch_cons, processed, ran]
      · rw [List.map_cons, writeBackAll, List.zipWith_cons_cons, firstKept]
        exact congrArg _ kept

end Settled

/-- A batch that is run in place a second time on the same store succeeds again and leaves
every chunk, byte for byte, as the first run wrote it back. -/
theorem rerun_in_place {settings : PipelineSettings} {pipeline : Pipeline}
    (incremental : settings.incremental = true) (made : make settings none = .ok pipeline)
    {chunks : List Chunk} (paths : ∀ chunk ∈ chunks, 0 ∉ chunk.path)
    (distinct : (chunks.map Chunk.path).Nodup) {url : Bytes → Bytes}
    (addresses : ∀ chunk ∈ chunks, Comment.Address (url chunk.path))
    {results : List ChunkResult} {store : Store}
    (ran : pipeline.processBatch none chunks .memory = (.ok results, store))
    (apart : DigestsApart (pipeline.rerunMessages url chunks results)) :
    (writeBackAll url chunks results).map Chunk.path = chunks.map Chunk.path ∧
      ∃ again last,
        pipeline.processBatch none (writeBackAll url chunks results) store =
          (.ok again, last) ∧
        writeBackAll url (writeBackAll url chunks results) again =
          writeBackAll url chunks results := by
  have isIncremental := (incremental_of_make made).trans incremental
  have hashed : ∀ chunk ∈ chunks ++ writeBackAll url chunks results, 0 ∉ chunk.path →
      pipeline.Hashed (pipeline.rerunMessages url chunks results) chunk := by
    intro chunk member path
    refine ⟨path, ?_⟩
    intro message messageMember
    exact List.mem_append_left _ (List.mem_flatMap.mpr ⟨chunk, member, messageMember⟩)
  obtain ⟨length, records, entries, rfl, settled⟩ :=
    (Settled.start pipeline _).processBatch (transform_of_make made) isIncremental apart
      (fun chunk member => hashed chunk (List.mem_append_left _ member) (paths chunk member))
      (by simpa using distinct) ran (List.subset_append_right _ _)
  rw [List.nil_append] at settled
  have firsts : (chunks.zip results).map Prod.fst = chunks := List.map_fst_zip length.ge
  have written := writeBackAll_eq url chunks results
  have pairPath : ((chunks.zip results).map fun pair => pair.1.path) =
      chunks.map Chunk.path := by
    conv_rhs => rw [← firsts, List.map_map]
    rfl
  have inChunks : ∀ pair ∈ chunks.zip results, pair.1 ∈ chunks :=
    fun pair member => (List.of_mem_zip member).1
  have kept :=
    settled.rerunBatch isIncremental apart (pairPath ▸ distinct)
      (fun pair member => addresses pair.1 (inChunks pair member))
      (fun pair member => hashed _
        (List.mem_append_right _ (written ▸ List.mem_map.mpr ⟨pair, member, rfl⟩))
        (by rw [path_writeBack]; exact paths pair.1 (inChunks pair member)))
      (List.Subset.refl _) settled.ledger
  rw [← written] at kept
  refine ⟨?_, kept⟩
  rw [written, ← pairPath, List.map_map]
  exact List.map_congr_left fun pair _ => path_writeBack url pair.1 pair.2

/-- Map files are named after the code they belong to. -/
def mapAddress (path : Bytes) : Bytes :=
  path ++ utf8 ".map"

/-- A chunk with a call is changed, a chunk that is its output is recognized, and both stay
as they were written back. -/
theorem rerun_in_place_call :
    ∃ pipeline results store again last,
      make incrementalSettings none = .ok pipeline ∧
      pipeline.processBatch none [callChunk, calledChunk] .memory = (.ok results, store) ∧
      results.map ChunkResult.changed = [true, false] ∧
      pipeline.processBatch none
          (writeBackAll mapAddress [callChunk, calledChunk] results) store =
        (.ok again, last) ∧
      writeBackAll mapAddress (writeBackAll mapAddress [callChunk, calledChunk] results) again =
        writeBackAll mapAddress [callChunk, calledChunk] results := by
  let pipeline : Pipeline := ⟨.production, Rule.builtin, true, false, none⟩
  let chunks := [callChunk, calledChunk]
  let results :=
    [pipeline.changedResult callChunk (utf8 "window.import(x)")
        (utf8 "\x7b\"version\":3,\"file\":\"a.js\",\"sources\":[\"a.js\"],\"names\":[],"
          ++ utf8 "\"mappings\":\"AAAA,cAAO,CAAC\"\x7d"),
      unchangedResult calledChunk true]
  have parsed : Mode.parse [] = .ok .production := by decide +kernel
  have made : make incrementalSettings none = .ok pipeline := by
    rw [make, incrementalSettings, parsed]
    rfl
  have answered : (pipeline.processBatch none chunks .memory).1 = .ok results := by
    decide +kernel
  have ran : pipeline.processBatch none chunks .memory =
      (.ok results, (pipeline.processBatch none chunks .memory).2) :=
    Prod.ext answered rfl
  have addresses : ∀ chunk ∈ chunks, Comment.Address (mapAddress chunk.path) := by
    intro chunk member
    rcases List.mem_cons.mp member with rfl | last
    · exact ⟨by decide, by decide +kernel⟩
    · rw [List.mem_singleton.mp last]
      exact ⟨by decide, by decide +kernel⟩
  obtain ⟨-, again, last, reran, kept⟩ :=
    rerun_in_place rfl made (by decide) (by decide) addresses ran (by decide +kernel)
  exact ⟨pipeline, results, _, again, last, made, ran, rfl, reran, kept⟩

end Pipeline

end Reroute
