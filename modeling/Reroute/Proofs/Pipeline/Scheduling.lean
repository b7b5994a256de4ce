import Mathlib
import Reroute.Proofs.Pipeline.Ledger
import Reroute.Proofs.Store.Views

/-!
# Scheduling does not matter

A pipeline without a cache asks the store nothing, so that a chunk that is being processed is
known by the writes it still has to carry out and by the answer it gives then.  Chunks that are
processed at the same time take turns at the store, one write at a time.

Whatever the turns, the writes are the same up to their order.  The writes of one pipeline do
not contradict each other, as far as digests tell contents and keys apart, and therefore the
store answers in the end as if the chunks had been processed one after the other.
-/

namespace Reroute

namespace Pipeline

/-! ### Calls -/

/-- A chunk that is being processed: the writes still to be carried out, and the answer once
they are. -/
structure Call where
  path : Bytes
  pending : List Recording
  answer : Except Error ChunkResult

/-- A chunk of which nothing is recorded yet. -/
def call (pipeline : Pipeline) (chunk : Chunk) : Call :=
  match pipeline.work chunk with
  | .error error => ⟨chunk.path, [], .error error⟩
  | .ok result => ⟨chunk.path, pipeline.recordings chunk result, .ok result⟩

/-- Carry out the next write.  A write that fails ends the call. -/
def Call.step (call : Call) (store : Store) : Call × Store :=
  match call.pending with
  | [] => (call, store)
  | recording :: rest =>
      match store.write recording.change with
      | (.ok _, after) => ({ call with pending := rest }, after)
      | (.error error, after) =>
          (⟨call.path, [], .error (.record recording.purpose call.path error)⟩, after)

/-- Let calls take steps as a schedule says, which names them by their positions. -/
def interleave : List Nat → List Call → Store → List Call × Store
  | [], calls, store => (calls, store)
  | position :: schedule, calls, store =>
      match calls[position]? with
      | none => interleave schedule calls store
      | some call =>
          interleave schedule (calls.set position (call.step store).1) (call.step store).2

theorem interleave_replicate_done (path : Bytes) (answer : Except Error ChunkResult)
    (count : Nat) (store : Store) :
    interleave (List.replicate count 0) [⟨path, [], answer⟩] store =
      ([⟨path, [], answer⟩], store) := by
  induction count with
  | zero => rfl
  | succ count induction => exact induction

theorem interleave_replicate (path : Bytes) (pending : List Recording)
    (answer : Except Error ChunkResult) (store : Store) {count : Nat}
    (enough : pending.length ≤ count) :
    interleave (List.replicate count 0) [⟨path, pending, answer⟩] store =
      match carryOut path pending store with
      | (.ok _, after) => ([⟨path, [], answer⟩], after)
      | (.error error, after) => ([⟨path, [], .error error⟩], after) := by
  induction pending generalizing count store with
  | nil => exact interleave_replicate_done path answer count store
  | cons recording pending induction =>
      cases count with
      | zero => simp at enough
      | succ count =>
          rw [List.replicate_succ, interleave, carryOut]
          simp only [List.getElem?_cons_zero, List.set_cons_zero, Call.step]
          cases store.write recording.change with
          | mk written after =>
              cases written with
              | ok => exact induction after (Nat.le_of_succ_le_succ enough)
              | error error => exact interleave_replicate_done path _ count after

/-- A call that is alone with a store, whatever store it is, comes to what processing the
chunk comes to. -/
theorem interleave_alone {pipeline : Pipeline} (plain : pipeline.incremental = false)
    (chunk : Chunk) (store : Store) {count : Nat}
    (enough : (pipeline.call chunk).pending.length ≤ count) :
    interleave (List.replicate count 0) [pipeline.call chunk] store =
      ([⟨chunk.path, [], (pipeline.process chunk store).1⟩],
        (pipeline.process chunk store).2) := by
  rw [process, plain, if_neg Bool.false_ne_true, workAndRecord]
  revert enough
  unfold call
  cases pipeline.work chunk with
  | error error =>
      intro _
      exact interleave_replicate_done chunk.path (.error error) count store
  | ok result =>
      intro enough
      dsimp only at enough ⊢
      rw [interleave_replicate _ _ _ _ enough]
      cases carryOut chunk.path (pipeline.recordings chunk result) store with
      | mk carried after => cases carried <;> rfl

/-! ### Turns at a store in memory -/

theorem set_of_getElem? {α : Type} {elements : List α} {position : Nat} {element : α}
    (found : elements[position]? = some element) : elements.set position element = elements := by
  obtain ⟨bound, rfl⟩ := List.getElem?_eq_some_iff.mp found
  exact List.set_getElem_self bound

/-- The writes that calls still have to carry out. -/
def pendingWrites (calls : List Call) : List Write :=
  calls.flatMap fun call => call.pending.map Recording.change

/-- A step carries out one of the pending writes. -/
theorem pendingWrites_set {calls : List Call} {position : Nat} {path : Bytes}
    {recording : Recording} {rest : List Recording} {answer : Except Error ChunkResult}
    (found : calls[position]? = some ⟨path, recording :: rest, answer⟩) :
    (recording.change :: pendingWrites (calls.set position ⟨path, rest, answer⟩)).Perm
      (pendingWrites calls) := by
  induction calls generalizing position with
  | nil => simp at found
  | cons call calls induction =>
      cases position with
      | zero =>
          obtain rfl : call = _ := by simpa using found
          rfl
      | succ position =>
          have later := induction (by simpa using found)
          simp only [pendingWrites, List.set_cons_succ, List.flatMap_cons] at later ⊢
          exact List.perm_middle.symm.trans (later.append_left _)

/-- At any time, the writes carried out so far and those still pending are the writes of the
start in some order, and no answer has changed. -/
theorem interleave_ofRecords (schedule : List Nat) (calls : List Call) (records : MemoryStore) :
    ∃ done : List Write,
      (interleave schedule calls (.ofRecords records)).2 =
          .ofRecords (done.foldl MemoryStore.write records) ∧
        (interleave schedule calls (.ofRecords records)).1.map Call.answer =
          calls.map Call.answer ∧
        (done ++ pendingWrites (interleave schedule calls (.ofRecords records)).1).Perm
          (pendingWrites calls) := by
  induction schedule generalizing calls records with
  | nil => exact ⟨[], rfl, rfl, .refl _⟩
  | cons position schedule induction =>
      rw [interleave]
      split
      · exact induction calls records
      · next call found =>
          obtain ⟨path, pending, answer⟩ := call
          cases pending with
          | nil =>
              -- A call that is done stays as it is, and its turn is lost.
              have unchanged : calls.set position ⟨path, [], answer⟩ = calls :=
                set_of_getElem? found
              simp only [Call.step, unchanged]
              exact induction calls records
          | cons recording rest =>
              obtain ⟨done, stored, answers, carried⟩ :=
                induction (calls.set position ⟨path, rest, answer⟩)
                  (records.write recording.change)
              refine ⟨recording.change :: done, stored, ?_, ?_⟩
              · refine answers.trans ?_
                rw [List.map_set]
                apply set_of_getElem?
                rw [List.getElem?_map, found]
                rfl
              · exact (carried.cons recording.change).trans (pendingWrites_set found)

/-! ### One chunk after the other -/

theorem process_call {pipeline : Pipeline} (plain : pipeline.incremental = false)
    (chunk : Chunk) (records : MemoryStore) :
    pipeline.process chunk (.ofRecords records) =
      ((pipeline.call chunk).answer,
        .ofRecords
          (((pipeline.call chunk).pending.map Recording.change).foldl MemoryStore.write
            records)) := by
  rw [process, plain, if_neg Bool.false_ne_true, workAndRecord_ofRecords, call]
  cases pipeline.work chunk with
  | error error => rfl
  | ok result =>
      rw [List.foldl_map]
      rfl

/-- A batch carries out all writes of its first chunk, then all of its second, and so on. -/
theorem processBatch_calls {pipeline : Pipeline} (plain : pipeline.incremental = false)
    {chunks : List Chunk} {records : MemoryStore} {results : List ChunkResult} {after : Store}
    (processed : pipeline.processBatch none chunks (.ofRecords records) = (.ok results, after)) :
    (chunks.map pipeline.call).map Call.answer = results.map .ok ∧
      after = .ofRecords
        ((pendingWrites (chunks.map pipeline.call)).foldl MemoryStore.write records) := by
  induction chunks generalizing records results after with
  | nil =>
      cases processed
      exact ⟨rfl, rfl⟩
  | cons chunk chunks induction =>
      rw [processBatch_cons, process_call plain] at processed
      cases answered : (pipeline.call chunk).answer with
      | error error =>
          rw [answered] at processed
          cases processed
      | ok result =>
          rw [answered] at processed
          dsimp only at processed
          split at processed
          · cases processed
          · next later last laterProcessed =>
              cases processed
              obtain ⟨answers, stored⟩ := induction laterProcessed
              rw [pendingWrites, List.map_cons, List.flatMap_cons, List.foldl_append]
              refine ⟨?_, stored⟩
              rw [List.map_cons, List.map_cons, answered, answers]

/-! ### The writes of a pipeline -/

/-- The messages that are hashed to record a chunk by its identifier and its key. -/
def recordMessages (pipeline : Pipeline) (chunk : Chunk) : List Bytes :=
  [ChunkId.message chunk.content, pipeline.keyMessage chunk]

/-- The writes that record a chunk: its size, its replaced occurrences, its outcome, and the
mark of its output. -/
inductive Writes (pipeline : Pipeline) (chunk : Chunk) (result : ChunkResult) : Write → Prop where
  | chunk : Writes pipeline chunk result
      (.chunk chunk.id chunk.content.length (some chunk.source))
  | substitution {record : Substitution} : record ∈ pipeline.replaced chunk.content →
      Writes pipeline chunk result (.substitution record)
  | result : Writes pipeline chunk result (.result (pipeline.storedResult chunk result))
  | outputMark : Writes pipeline chunk result (.result (pipeline.outputMark result))

theorem writes_of_mem {pipeline : Pipeline} (default : pipeline.transform = none) {chunk : Chunk}
    {change : Write} (member : change ∈ (pipeline.call chunk).pending.map Recording.change) :
    ∃ result, pipeline.work chunk = .ok result ∧ Writes pipeline chunk result change := by
  unfold call at member
  cases worked : pipeline.work chunk with
  | error error =>
      rw [worked] at member
      simp at member
  | ok result =>
      rw [worked] at member
      refine ⟨result, rfl, ?_⟩
      have owner := (names_of_work worked).2
      have replaced := substitutions_of_work default worked
      simp only [recordings, List.map_append, List.mem_append] at member
      rcases member with ((seen | substituted) | stored) | marked
      · obtain rfl : change = _ := by simpa using seen
        rw [owner]
        exact .chunk
      · obtain ⟨record, inside, rfl⟩ : ∃ record ∈ result.substitutions,
            Write.substitution record = change := by simpa using substituted
        rw [replaced] at inside
        split at inside
        · exact .substitution inside
        · simp at inside
      · obtain rfl : change = _ := by simpa using stored
        exact .result
      · split at marked
        · obtain rfl : change = _ := by simpa using marked
          exact .outputMark
        · simp at marked

theorem replaced_eq_of_start {pipeline : Pipeline} {content : Bytes} {left right : Substitution}
    (leftMember : left ∈ pipeline.replaced content)
    (rightMember : right ∈ pipeline.replaced content)
    (same : left.offset.start = right.offset.start) : left = right := by
  have starts : ((pipeline.replaced content).map fun record => record.offset.start).Nodup := by
    rw [List.Nodup, List.pairwise_map]
    exact (pipeline.replaced_ascending content).imp fun before => ne_of_lt before
  exact List.inj_on_of_nodup_map starts leftMember rightMember same

/-- Two writes of one pipeline do not contradict each other. -/
theorem Writes.compatible {pipeline : Pipeline} {messages : List Bytes}
    (apart : DigestsApart messages) {left right : Chunk}
    (leftKeyed : pipeline.Keyed messages left) (rightKeyed : pipeline.Keyed messages right)
    {leftResult rightResult : ChunkResult} (leftWorked : pipeline.work left = .ok leftResult)
    (rightWorked : pipeline.work right = .ok rightResult) {first second : Write}
    (firstWrites : Writes pipeline left leftResult first)
    (secondWrites : Writes pipeline right rightResult second) : first.Compatible second := by
  cases firstWrites with
  | chunk =>
      cases secondWrites with
      | chunk =>
          intro same
          rw [leftKeyed.content_eq apart rightKeyed same]
      | substitution => trivial
      | result => trivial
      | outputMark => trivial
  | substitution firstMember =>
      cases secondWrites with
      | chunk => trivial
      | substitution secondMember =>
          intro sameChunk sameStart
          rw [(pipeline.replaced_owned _ _ firstMember).1,
            (pipeline.replaced_owned _ _ secondMember).1] at sameChunk
          rw [leftKeyed.content_eq apart rightKeyed sameChunk] at firstMember
          exact replaced_eq_of_start firstMember secondMember sameStart
      | result => trivial
      | outputMark => trivial
  | result =>
      cases secondWrites with
      | chunk => trivial
      | substitution => trivial
      | result =>
          intro sameId sameKey
          have owners : left.id = right.id := by
            rw [← (names_of_work leftWorked).2, ← (names_of_work rightWorked).2]
            exact sameId
          have sameWork := leftKeyed.work_eq apart rightKeyed owners sameKey
          rw [leftWorked, rightWorked, Except.ok.injEq] at sameWork
          have keys : pipeline.resultKey left = pipeline.resultKey right := sameKey
          rw [storedResult, storedResult, sameWork, keys]
      | outputMark =>
          intro _ sameKey
          exact absurd sameKey (resultKey_ne_outputKey pipeline left)
  | outputMark =>
      cases secondWrites with
      | chunk => trivial
      | substitution => trivial
      | result =>
          intro _ sameKey
          exact absurd sameKey.symm (resultKey_ne_outputKey pipeline right)
      | outputMark =>
          -- A mark holds nothing but the identifier that it stands under.
          intro sameId _
          have outputs : outputId leftResult.code = outputId rightResult.code := sameId
          rw [Pipeline.outputMark, Pipeline.outputMark, outputs]

theorem compatible_of_mem_pendingWrites {pipeline : Pipeline}
    (default : pipeline.transform = none) {messages : List Bytes} (apart : DigestsApart messages)
    {chunks : List Chunk} (keyed : ∀ chunk ∈ chunks, pipeline.Keyed messages chunk)
    {first second : Write} (firstMember : first ∈ pendingWrites (chunks.map pipeline.call))
    (secondMember : second ∈ pendingWrites (chunks.map pipeline.call)) :
    first.Compatible second := by
  have origin {change : Write} (member : change ∈ pendingWrites (chunks.map pipeline.call)) :
      ∃ chunk ∈ chunks, ∃ result, pipeline.work chunk = .ok result ∧
        Writes pipeline chunk result change := by
    obtain ⟨call, called, inside⟩ := List.mem_flatMap.mp member
    obtain ⟨chunk, listed, rfl⟩ := List.mem_map.mp called
    exact ⟨chunk, listed, writes_of_mem default inside⟩
  obtain ⟨left, leftListed, leftResult, leftWorked, firstWrites⟩ := origin firstMember
  obtain ⟨right, rightListed, rightResult, rightWorked, secondWrites⟩ := origin secondMember
  exact firstWrites.compatible apart (keyed left leftListed) (keyed right rightListed)
    leftWorked rightWorked secondWrites

/-- Whatever turns chunks take at a store in memory that a pipeline without a cache records
them in, each chunk is answered as in a batch, and in the end the store answers as after the
batch.  That is as far as digests tell apart the contents and keys that are hashed.  What takes
turns is the processing of the chunks: a call that is alone with a store comes to that. -/
theorem schedule_irrelevant {pipeline : Pipeline} (default : pipeline.transform = none)
    (plain : pipeline.incremental = false) {chunks : List Chunk}
    (clear : ∀ chunk ∈ chunks, 0 ∉ chunk.path)
    (apart : DigestsApart (chunks.flatMap pipeline.recordMessages)) {records : MemoryStore}
    {results : List ChunkResult} {after : Store}
    (processed : pipeline.processBatch none chunks (.ofRecords records) = (.ok results, after))
    {schedule : List Nat} {calls : List Call} {reached : Store}
    (interleaved : interleave schedule (chunks.map pipeline.call) (.ofRecords records) =
      (calls, reached))
    (finished : ∀ call ∈ calls, call.pending = []) :
    (calls.map Call.answer = results.map .ok ∧ reached.SameAnswers after) ∧
      ∀ chunk store count, (pipeline.call chunk).pending.length ≤ count →
        interleave (List.replicate count 0) [pipeline.call chunk] store =
          ([⟨chunk.path, [], (pipeline.process chunk store).1⟩],
            (pipeline.process chunk store).2) := by
  have keyed : ∀ chunk ∈ chunks,
      pipeline.Keyed (chunks.flatMap pipeline.recordMessages) chunk := by
    intro chunk listed
    have hashed : ∀ message ∈ pipeline.recordMessages chunk,
        message ∈ chunks.flatMap pipeline.recordMessages :=
      fun message member => List.mem_flatMap.mpr ⟨chunk, listed, member⟩
    exact ⟨clear chunk listed, hashed _ (by simp [recordMessages]),
      hashed _ (by simp [recordMessages])⟩
  obtain ⟨answers, rfl⟩ := processBatch_calls plain processed
  obtain ⟨done, stored, kept, carried⟩ :=
    interleave_ofRecords schedule (chunks.map pipeline.call) records
  rw [interleaved] at stored kept carried
  have nothing : pendingWrites calls = [] := by
    rw [pendingWrites, List.flatMap_eq_nil_iff]
    intro call member
    rw [finished call member, List.map_nil]
  rw [nothing, List.append_nil] at carried
  refine ⟨⟨kept.trans answers, ?_⟩,
    fun chunk store count enough => interleave_alone plain chunk store enough⟩
  obtain rfl : reached = _ := stored
  -- The stores themselves may differ in the order of their records, but their views do not.
  apply Store.SameAnswers.of_view_eq
  rw [MemoryStore.view_foldl_write, MemoryStore.view_foldl_write]
  apply View.foldl_write_eq_of_perm carried
  intro first firstMember second secondMember
  apply compatible_of_mem_pendingWrites default apart keyed
  · exact carried.mem_iff.mp firstMember
  · exact carried.mem_iff.mp secondMember

/-- A pipeline without a cache. -/
def plainPipeline : Pipeline :=
  ⟨.production, Rule.builtin, false, false, none⟩

/-- Two chunks with the same content, and one that is their output and has the path of the
first. -/
def turnChunks : List Chunk :=
  [⟨utf8 "a.js", utf8 "import(x)", [], none⟩, ⟨utf8 "b.js", utf8 "import(x)", [], none⟩,
    ⟨utf8 "a.js", utf8 "window.import(x)", [], none⟩]

/-- The chunks take turns, the last one first.  The records stand in another order then than
after a batch, and answers are the same all the same. -/
theorem schedule_irrelevant_turns :
    ∃ results calls reached,
      (plainPipeline.processBatch none turnChunks .memory).1 = .ok results ∧
      interleave [2, 1, 0, 0, 1, 2, 2, 0, 1, 1, 0, 2] (turnChunks.map plainPipeline.call)
        .memory = (calls, reached) ∧
      reached ≠ (plainPipeline.processBatch none turnChunks .memory).2 ∧
      calls.map Call.answer = results.map .ok ∧
      reached.SameAnswers (plainPipeline.processBatch none turnChunks .memory).2 := by
  obtain ⟨results, answered, -⟩ :=
    exists_ok_of_map_eq
      (show (plainPipeline.processBatch none turnChunks .memory).1.map List.length = .ok 3 by
        decide +kernel)
  have processed : plainPipeline.processBatch none turnChunks .memory =
      (.ok results, (plainPipeline.processBatch none turnChunks .memory).2) :=
    Prod.ext answered rfl
  have interleaved := (Prod.mk.eta (p := interleave [2, 1, 0, 0, 1, 2, 2, 0, 1, 1, 0, 2]
    (turnChunks.map plainPipeline.call) .memory)).symm
  obtain ⟨⟨answers, sameAnswers⟩, -⟩ :=
    schedule_irrelevant rfl rfl (by decide) (by decide +kernel) processed interleaved
      (by decide +kernel)
  exact ⟨results, _, _, answered, interleaved, by decide +kernel, answers, sameAnswers⟩

end Pipeline

end Reroute
