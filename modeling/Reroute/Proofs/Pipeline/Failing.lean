import Mathlib
import Reroute.Proofs.Pipeline.Steps

/-!
# Failing leaves records as they are

A chunk is worked on before anything is written, and a store in memory carries out every
write.  A chunk that fails therefore leaves such a store as it was.  A batch ends with the
first chunk that fails, and the store is then the one that the chunks before it left.

A batch can also be seen as handing all its chunks over, of which those behind a failure find
processing canceled.  Both views come to the same.
-/

namespace Reroute

namespace Pipeline

theorem process_ofRecords_error {pipeline : Pipeline} {chunk : Chunk} {records : MemoryStore}
    {error : Error} {store : Store}
    (failed : pipeline.process chunk (.ofRecords records) = (.error error, store)) :
    store = .ofRecords records := by
  have worked (answered : pipeline.workAndRecord chunk (.ofRecords records) =
      (.error error, store)) : store = .ofRecords records := by
    rw [workAndRecord_ofRecords] at answered
    split at answered
    · cases answered
      rfl
    · cases answered
  cases incremental : pipeline.incremental with
  | false =>
      rw [process, incremental, if_neg Bool.false_ne_true] at failed
      exact worked failed
  | true =>
      rw [process_ofRecords incremental] at failed
      split at failed
      · cases failed
      · split at failed
        · cases failed
        · rw [← workAndRecord_ofRecords] at failed
          exact worked failed

theorem processUnless_ofRecords_error {pipeline : Pipeline} {canceled : Bool} {chunk : Chunk}
    {records : MemoryStore} {error : Error} {store : Store}
    (failed : pipeline.processUnless canceled chunk (.ofRecords records) =
      (.error error, store)) :
    store = .ofRecords records := by
  unfold processUnless at failed
  split at failed
  · cases failed
    rfl
  · exact process_ofRecords_error failed

theorem exists_ofRecords_of_process (pipeline : Pipeline) (chunk : Chunk)
    (records : MemoryStore) :
    ∃ after, (pipeline.process chunk (.ofRecords records)).2 = .ofRecords after := by
  have worked : ∃ after,
      (pipeline.workAndRecord chunk (.ofRecords records)).2 = .ofRecords after := by
    rw [workAndRecord_ofRecords]
    split
    · exact ⟨_, rfl⟩
    · exact ⟨_, rfl⟩
  cases incremental : pipeline.incremental with
  | false =>
      rw [process, incremental, if_neg Bool.false_ne_true]
      exact worked
  | true =>
      rw [process_ofRecords incremental]
      split
      · exact ⟨_, rfl⟩
      · split
        · exact ⟨_, rfl⟩
        · rw [← workAndRecord_ofRecords]
          exact worked

theorem carryOut_error {path : Bytes} {recordings : List Recording} {store : Store}
    {error : Error} (failed : (carryOut path recordings store).1 = .error error) :
    ∃ purpose cause, error = .record purpose path cause := by
  induction recordings generalizing store with
  | nil => cases failed
  | cons recording recordings induction =>
      rw [carryOut] at failed
      split at failed
      · exact induction failed
      · cases failed
        exact ⟨_, _, rfl⟩

/-- A pipeline that transforms by its rule does not break down. -/
theorem process_ne_breakdown {pipeline : Pipeline} (default : pipeline.transform = none)
    (chunk : Chunk) (store : Store) (message : Bytes) :
    (pipeline.process chunk store).1 ≠ .error (.breakdown message) := by
  have worked (store : Store) :
      (pipeline.workAndRecord chunk store).1 ≠ .error (.breakdown message) := by
    intro broken
    unfold workAndRecord at broken
    split at broken
    · next error found =>
        rw [Except.error.inj broken] at found
        exact work_ne_breakdown default chunk message found
    · split at broken
      · cases broken
      · next carried =>
          obtain ⟨purpose, cause, same⟩ := carryOut_error (congrArg Prod.fst carried)
          rw [same] at broken
          cases broken
  intro broken
  unfold process at broken
  split at broken
  · unfold processIncremental reuse at broken
    split at broken
    · split at broken
      · cases broken
      · split at broken
        · split at broken
          · cases broken
          · cases broken
        · cases broken
    · split at broken
      · cases broken
      · exact worked _ broken
      · cases broken
    · cases broken
  · exact worked _ broken

/-! ### Batches -/

section

variable (pipeline : Pipeline)

/-- The store after chunks were processed one after the other. -/
def storeAfter (cancelAt : Option Nat) : List Chunk → Store → Store
  | [], store => store
  | chunk :: chunks, store =>
      storeAfter (cancelAt.map Nat.pred) chunks
        (pipeline.processUnless (cancelAt == some 0) chunk store).2

/-- The chunks before succeed one after the other, each on the store that the one before it
left, and then a chunk fails. -/
inductive FirstFailure : Option Nat → Store → List Chunk → Chunk → Error → Prop where
  | here {cancelAt : Option Nat} {store : Store} {chunk : Chunk} {error : Error} :
      (pipeline.processUnless (cancelAt == some 0) chunk store).1 = .error error →
      FirstFailure cancelAt store [] chunk error
  | later {cancelAt : Option Nat} {store next : Store} {first chunk : Chunk}
      {before : List Chunk} {result : ChunkResult} {error : Error} :
      pipeline.processUnless (cancelAt == some 0) first store = (.ok result, next) →
      FirstFailure (cancelAt.map Nat.pred) next before chunk error →
      FirstFailure cancelAt store (first :: before) chunk error

/-- How a batch stands: when it is canceled, the first failure, the results, and the store. -/
structure Standing where
  cancelAt : Option Nat
  failure : Option Error
  results : List ChunkResult
  store : Store

/-- Hand one more chunk over.  Behind a failure, processing is canceled. -/
def Standing.next (standing : Standing) (chunk : Chunk) : Standing :=
  let later := standing.cancelAt.map Nat.pred
  match pipeline.processUnless (standing.cancelAt == some 0 || standing.failure.isSome) chunk
      standing.store with
  | (.ok result, store) => ⟨later, standing.failure, standing.results ++ [result], store⟩
  | (.error error, store) =>
      ⟨later, standing.failure.or (some error), standing.results, store⟩

def Standing.answer (standing : Standing) : Except Error (List ChunkResult) × Store :=
  match standing.failure with
  | none => (.ok standing.results, standing.store)
  | some error => (.error error, standing.store)

/-- Hand every chunk over, also behind a failure, and answer with the first failure. -/
def processGroup (cancelAt : Option Nat) (chunks : List Chunk) (store : Store) :
    Except Error (List ChunkResult) × Store :=
  (chunks.foldl (Standing.next pipeline) ⟨cancelAt, none, [], store⟩).answer

theorem exists_ofRecords_of_storeAfter (cancelAt : Option Nat) (chunks : List Chunk)
    (records : MemoryStore) :
    ∃ after, storeAfter pipeline cancelAt chunks (.ofRecords records) = .ofRecords after := by
  induction chunks generalizing cancelAt records with
  | nil => exact ⟨records, rfl⟩
  | cons chunk chunks induction =>
      have processed : ∃ between,
          (pipeline.processUnless (cancelAt == some 0) chunk (.ofRecords records)).2 =
            .ofRecords between := by
        unfold processUnless
        split
        · exact ⟨records, rfl⟩
        · exact exists_ofRecords_of_process pipeline chunk records
      obtain ⟨between, stored⟩ := processed
      rw [storeAfter, stored]
      exact induction _ between

variable {pipeline}

theorem Standing.answer_foldl_of_failure {standing : Standing} {error : Error}
    (failure : standing.failure = some error) (chunks : List Chunk) :
    (chunks.foldl (next pipeline) standing).answer = (.error error, standing.store) := by
  induction chunks generalizing standing with
  | nil => rw [List.foldl_nil, answer, failure]
  | cons chunk chunks induction =>
      have canceled : standing.next pipeline chunk =
          { standing with cancelAt := standing.cancelAt.map Nat.pred } := by
        simp [next, processUnless, failure]
      rw [List.foldl_cons, canceled]
      exact induction failure

theorem answer_foldl_next (cancelAt : Option Nat) (done : List ChunkResult)
    (chunks : List Chunk) (store : Store) :
    (chunks.foldl (Standing.next pipeline) ⟨cancelAt, none, done, store⟩).answer =
      ((pipeline.processBatch cancelAt chunks store).1.map (done ++ ·),
        (pipeline.processBatch cancelAt chunks store).2) := by
  induction chunks generalizing cancelAt done store with
  | nil => simp [Standing.answer, processBatch, Except.map]
  | cons chunk chunks induction =>
      rw [List.foldl_cons, Standing.next, processBatch]
      simp only [Option.isSome_none, Bool.or_false, Option.none_or]
      cases pipeline.processUnless (cancelAt == some 0) chunk store with
      | mk answer after =>
          cases answer with
          | error error =>
              rw [Standing.answer_foldl_of_failure rfl]
              rfl
          | ok result =>
              rw [induction]
              dsimp only
              cases pipeline.processBatch (cancelAt.map Nat.pred) chunks after with
              | mk answers last =>
                  cases answers with
                  | error error => rfl
                  | ok results => simp [Except.map]

theorem processGroup_eq (cancelAt : Option Nat) (chunks : List Chunk) (store : Store) :
    processGroup pipeline cancelAt chunks store = pipeline.processBatch cancelAt chunks store := by
  rw [processGroup, answer_foldl_next]
  cases pipeline.processBatch cancelAt chunks store with
  | mk answers last =>
      cases answers with
      | error error => rfl
      | ok results => rfl

variable {cancelAt : Option Nat} {store : Store} {before : List Chunk} {chunk : Chunk}
  {error : Error}

/-- The batch answers with the failure, and leaves the store that the chunk which failed left. -/
theorem FirstFailure.processBatch
    (failure : FirstFailure pipeline cancelAt store before chunk error) (after : List Chunk) :
    ∃ canceled,
      (pipeline.processUnless canceled chunk (storeAfter pipeline cancelAt before store)).1 =
        .error error ∧
      pipeline.processBatch cancelAt (before ++ chunk :: after) store =
        (.error error,
          (pipeline.processUnless canceled chunk
            (storeAfter pipeline cancelAt before store)).2) := by
  induction failure with
  | @here cancelAt store chunk error failed =>
      have answered : pipeline.processUnless (cancelAt == some 0) chunk store =
          (.error error, (pipeline.processUnless (cancelAt == some 0) chunk store).2) :=
        Prod.ext failed rfl
      refine ⟨_, failed, ?_⟩
      rw [List.nil_append, Pipeline.processBatch, answered]
      rfl
  | later succeeded _ induction =>
      obtain ⟨canceled, failed, batch⟩ := induction
      rw [storeAfter, succeeded]
      refine ⟨canceled, failed, ?_⟩
      rw [List.cons_append, Pipeline.processBatch, succeeded]
      simp only [batch]

/-- On a store in memory, the chunk that fails adds nothing to what the chunks before it
left. -/
theorem FirstFailure.processBatch_ofRecords {records : MemoryStore}
    (failure : FirstFailure pipeline cancelAt (.ofRecords records) before chunk error)
    (after : List Chunk) :
    pipeline.processBatch cancelAt (before ++ chunk :: after) (.ofRecords records) =
      (.error error, storeAfter pipeline cancelAt before (.ofRecords records)) := by
  obtain ⟨reached, stored⟩ := exists_ofRecords_of_storeAfter pipeline cancelAt before records
  obtain ⟨canceled, failed, batch⟩ := failure.processBatch after
  rw [batch, stored]
  rw [stored] at failed
  have kept : (pipeline.processUnless canceled chunk (.ofRecords reached)).2 =
      .ofRecords reached :=
    processUnless_ofRecords_error (Prod.ext failed rfl)
  rw [kept]

end

end Pipeline

end Reroute
