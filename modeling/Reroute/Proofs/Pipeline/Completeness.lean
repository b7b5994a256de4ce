import Mathlib
import Reroute.Proofs.Pipeline.Filtering
import Reroute.Proofs.Pipeline.Steps
import Reroute.Proofs.Store.Completeness

/-!
# Pipelines keep stores complete

A pipeline records a chunk before the occurrences replaced in it, and these before the
outcome.  A call can therefore end at any of its writes: what it has recorded by then refers
to nothing that is missing.  A chunk that a rule changes has an occurrence, and every
occurrence lies inside the chunk, so that it gets a record.
-/

namespace Reroute

namespace Pipeline

theorem replaced_ne_nil {pipeline : Pipeline} {content : Bytes}
    (found : occurrences pipeline.rule.pattern content ≠ []) :
    pipeline.replaced content ≠ [] := by
  obtain ⟨records, made⟩ := exists_substitutionsFrom pipeline.rule (ChunkId.ofContent content)
    (fun _ => within_of_mem_occurrences) (.start content)
  intro none
  rw [replaced, substitutions, made, Option.getD_some] at none
  apply found
  rw [← (substitutionsFrom_spec made).1, none, List.map_nil]

/-- A rule changes a chunk only if its pattern occurs there. -/
theorem occurrences_ne_nil_of_work {pipeline : Pipeline} (default : pipeline.transform = none)
    {chunk : Chunk} {result : ChunkResult} (worked : pipeline.work chunk = .ok result)
    (changed : result.changed = true) :
    occurrences pipeline.rule.pattern chunk.content ≠ [] := by
  intro silent
  have unchanged : pipeline.transformChunk chunk = .ok .unchanged := by
    rw [transformChunk, default]
    exact Rule.runWithParent_of_silent silent _ chunk.map
  rw [work, unchanged] at worked
  split at worked
  · cases worked
    cases changed
  · cases worked
    cases changed

/-! ### The order of writes -/

/-- Records of listed chunks can be written one after the other, and what comes behind them
may refer to them. -/
theorem orderly_substitutions {listed replaced : Set ChunkId} {records : List Substitution}
    {changes : List Write} (owned : ∀ record ∈ records, record.chunk ∈ listed)
    (rest : Orderly listed ({id | ∃ record ∈ records, record.chunk = id} ∪ replaced) changes) :
    Orderly listed replaced (records.map Write.substitution ++ changes) := by
  induction records generalizing replaced with
  | nil => simpa using rest
  | cons first records induction =>
      refine ⟨owned first List.mem_cons_self, induction ?_ ?_⟩
      · intro record member
        exact owned record (List.mem_cons_of_mem _ member)
      · convert rest using 1
        ext id
        simp only [Set.mem_union, Set.mem_insert_iff, Set.mem_ofPred_eq, List.mem_cons,
          exists_eq_or_imp, eq_comm (a := id)]
        rw [or_left_comm, or_assoc]

theorem change_recordings (pipeline : Pipeline) (chunk : Chunk) (result : ChunkResult) :
    (pipeline.recordings chunk result).map Recording.change =
      .chunk result.id chunk.content.length (some chunk.source) ::
        (result.substitutions.map Write.substitution ++
          .result (pipeline.storedResult chunk result) ::
            if result.changed then [.result (pipeline.outputMark result)] else []) := by
  cases changed : result.changed <;>
    simp [recordings, storedResult, outputMark, changed, Function.comp_def]

theorem orderly_recordings {pipeline : Pipeline} (default : pipeline.transform = none)
    {chunk : Chunk} {result : ChunkResult} (worked : pipeline.work chunk = .ok result)
    (listed replaced : Set ChunkId) :
    Orderly listed replaced ((pipeline.recordings chunk result).map Recording.change) := by
  have id := (names_of_work worked).2
  have substitutions := substitutions_of_work default worked
  rw [change_recordings]
  apply orderly_substitutions
  · intro record member
    rw [substitutions] at member
    split at member
    · rw [(pipeline.replaced_owned chunk.content record member).1, id]
      exact Set.mem_insert _ _
    · cases member
  · constructor
    · intro (changed : result.changed = true)
      have found := replaced_ne_nil (occurrences_ne_nil_of_work default worked changed)
      obtain ⟨record, member⟩ := List.exists_mem_of_ne_nil _ found
      refine .inl ⟨record, ?_, ?_⟩
      · rw [substitutions, if_pos changed]
        exact member
      · rw [(pipeline.replaced_owned chunk.content record member).1]
        exact id.symm
    · -- The mark of output is an outcome that is not changed.
      split
      · exact ⟨nofun, trivial⟩
      · trivial

/-! ### Calls -/

/-- Orderly writes keep a store whole, also when one of them fails. -/
theorem whole_carryOut (path : Bytes) {recordings : List Recording} {store : Store}
    {listed replaced : Set ChunkId} (holds : store.backend.Holds listed replaced)
    (orderly : Orderly listed replaced (recordings.map Recording.change)) :
    (carryOut path recordings store).2.backend.Whole := by
  induction recordings generalizing store listed replaced with
  | nil => exact holds.whole
  | cons recording recordings induction =>
      rw [carryOut]
      split
      · next written =>
          rcases Store.write_cases written with ⟨-, taken⟩ | ⟨⟨error, ⟨⟩⟩, -⟩
          obtain ⟨_, _, next, rest⟩ := holds.writeTo orderly taken
          exact induction next rest
      · next written =>
          rcases Store.write_cases written with ⟨⟨⟩, -⟩ | ⟨-, same⟩
          rw [same]
          exact holds.whole

theorem whole_workAndRecord {pipeline : Pipeline} (default : pipeline.transform = none)
    (chunk : Chunk) {store : Store} (whole : store.backend.Whole) :
    (pipeline.workAndRecord chunk store).2.backend.Whole := by
  unfold workAndRecord
  split
  · exact whole
  · next result worked =>
      have kept := whole_carryOut chunk.path whole.holds
        (orderly_recordings default worked ∅ ∅)
      split
      · next carried =>
          rw [carried] at kept
          exact kept
      · next carried =>
          rw [carried] at kept
          exact kept

theorem whole_reuse (pipeline : Pipeline) (chunk : Chunk) (stored : StoredResult) {store : Store}
    (whole : store.backend.Whole) : (pipeline.reuse chunk stored store).2.backend.Whole := by
  unfold reuse
  split
  · next written =>
      rcases Store.write_cases written with ⟨⟨⟩, -⟩ | ⟨-, same⟩
      rw [same]
      exact whole
  · next seen written =>
      rcases Store.write_cases written with ⟨-, taken⟩ | ⟨⟨error, ⟨⟩⟩, -⟩
      have kept := (whole.holds.writeTo_chunk taken).whole
      have looked := seen.backend_getSubstitutions chunk.id
      split
      · split
        · next answered =>
            rw [answered] at looked
            rw [looked]
            exact kept
        · next answered =>
            rw [answered] at looked
            rw [looked]
            exact kept
      · exact kept

theorem whole_processIncremental {pipeline : Pipeline} (default : pipeline.transform = none)
    (chunk : Chunk) {store : Store} (whole : store.backend.Whole) :
    (pipeline.processIncremental chunk store).2.backend.Whole := by
  have asked (store : Store) (id : ChunkId) (key : Bytes) (whole : store.backend.Whole) :
      (store.getResult id key).2.backend.Whole := by
    rw [store.backend_getResult]
    exact whole
  have first := asked store chunk.id (pipeline.resultKey chunk) whole
  unfold processIncremental
  split
  · next answered =>
      rw [answered] at first
      exact pipeline.whole_reuse chunk _ first
  · next next answered =>
      rw [answered] at first
      have second := asked next (outputId chunk.content) pipeline.outputKey first
      split
      · next answered =>
          rw [answered] at second
          exact second
      · next answered =>
          rw [answered] at second
          exact whole_workAndRecord default chunk second
      · next answered =>
          rw [answered] at second
          exact second
  · next answered =>
      rw [answered] at first
      exact first

/-- A call leaves a whole store whole, whether it succeeds or not. -/
theorem whole_processUnless {pipeline : Pipeline} (default : pipeline.transform = none)
    (canceled : Bool) (chunk : Chunk) {store : Store} (whole : store.backend.Whole) :
    (pipeline.processUnless canceled chunk store).2.backend.Whole := by
  unfold processUnless process
  split
  · exact whole
  · split
    · exact whole_processIncremental default chunk whole
    · exact whole_workAndRecord default chunk whole

end Pipeline

namespace Store

/-- The store comes about from another one by calls of pipelines that transform by their
rules.  Any call may be canceled, and may meet with any fault of the store. -/
inductive Processed (start : Store) : Store → Prop where
  | start : Processed start start
  | process {store : Store} (earlier : Processed start store) (fault : Option Fault)
      (canceled : Bool) {pipeline : Pipeline} (default : pipeline.transform = none)
      (chunk : Chunk) :
      Processed start (pipeline.processUnless canceled chunk { store with fault := fault }).2

theorem Processed.whole {start store : Store} (processed : Processed start store)
    (whole : start.backend.Whole) : store.backend.Whole := by
  induction processed with
  | start => exact whole
  | process earlier fault canceled default chunk induction =>
      exact Pipeline.whole_processUnless default canceled chunk induction

end Store

end Reroute
