import Mathlib
import Reroute.Proofs.Pipeline.Transparency
import Reroute.Proofs.Store.Serving

/-!
# Output that comes back

An incremental pipeline looks a chunk up twice: first for an outcome stored for the chunk
itself, and then for a mark that it is output.  Every changed answer leaves a mark, so a
chunk that agrees with the code of such an answer, up to the comment that names its map, is
answered from the store.  It is left as it is unless the pipeline was asked for the same
chunk before and changed it then: the outcome stored at that time comes first and is given
again, although the chunk is output by now.

Nothing is assumed of digests here, and the store may be in memory or in a file.
-/

namespace Reroute

namespace Pipeline

variable {pipeline : Pipeline} {store : Store} {chunk : Chunk}

/-! ### What is done with one chunk -/

/-- The outcomes after a result was recorded. -/
def recordedOutcomes (pipeline : Pipeline) (chunk : Chunk) (result : ChunkResult)
    (outcomes : Outcomes) : Outcomes := fun id key =>
  if result.changed = true ∧ outputId result.code = id ∧ pipeline.outputKey = key then
    some (false, [])
  else if result.id = id ∧ pipeline.resultKey chunk = key then
    some (result.changed, result.code)
  else outcomes id key

theorem foldl_write_recordings (pipeline : Pipeline) (chunk : Chunk) (result : ChunkResult)
    (outcomes : Outcomes) :
    (pipeline.recordings chunk result).foldl
        (fun outcomes recording => outcomes.write recording.change) outcomes =
      pipeline.recordedOutcomes chunk result outcomes := by
  have skipped (records : List Substitution) (outcomes : Outcomes) :
      (records.map fun record => (⟨.substitution, .substitution record⟩ : Recording)).foldl
        (fun outcomes recording => outcomes.write recording.change) outcomes = outcomes := by
    induction records with
    | nil => rfl
    | cons record records induction => exact induction
  funext id key
  unfold recordings recordedOutcomes
  simp only [List.foldl_append, skipped]
  cases result.changed with
  | false => simp [Outcomes.write]
  | true => simp [Outcomes.write]

theorem carryOut_serves (serves : store.Serves) (path : Bytes) (recordings : List Recording) :
    ∃ after, carryOut path recordings store = (.ok (), after) ∧ after.Serves ∧
      after.outcomes =
        recordings.foldl (fun outcomes recording => outcomes.write recording.change)
          store.outcomes := by
  induction recordings generalizing store with
  | nil => exact ⟨store, rfl, serves, rfl⟩
  | cons recording recordings induction =>
      obtain ⟨between, written, betweenServes, betweenOutcomes⟩ := serves.write recording.change
      obtain ⟨after, carried, afterServes, afterOutcomes⟩ := induction betweenServes
      refine ⟨after, ?_, afterServes, ?_⟩
      · rw [carryOut, written]
        exact carried
      · rw [afterOutcomes, betweenOutcomes]
        rfl

/-- The ways in which a chunk is answered from a store, with the outcomes that the store
holds afterwards. -/
inductive Handled (pipeline : Pipeline) (outcomes : Outcomes) (chunk : Chunk) :
    Except Error ChunkResult → Outcomes → Prop where
  | reused {result : ChunkResult} :
      outcomes chunk.id (pipeline.resultKey chunk) = some (result.changed, result.code) →
      result.cached = true →
      Handled pipeline outcomes chunk (.ok result) outcomes
  | recognized :
      outcomes chunk.id (pipeline.resultKey chunk) = none →
      Handled pipeline outcomes chunk (.ok (unchangedResult chunk true)) outcomes
  | failed {error : Error} :
      outcomes (outputId chunk.content) pipeline.outputKey = none →
      Handled pipeline outcomes chunk (.error error) outcomes
  | worked {result : ChunkResult} :
      outcomes chunk.id (pipeline.resultKey chunk) = none →
      outcomes (outputId chunk.content) pipeline.outputKey = none →
      result.id = chunk.id →
      Handled pipeline outcomes chunk (.ok result)
        (pipeline.recordedOutcomes chunk result outcomes)

theorem reuse_serves (serves : store.Serves) (pipeline : Pipeline) (chunk : Chunk)
    (stored : StoredResult) :
    ∃ result after, pipeline.reuse chunk stored store = (.ok result, after) ∧
      after.Serves ∧ after.outcomes = store.outcomes ∧ result.changed = stored.changed ∧
      result.code = stored.code ∧ result.cached = true := by
  obtain ⟨after, written, afterServes, afterOutcomes⟩ :=
    serves.write (.chunk chunk.id chunk.content.length (some chunk.source))
  obtain ⟨records, loaded⟩ := afterServes.getSubstitutions chunk.id
  unfold reuse
  simp only [written, loaded]
  cases changed : stored.changed with
  | false => exact ⟨_, after, rfl, afterServes, afterOutcomes, changed, rfl, rfl⟩
  | true => exact ⟨_, after, rfl, afterServes, afterOutcomes, changed, rfl, rfl⟩

/-- An incremental pipeline handles a chunk in one of these ways, and the store goes on
serving. -/
theorem process_serves (incremental : pipeline.incremental = true) (serves : store.Serves)
    (chunk : Chunk) :
    ∃ answer after, pipeline.process chunk store = (answer, after) ∧ after.Serves ∧
      Handled pipeline store.outcomes chunk answer after.outcomes := by
  unfold process processIncremental
  rw [if_pos incremental]
  rcases serves.getResult chunk.id (pipeline.resultKey chunk) with
    ⟨missing, unknown⟩ | ⟨stored, found, known⟩
  · simp only [missing]
    rcases serves.getResult (outputId chunk.content) pipeline.outputKey with
      ⟨unmarked, noMark⟩ | ⟨mark, marked, -⟩
    · simp only [unmarked]
      unfold workAndRecord
      cases worked : pipeline.work chunk with
      | error error => exact ⟨_, store, rfl, serves, .failed noMark⟩
      | ok result =>
          obtain ⟨after, carried, afterServes, afterOutcomes⟩ :=
            carryOut_serves serves chunk.path (pipeline.recordings chunk result)
          simp only [carried]
          refine ⟨_, after, rfl, afterServes, ?_⟩
          rw [afterOutcomes, foldl_write_recordings]
          exact .worked unknown noMark (names_of_work worked).2
    · simp only [marked]
      exact ⟨_, store, rfl, serves, .recognized unknown⟩
  · simp only [found]
    obtain ⟨result, after, reused, afterServes, afterOutcomes, changed, code, cached⟩ :=
      reuse_serves serves pipeline chunk stored
    refine ⟨_, after, reused, afterServes, ?_⟩
    rw [afterOutcomes]
    exact .reused (by rw [known, changed, code]) cached

/-! ### What is done with chunks one after the other -/

/-- The outcomes that a store holds are those of the answers so far, and every changed
answer has left its outcome and its mark. -/
structure History (pipeline : Pipeline) (outcomes : Outcomes)
    (answered : List (Chunk × Except Error ChunkResult)) : Prop where
  given : ∀ {chunk : Chunk} {outcome : Bool × Bytes},
    outcomes chunk.id (pipeline.resultKey chunk) = some outcome →
    ∃ earlier result, (earlier, .ok result) ∈ answered ∧ earlier.id = chunk.id ∧
      pipeline.resultKey earlier = pipeline.resultKey chunk ∧
      (result.changed, result.code) = outcome
  kept : ∀ {earlier : Chunk} {result : ChunkResult}, (earlier, .ok result) ∈ answered →
    result.changed = true →
    outcomes earlier.id (pipeline.resultKey earlier) = some (true, result.code)
  marked : ∀ {earlier : Chunk} {result : ChunkResult}, (earlier, .ok result) ∈ answered →
    result.changed = true →
    (outcomes (outputId result.code) pipeline.outputKey).isSome = true

namespace History

variable {outcomes next : Outcomes} {answered : List (Chunk × Except Error ChunkResult)}
  {answer : Except Error ChunkResult}

/-- An answer that is not changed and stores nothing adds nothing to account for. -/
theorem append_of_unchanged (history : History pipeline outcomes answered)
    (unchanged : ∀ result, answer = .ok result → result.changed = false) :
    History pipeline outcomes (answered ++ [(chunk, answer)]) where
  given := by
    intro other outcome found
    obtain ⟨earlier, result, member, facts⟩ := history.given found
    exact ⟨earlier, result, List.mem_append_left _ member, facts⟩
  kept := by
    intro earlier result member changed
    rcases List.mem_append.mp member with before | last
    · exact history.kept before changed
    · cases List.mem_singleton.mp last
      rw [unchanged result rfl] at changed
      cases changed
  marked := by
    intro earlier result member changed
    rcases List.mem_append.mp member with before | last
    · exact history.marked before changed
    · cases List.mem_singleton.mp last
      rw [unchanged result rfl] at changed
      cases changed

theorem append_of_reused (history : History pipeline outcomes answered) {result : ChunkResult}
    (found : outcomes chunk.id (pipeline.resultKey chunk) = some (result.changed, result.code)) :
    History pipeline outcomes (answered ++ [(chunk, .ok result)]) where
  given := by
    intro other outcome otherFound
    obtain ⟨earlier, old, member, facts⟩ := history.given otherFound
    exact ⟨earlier, old, List.mem_append_left _ member, facts⟩
  kept := by
    intro earlier old member changed
    rcases List.mem_append.mp member with before | last
    · exact history.kept before changed
    · cases List.mem_singleton.mp last
      rw [found, changed]
  marked := by
    intro earlier old member changed
    rcases List.mem_append.mp member with before | last
    · exact history.marked before changed
    · cases List.mem_singleton.mp last
      -- The outcome was stored for an earlier answer, which left the mark.
      obtain ⟨first, firstResult, firstMember, -, -, same⟩ := history.given found
      rw [Prod.mk.injEq] at same
      rw [← same.2]
      exact history.marked firstMember (same.1.trans changed)

theorem append_of_worked (history : History pipeline outcomes answered) {result : ChunkResult}
    (unknown : outcomes chunk.id (pipeline.resultKey chunk) = none)
    (own : result.id = chunk.id) :
    History pipeline (pipeline.recordedOutcomes chunk result outcomes)
      (answered ++ [(chunk, .ok result)]) where
  given := by
    intro other outcome found
    unfold recordedOutcomes at found
    rw [if_neg fun mark => resultKey_ne_outputKey pipeline other mark.2.2.symm] at found
    split at found
    · next same =>
        exact ⟨chunk, result, by simp, own.symm.trans same.1, same.2, Option.some.inj found⟩
    · obtain ⟨earlier, old, member, facts⟩ := history.given found
      exact ⟨earlier, old, List.mem_append_left _ member, facts⟩
  kept := by
    intro earlier old member changed
    unfold recordedOutcomes
    rw [if_neg fun mark => resultKey_ne_outputKey pipeline earlier mark.2.2.symm]
    rcases List.mem_append.mp member with before | last
    · have kept := history.kept before changed
      rw [if_neg, kept]
      rintro ⟨sameId, sameKey⟩
      rw [← own, sameId, sameKey, kept] at unknown
      cases unknown
    · cases List.mem_singleton.mp last
      rw [if_pos ⟨own, rfl⟩, changed]
  marked := by
    intro earlier old member changed
    unfold recordedOutcomes
    split
    · rfl
    · next unmarked =>
        rw [if_neg fun same => resultKey_ne_outputKey pipeline chunk same.2]
        rcases List.mem_append.mp member with before | last
        · exact history.marked before changed
        · cases List.mem_singleton.mp last
          exact absurd ⟨changed, rfl, rfl⟩ unmarked

/-- The history goes on, whatever is done with a chunk. -/
theorem append (history : History pipeline outcomes answered)
    (handled : Handled pipeline outcomes chunk answer next) :
    History pipeline next (answered ++ [(chunk, answer)]) := by
  cases handled with
  | reused found cached => exact history.append_of_reused found
  | recognized unknown =>
      refine history.append_of_unchanged ?_
      intro result same
      cases same
      rfl
  | failed noMark =>
      refine history.append_of_unchanged ?_
      intro result same
      cases same
  | worked unknown noMark own => exact history.append_of_worked unknown own

theorem answers_split (history : History pipeline store.outcomes answered)
    (incremental : pipeline.incremental = true) (serves : store.Serves) {chunks : List Chunk}
    {before after : List (Chunk × Except Error ChunkResult)}
    (split : pipeline.answers chunks store = before ++ (chunk, answer) :: after) :
    ∃ reached next, History pipeline reached (answered ++ before) ∧
      Handled pipeline reached chunk answer next := by
  induction chunks generalizing store answered before with
  | nil => simp [answers] at split
  | cons first chunks induction =>
      obtain ⟨firstAnswer, between, processed, betweenServes, handled⟩ :=
        process_serves incremental serves first
      rw [answers, processed] at split
      cases before with
      | nil =>
          rw [List.nil_append, List.cons.injEq, Prod.mk.injEq] at split
          obtain ⟨⟨rfl, rfl⟩, -⟩ := split
          exact ⟨store.outcomes, between.outcomes, by simpa using history, handled⟩
      | cons head before =>
          rw [List.cons_append, List.cons.injEq] at split
          obtain ⟨rfl, rest⟩ := split
          obtain ⟨reached, next, reachedHistory, reachedHandled⟩ :=
            induction (history.append handled) betweenServes rest
          exact ⟨reached, next, by simpa using reachedHistory, reachedHandled⟩

end History

/-- A chunk that agrees with earlier output is answered from the store.  It is left as it
is, unless an earlier chunk with the same identifier and key was changed. -/
theorem output_recognized (incremental : pipeline.incremental = true) (fresh : store.Fresh)
    {chunks : List Chunk}
    {before after : List (Chunk × Except Error ChunkResult)} {answer : Except Error ChunkResult}
    (split : pipeline.answers chunks store = before ++ (chunk, answer) :: after)
    {earlier : Chunk} {output : ChunkResult} (member : (earlier, .ok output) ∈ before)
    (changed : output.changed = true)
    (stripped : Comment.strip output.code = Comment.strip chunk.content) :
    ∃ result, answer = .ok result ∧ result.cached = true ∧
      (result.changed = true ↔
        ∃ same old, (same, .ok old) ∈ before ∧ old.changed = true ∧ same.id = chunk.id ∧
          pipeline.resultKey same = pipeline.resultKey chunk) := by
  have start : History pipeline store.outcomes [] :=
    ⟨fun found => by simp [fresh.empty] at found, by simp, by simp⟩
  obtain ⟨outcomes, next, history, handled⟩ :=
    start.answers_split incremental fresh.serves split
  rw [List.nil_append] at history
  have marked := history.marked member changed
  have sameOutput : outputId output.code = outputId chunk.content :=
    congrArg ChunkId.ofContent stripped
  rw [sameOutput] at marked
  cases handled with
  | @reused result found cached =>
      refine ⟨result, rfl, cached, ?_⟩
      constructor
      · intro resultChanged
        obtain ⟨same, old, oldMember, sameId, sameKey, outcome⟩ := history.given found
        rw [Prod.mk.injEq] at outcome
        exact ⟨same, old, oldMember, outcome.1.trans resultChanged, sameId, sameKey⟩
      · rintro ⟨same, old, oldMember, oldChanged, sameId, sameKey⟩
        have kept := history.kept oldMember oldChanged
        rw [sameId, sameKey, found, Option.some.injEq, Prod.mk.injEq] at kept
        exact kept.1
  | recognized unknown =>
      refine ⟨_, rfl, rfl, ?_⟩
      constructor
      · intro impossible
        cases impossible
      · rintro ⟨same, old, oldMember, oldChanged, sameId, sameKey⟩
        have kept := history.kept oldMember oldChanged
        rw [sameId, sameKey, unknown] at kept
        cases kept
  | failed noMark =>
      rw [noMark] at marked
      cases marked
  | worked unknown noMark own =>
      rw [noMark] at marked
      cases marked

/-- A pipeline as `incrementalSettings` makes it. -/
def incrementalPipeline : Pipeline :=
  ⟨.production, Rule.builtin, true, false, none⟩

/-- The output of a call comes back under another name and with a comment. -/
theorem output_recognized_called :
    ∃ result,
      (incrementalPipeline.answers [callChunk, calledChunk] .memory).getLast? =
        some (calledChunk, .ok result) ∧
      result.cached = true ∧ result.changed = false := by
  obtain ⟨output, answered, viewed⟩ :=
    exists_ok_of_map_eq
      (show ((incrementalPipeline.process callChunk .memory).1.map fun output =>
          (output.changed, Comment.strip output.code)) =
            .ok (true, Comment.strip calledChunk.content) by decide +kernel)
  rw [Prod.mk.injEq] at viewed
  obtain ⟨result, resultAnswered, cached, changed⟩ :=
    output_recognized rfl Store.fresh_memory
      (show incrementalPipeline.answers [callChunk, calledChunk] .memory =
        [(callChunk, (incrementalPipeline.process callChunk .memory).1)] ++ _ :: [] from rfl)
      (by rw [answered]; exact List.mem_singleton_self _) viewed.1 viewed.2
  refine ⟨result, ?_, cached, ?_⟩
  · rw [← resultAnswered]
    rfl
  · rw [Bool.eq_false_iff, Ne, changed]
    rintro ⟨same, old, member, -, sameId, -⟩
    obtain rfl : same = callChunk := (Prod.mk.inj (List.mem_singleton.mp member)).1
    exact absurd sameId (by decide +kernel)

/-- A chunk that looks like the output of another one. -/
def lookalikeChunk : Chunk :=
  ⟨utf8 "b.js", utf8 "window.import(x)", [], none⟩

/-- A chunk that is output by now is changed again when it was changed before it became
output. -/
theorem output_changed_again :
    ∃ before result,
      make incrementalSettings none = .ok incrementalPipeline ∧
      incrementalPipeline.answers [lookalikeChunk, callChunk, lookalikeChunk] .memory =
        before ++ [(lookalikeChunk, .ok result)] ∧
      (∃ earlier output, (earlier, .ok output) ∈ before ∧ output.changed = true ∧
        Comment.strip output.code = Comment.strip lookalikeChunk.content) ∧
      result.changed = true := by
  let first := incrementalPipeline.process lookalikeChunk .memory
  let second := incrementalPipeline.process callChunk first.2
  let third := incrementalPipeline.process lookalikeChunk second.2
  have parsed : Mode.parse [] = .ok .production := by decide +kernel
  obtain ⟨output, outputAnswered, viewed⟩ :=
    exists_ok_of_map_eq
      (show (second.1.map fun output => (output.changed, Comment.strip output.code)) =
        .ok (true, Comment.strip lookalikeChunk.content) by decide +kernel)
  obtain ⟨result, resultAnswered, resultChanged⟩ :=
    exists_ok_of_map_eq (show third.1.map ChunkResult.changed = .ok true by decide +kernel)
  rw [Prod.mk.injEq] at viewed
  refine ⟨[(lookalikeChunk, first.1), (callChunk, second.1)], result, ?_, ?_, ?_, resultChanged⟩
  · rw [make, incrementalSettings, parsed]
    rfl
  · rw [← resultAnswered]
    rfl
  · refine ⟨callChunk, output, ?_, viewed⟩
    rw [outputAnswered]
    exact List.mem_cons_of_mem _ (List.mem_singleton_self _)

end Pipeline

end Reroute
