import Mathlib
import Reroute.Proofs.Pipeline.Setup
import Reroute.Proofs.Rule.Keywords

/-!
# The keyword filter is transparent

A pipeline does not transform a chunk in which no keyword of its rule hits.  If the keywords
announce the pattern, nothing is lost by that: with the filter switched off, every chunk
gets the same answer, and the store ends up in the same state, whatever state it was in.
-/

namespace Reroute

namespace Rule

/-- Records of replaced occurrences depend on the identifier and the replacement of the
rule only. -/
theorem substitutionsFrom_congr {left right : Rule} (id : left.id = right.id)
    (replacement : left.replacement = right.replacement) (chunk : ChunkId) (text : Bytes)
    (walk : Walk) (spans : List Span) :
    substitutionsFrom left chunk text walk spans =
      substitutionsFrom right chunk text walk spans := by
  induction spans generalizing walk with
  | nil => rfl
  | cons span spans induction =>
      rw [substitutionsFrom, substitutionsFrom, induction, id, replacement]

theorem runWithParent_of_silent {rule : Rule} {code : Bytes}
    (silent : occurrences rule.pattern code = []) (options : TransformOptions)
    (parent : Bytes) : rule.runWithParent options code parent = .ok .unchanged := by
  have unchanged : rule.transform options code = .ok .unchanged := by
    rw [transform, silent]
    rfl
  rw [runWithParent, transformWithParent, unchanged]

end Rule

namespace Pipeline

/-- The pipeline with the keyword filter switched off.  A rule without keywords is a
candidate for every chunk, and keywords serve no other purpose. -/
def unfiltered (pipeline : Pipeline) : Pipeline :=
  { pipeline with rule := { pipeline.rule with keywords := [] } }

theorem mayChange_unfiltered (pipeline : Pipeline) (content : Bytes) :
    pipeline.unfiltered.mayChange content = true := by
  have candidate : Keyword.candidates [pipeline.unfiltered.rule] content ≠ [] := by
    intro silent
    exact ((Keyword.candidates_singleton_eq_nil_iff _ _).mp silent).1 rfl
  rw [mayChange, Bool.or_eq_true]
  right
  simpa using candidate

theorem resultOf_unfiltered (pipeline : Pipeline) (chunk : Chunk) (outcome : Outcome) :
    pipeline.unfiltered.resultOf chunk outcome = pipeline.resultOf chunk outcome := by
  cases outcome with
  | unchanged => rfl
  | changed code map spans =>
      have same : substitutions pipeline.unfiltered.rule chunk.id chunk.content spans =
          substitutions pipeline.rule chunk.id chunk.content spans := by
        unfold substitutions
        apply Rule.substitutionsFrom_congr
        · rfl
        · rfl
      rw [resultOf, resultOf, same]

/-- A chunk that the filter keeps from the transform would come out of it unchanged. -/
theorem transformChunk_of_filtered {pipeline : Pipeline}
    (announced : pipeline.rule.Announced)
    (proper : ∀ keyword ∈ pipeline.rule.keywords, keyword ≠ []) {chunk : Chunk}
    (filtered : pipeline.mayChange chunk.content = false) :
    pipeline.transformChunk chunk = .ok .unchanged := by
  rw [mayChange, Bool.or_eq_false_iff] at filtered
  have default : pipeline.transform = none := by simpa using filtered.1
  have silent : Keyword.candidates [pipeline.rule] chunk.content = [] := by
    simpa using filtered.2
  rw [transformChunk, default]
  exact Rule.runWithParent_of_silent (announced.occurrences_eq_nil proper silent) _ chunk.map

theorem work_unfiltered {pipeline : Pipeline} (announced : pipeline.rule.Announced)
    (proper : ∀ keyword ∈ pipeline.rule.keywords, keyword ≠ []) (chunk : Chunk) :
    pipeline.unfiltered.work chunk = pipeline.work chunk := by
  have same : pipeline.unfiltered.transformChunk chunk = pipeline.transformChunk chunk := rfl
  rw [work, if_pos (pipeline.mayChange_unfiltered chunk.content), same, work]
  cases filtered : pipeline.mayChange chunk.content with
  | true =>
      rw [if_pos rfl]
      cases pipeline.transformChunk chunk with
      | ok outcome => exact pipeline.resultOf_unfiltered chunk outcome
      | error fault => rfl
  | false =>
      rw [transformChunk_of_filtered announced proper filtered]
      rfl

theorem process_unfiltered {pipeline : Pipeline} (announced : pipeline.rule.Announced)
    (proper : ∀ keyword ∈ pipeline.rule.keywords, keyword ≠ []) (chunk : Chunk)
    (store : Store) :
    pipeline.unfiltered.process chunk store = pipeline.process chunk store := by
  have worked (store : Store) :
      pipeline.unfiltered.workAndRecord chunk store = pipeline.workAndRecord chunk store := by
    rw [workAndRecord, work_unfiltered announced proper, workAndRecord]
    rfl
  unfold process processIncremental
  simp only [worked]
  rfl

theorem announced_of_make {settings : PipelineSettings} {transform : Option Transform}
    {pipeline : Pipeline} (made : make settings transform = .ok pipeline)
    (announced : ∀ rule, settings.rule = some rule → rule.Announced) :
    pipeline.rule.Announced := by
  rcases ruleOf_cases (rule_of_make made) with ⟨-, builtin⟩ | ⟨given, present, -, complete⟩
  · rw [builtin]
    exact Rule.announced_builtin
  · rw [complete]
    exact Rule.announced_of_keywords (given.keywords_complete).symm (given.pattern_complete).symm
      (announced given present)

/-- Whatever its settings, a pipeline whose rule is announced by its keywords answers every
chunk, on every store, as it does with the filter switched off, and leaves the same store
behind.  The builtin rule is announced, and so is every rule of a document that names no
keywords. -/
theorem filter_transparent :
    (∀ settings transform pipeline, make settings transform = .ok pipeline →
      (∀ rule, settings.rule = some rule → rule.Announced) →
      (∀ content, pipeline.unfiltered.mayChange content = true) ∧
        ∀ canceled chunk store,
          pipeline.processUnless canceled chunk store =
            pipeline.unfiltered.processUnless canceled chunk store) ∧
      Rule.builtin.Announced ∧
      ∀ written : Rule, written.keywords = [] → written.finishLoaded.Announced := by
  refine ⟨?_, Rule.announced_builtin, ?_⟩
  · intro settings transform pipeline made announced
    refine ⟨pipeline.mayChange_unfiltered, ?_⟩
    intro canceled chunk store
    rw [processUnless, processUnless,
      process_unfiltered (announced_of_make made announced) (keywords_of_make made)]
  · intro written none
    exact Rule.announced_finishLoaded none

/-- A rule with two keywords, of which one is part of its pattern. -/
def loaderRule : Rule :=
  { bareRule "loader" "load(" "fetch(" with keywords := [utf8 "chunk", utf8 "load"] }

/-- A chunk without keywords, whose parent map is no map. -/
def plainChunk : Chunk :=
  ⟨utf8 "a.js", utf8 "lo(ad)", utf8 "[", none⟩

/-- The filter keeps a chunk with a malformed parent map from the transform, and with the
filter switched off the chunk comes out unchanged all the same. -/
theorem filter_transparent_plain :
    let pipeline := barePipeline loaderRule
    make (bareSettings loaderRule) none = .ok pipeline ∧
      (∀ rule, (bareSettings loaderRule).rule = some rule → rule.Announced) ∧
      pipeline.mayChange plainChunk.content = false ∧
      pipeline.unfiltered.mayChange plainChunk.content = true ∧
      (pipeline.unfiltered.processUnless false plainChunk .memory).1 =
        .ok (unchangedResult plainChunk false) := by
  intro pipeline
  have made := make_bareSettings (show loaderRule.validate = .ok () by decide +kernel)
  have announced : ∀ rule, (bareSettings loaderRule).rule = some rule → rule.Announced := by
    intro rule given
    obtain rfl : loaderRule = rule := Option.some.inj given
    decide +kernel
  obtain ⟨unhindered, same⟩ := filter_transparent.1 _ none pipeline made announced
  refine ⟨made, announced, by decide +kernel, unhindered _, ?_⟩
  rw [← same]
  decide +kernel

end Pipeline

end Reroute
