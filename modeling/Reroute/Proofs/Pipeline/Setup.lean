import Mathlib
import Reroute.Proofs.Pipeline.Steps

/-!
# What a pipeline is set up with

A pipeline is only made with a rule that passed its check, or with the builtin one.  Its
rule has no empty keyword, and its structural identifier is the digest of its pattern and
its replacement.
-/

namespace Reroute

namespace Rule

@[simp] theorem pattern_complete (rule : Rule) : rule.complete.pattern = rule.pattern := by
  unfold complete
  split <;> rfl

@[simp] theorem replacement_complete (rule : Rule) :
    rule.complete.replacement = rule.replacement := by
  unfold complete
  split <;> rfl

@[simp] theorem keywords_complete (rule : Rule) : rule.complete.keywords = rule.keywords := by
  unfold complete
  split <;> rfl

/-- The digest depends on pattern and replacement only. -/
theorem computeStructuralId_congr {left right : Rule} (pattern : left.pattern = right.pattern)
    (replacement : left.replacement = right.replacement) :
    left.computeStructuralId = right.computeStructuralId := by
  rw [computeStructuralId, computeStructuralId, pattern, replacement]

theorem of_validate {rule : Rule} (valid : rule.validate = .ok ()) :
    (∀ keyword ∈ rule.keywords, keyword ≠ []) ∧
      (rule.structuralId = [] ∨ rule.structuralId = rule.computeStructuralId) := by
  unfold validate at valid
  split_ifs at valid with noId noName noPattern noReplacement lines same keyword
  split at valid
  · cases valid
  · split at valid
    · cases valid
    · simp only at valid
      split_ifs at valid with identifier
      constructor
      · intro word member
        rintro rfl
        exact keyword (List.any_eq_true.mpr ⟨[], member, rfl⟩)
      · simpa using identifier

theorem structuralId_complete {rule : Rule}
    (consistent : rule.structuralId = [] ∨ rule.structuralId = rule.computeStructuralId) :
    rule.complete.structuralId = rule.complete.computeStructuralId := by
  rw [computeStructuralId_congr (pattern_complete rule) (replacement_complete rule)]
  unfold complete
  split
  · rfl
  · next given =>
      apply consistent.resolve_left
      intro empty
      exact given (List.isEmpty_iff.mpr empty)

end Rule

namespace Pipeline

/-- The rule of a pipeline is the builtin one, or the given one, which passed its check. -/
theorem ruleOf_cases {settings : PipelineSettings} {rule : Rule}
    (found : ruleOf settings = .ok rule) :
    (settings.rule = none ∧ rule = Rule.builtin) ∨
      ∃ given, settings.rule = some given ∧ given.validate = .ok () ∧ rule = given.complete := by
  unfold ruleOf at found
  split at found
  · next absent =>
      cases found
      exact .inl ⟨absent, rfl⟩
  · next given present =>
      split at found
      · cases found
      · next valid =>
          cases found
          exact .inr ⟨given, present, valid, rfl⟩

theorem rule_of_make {settings : PipelineSettings} {transform : Option Transform}
    {pipeline : Pipeline} (made : make settings transform = .ok pipeline) :
    ruleOf settings = .ok pipeline.rule := by
  obtain ⟨mode, rule, -, found, rfl⟩ := make_spec made
  exact found

theorem keywords_of_make {settings : PipelineSettings} {transform : Option Transform}
    {pipeline : Pipeline} (made : make settings transform = .ok pipeline) :
    ∀ keyword ∈ pipeline.rule.keywords, keyword ≠ [] := by
  rcases ruleOf_cases (rule_of_make made) with ⟨-, builtin⟩ | ⟨given, -, valid, complete⟩
  · rw [builtin]
    decide
  · rw [complete, Rule.keywords_complete]
    exact (Rule.of_validate valid).1

theorem structuralId_of_make {settings : PipelineSettings} {transform : Option Transform}
    {pipeline : Pipeline} (made : make settings transform = .ok pipeline) :
    pipeline.rule.structuralId = pipeline.rule.computeStructuralId := by
  rcases ruleOf_cases (rule_of_make made) with ⟨-, builtin⟩ | ⟨given, -, valid, complete⟩
  · rw [builtin]
    exact Rule.structuralId_complete (.inl rfl)
  · rw [complete]
    exact Rule.structuralId_complete (Rule.of_validate valid).2

/-! ### Pipelines with a given rule -/

/-- A rule with nothing but what it needs. -/
def bareRule (id pattern replacement : String) : Rule :=
  { id := utf8 id, name := utf8 id, pattern := utf8 pattern, replacement := utf8 replacement
    structuralId := [], description := [], examples := [], negativeExamples := []
    references := [], keywords := [] }

def bareSettings (rule : Rule) : PipelineSettings :=
  { mode := [], incremental := true, sourcesContent := some true, rule := some rule }

def barePipeline (rule : Rule) : Pipeline :=
  { mode := .production, rule := rule.complete, incremental := true, includeContent := true
    transform := none }

theorem make_bareSettings {rule : Rule} (valid : rule.validate = .ok ()) :
    make (bareSettings rule) none = .ok (barePipeline rule) := by
  have parsed : Mode.parse [] = .ok .production := by decide +kernel
  rw [make, bareSettings, parsed]
  simp only [ruleOf, valid]
  rfl

end Pipeline

end Reroute
