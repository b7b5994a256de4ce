import Mathlib
import Reroute.Proofs.Pipeline.Ledger
import Reroute.Proofs.Pipeline.Setup

/-!
# What keys tell apart

The key of an outcome is the digest of four texts with a zero byte between them, the first of
which is itself the digest of a pattern and a replacement with a zero byte between them.  As
far as digests tell these messages apart, equal keys mean equal messages, and the fields of
equal messages are the same if their patterns, and likewise their paths, have equally many
zero bytes.

Without that condition a zero byte can move from one field to the next: patterns and paths may
contain any bytes, and two rules, or two chunks, can then share their key.
-/

namespace Reroute

namespace Rule

/-- The message whose digest is the structural identifier. -/
def structuralMessage (rule : Rule) : Bytes :=
  rule.pattern ++ 0 :: rule.replacement

theorem fields_of_structuralMessage {left right : Rule}
    (counts : left.pattern.count 0 = right.pattern.count 0)
    (equality : left.structuralMessage = right.structuralMessage) :
    left.pattern = right.pattern ∧ left.replacement = right.replacement :=
  Bytes.cut_at_counted counts equality

/-- A transform depends on the pattern and the replacement of a rule only. -/
theorem transformWithParent_congr {left right : Rule} (pattern : left.pattern = right.pattern)
    (replacement : left.replacement = right.replacement) (options : TransformOptions)
    (code parent : Bytes) :
    left.transformWithParent options code parent =
      right.transformWithParent options code parent := by
  unfold transformWithParent transform edit
  rw [pattern, replacement]

theorem structuralMessage_eq {messages : List Bytes} (apart : DigestsApart messages)
    {left right : Rule} (leftHashed : left.structuralMessage ∈ messages)
    (rightHashed : right.structuralMessage ∈ messages)
    (same : left.computeStructuralId = right.computeStructuralId) :
    left.structuralMessage = right.structuralMessage := by
  apply apart _ leftHashed _ rightHashed
  exact Digest.hex_injective same

end Rule

namespace Pipeline

/-- The part of a key's message that tells chunks and options apart. -/
def detailMessage (pipeline : Pipeline) (chunk : Chunk) : Bytes :=
  chunk.path ++ 0 :: ((if pipeline.includeContent then utf8 "true" else utf8 "false")
    ++ 0 :: chunk.map)

theorem keyMessage_eq (pipeline : Pipeline) (chunk : Chunk) :
    pipeline.keyMessage chunk =
      pipeline.rule.structuralId ++ 0 :: pipeline.detailMessage chunk := by
  simp [keyMessage, detailMessage]

theorem zero_not_mem_structuralId {pipeline : Pipeline}
    (computed : pipeline.rule.structuralId = pipeline.rule.computeStructuralId) :
    0 ∉ pipeline.rule.structuralId := by
  rw [computed]
  exact Digest.zero_not_mem_hex _

/-- The flag has no zero byte, whatever it says. -/
theorem fields_of_detailMessage {left right : Pipeline} {leftChunk rightChunk : Chunk}
    (counts : leftChunk.path.count 0 = rightChunk.path.count 0)
    (equality : left.detailMessage leftChunk = right.detailMessage rightChunk) :
    left.includeContent = right.includeContent ∧ leftChunk.path = rightChunk.path ∧
      leftChunk.map = rightChunk.map := by
  obtain ⟨path, rest⟩ := Bytes.cut_at_counted counts equality
  have clear (flag : Bool) : 0 ∉ (if flag = true then utf8 "true" else utf8 "false") := by
    cases flag <;> decide
  obtain ⟨flag, map⟩ := Bytes.cut_at_separator (clear _) (clear _) rest
  refine ⟨?_, path, map⟩
  cases leftFlag : left.includeContent <;> cases rightFlag : right.includeContent
  · rfl
  · rw [leftFlag, rightFlag] at flag
    exact absurd flag (by decide)
  · rw [leftFlag, rightFlag] at flag
    exact absurd flag (by decide)
  · rfl

section

variable {left right : Pipeline} {leftChunk rightChunk : Chunk} {messages : List Bytes}

/-- Equal keys mean equal messages, the one inside the structural identifier included. -/
theorem resultKey_eq_iff (apart : DigestsApart messages)
    (leftComputed : left.rule.structuralId = left.rule.computeStructuralId)
    (rightComputed : right.rule.structuralId = right.rule.computeStructuralId)
    (hashed : [left.rule.structuralMessage, right.rule.structuralMessage,
      left.keyMessage leftChunk, right.keyMessage rightChunk] ⊆ messages) :
    left.resultKey leftChunk = right.resultKey rightChunk ↔
      left.rule.structuralMessage = right.rule.structuralMessage ∧
        left.detailMessage leftChunk = right.detailMessage rightChunk := by
  constructor
  · intro same
    have message : left.keyMessage leftChunk = right.keyMessage rightChunk :=
      apart _ (hashed (by simp)) _ (hashed (by simp)) (Digest.hex_injective same)
    rw [keyMessage_eq, keyMessage_eq] at message
    obtain ⟨identifier, detail⟩ :=
      Bytes.cut_at_separator (zero_not_mem_structuralId leftComputed)
        (zero_not_mem_structuralId rightComputed) message
    refine ⟨?_, detail⟩
    apply Rule.structuralMessage_eq apart (hashed (by simp)) (hashed (by simp))
    rw [← leftComputed, ← rightComputed, identifier]
  · rintro ⟨rules, detail⟩
    have identifier : left.rule.computeStructuralId = right.rule.computeStructuralId :=
      congrArg (fun message => (sha1 message).hex) rules
    have message : left.keyMessage leftChunk = right.keyMessage rightChunk := by
      rw [keyMessage_eq, keyMessage_eq, leftComputed, rightComputed, identifier, detail]
    exact congrArg (fun message => (sha1 message).hex) message

end

/-- Keys of two pipelines are equal exactly if the messages they are digests of are.  Rules
whose patterns have equally many zero bytes then transform every code alike if they share
their structural identifier.  Equal keys mean equal rules if the patterns have equally many
zero bytes, and equal options, paths and parent maps if the paths do. -/
theorem keys_tell_apart {leftSettings rightSettings : PipelineSettings}
    {leftTransform rightTransform : Option Transform} {left right : Pipeline}
    (leftMade : make leftSettings leftTransform = .ok left)
    (rightMade : make rightSettings rightTransform = .ok right) {leftChunk rightChunk : Chunk}
    (apart : DigestsApart [left.rule.structuralMessage, right.rule.structuralMessage,
      left.keyMessage leftChunk, right.keyMessage rightChunk]) :
    (left.resultKey leftChunk = right.resultKey rightChunk ↔
      left.rule.structuralMessage = right.rule.structuralMessage ∧
        left.detailMessage leftChunk = right.detailMessage rightChunk) ∧
      (left.rule.pattern.count 0 = right.rule.pattern.count 0 →
        left.rule.structuralId = right.rule.structuralId →
        ∀ options code parent,
          left.rule.transformWithParent options code parent =
            right.rule.transformWithParent options code parent) ∧
      (left.resultKey leftChunk = right.resultKey rightChunk →
        (left.rule.pattern.count 0 = right.rule.pattern.count 0 →
          left.rule.pattern = right.rule.pattern ∧
            left.rule.replacement = right.rule.replacement) ∧
        (leftChunk.path.count 0 = rightChunk.path.count 0 →
          left.includeContent = right.includeContent ∧
            leftChunk.path = rightChunk.path ∧ leftChunk.map = rightChunk.map)) := by
  have leftComputed := structuralId_of_make leftMade
  have rightComputed := structuralId_of_make rightMade
  have exactly := resultKey_eq_iff apart leftComputed rightComputed (List.Subset.refl _)
  refine ⟨exactly, ?_, ?_⟩
  · intro patterns same
    rw [leftComputed, rightComputed] at same
    have message := Rule.structuralMessage_eq apart (by simp) (by simp) same
    obtain ⟨pattern, replacement⟩ := Rule.fields_of_structuralMessage patterns message
    exact Rule.transformWithParent_congr pattern replacement
  · intro same
    obtain ⟨rules, detail⟩ := exactly.mp same
    constructor
    · intro patterns
      exact Rule.fields_of_structuralMessage patterns rules
    · intro paths
      exact fields_of_detailMessage paths detail

/-- Two rules under different names with a zero byte in their pattern share the key of a chunk
whose path has one too. -/
theorem keys_tell_apart_named :
    ∃ leftChunk rightChunk : Chunk,
      let left := barePipeline (bareRule "first" "a\x00b" "c")
      let right := barePipeline (bareRule "second" "a\x00b" "c")
      make (bareSettings (bareRule "first" "a\x00b" "c")) none = .ok left ∧
        make (bareSettings (bareRule "second" "a\x00b" "c")) none = .ok right ∧
        left.resultKey leftChunk = right.resultKey rightChunk ∧
        leftChunk.content ≠ rightChunk.content ∧
        left.rule.id ≠ right.rule.id ∧
        (left.rule.pattern = right.rule.pattern ∧
          left.rule.replacement = right.rule.replacement) ∧
        left.includeContent = right.includeContent ∧
        leftChunk.path = rightChunk.path ∧ leftChunk.map = rightChunk.map := by
  let leftChunk : Chunk := ⟨utf8 "x\x00y", utf8 "one", utf8 "{}", none⟩
  let rightChunk : Chunk := ⟨utf8 "x\x00y", utf8 "two", utf8 "{}", none⟩
  have leftMade := make_bareSettings (show (bareRule "first" "a\x00b" "c").validate = .ok () by
    decide +kernel)
  have rightMade := make_bareSettings (show (bareRule "second" "a\x00b" "c").validate = .ok () by
    decide +kernel)
  have same : (barePipeline (bareRule "first" "a\x00b" "c")).resultKey leftChunk =
      (barePipeline (bareRule "second" "a\x00b" "c")).resultKey rightChunk := by
    decide +kernel
  obtain ⟨-, -, fields⟩ :=
    keys_tell_apart leftMade rightMade
      (show DigestsApart [_, _, keyMessage _ leftChunk, keyMessage _ rightChunk] by
        decide +kernel)
  obtain ⟨rules, details⟩ := fields same
  exact ⟨leftChunk, rightChunk, leftMade, rightMade, same, by decide, by decide,
    rules (by decide), details (by decide)⟩

/-- Two rules that pass their check share their structural identifier and the key of a chunk,
although their patterns differ and they transform its content differently.  Two chunks share
their key, although their paths and their parent maps differ. -/
theorem keys_shared :
    ∃ (chunk leftChunk rightChunk : Chunk),
      let left := barePipeline (bareRule "first" "a\x00b" "c")
      let right := barePipeline (bareRule "second" "a" "b\x00c")
      let options : TransformOptions := ⟨[], chunk.path, true⟩
      (make (bareSettings (bareRule "first" "a\x00b" "c")) none = .ok left ∧
        make (bareSettings (bareRule "second" "a" "b\x00c")) none = .ok right ∧
        DigestsApart [left.rule.structuralMessage, right.rule.structuralMessage,
          left.keyMessage chunk, right.keyMessage chunk] ∧
        left.rule.structuralId = right.rule.structuralId ∧
        left.resultKey chunk = right.resultKey chunk ∧
        left.rule.pattern ≠ right.rule.pattern ∧
        left.rule.transformWithParent options chunk.content chunk.map ≠
          right.rule.transformWithParent options chunk.content chunk.map) ∧
      (DigestsApart [left.rule.structuralMessage, left.keyMessage leftChunk,
          left.keyMessage rightChunk] ∧
        left.resultKey leftChunk = left.resultKey rightChunk ∧
        leftChunk.path ≠ rightChunk.path ∧ leftChunk.map ≠ rightChunk.map) := by
  refine ⟨⟨utf8 "x.js", utf8 "a\x00b", [], none⟩, ⟨utf8 "x", [], utf8 "true\x00{}", none⟩,
    ⟨utf8 "x\x00true", [], utf8 "{}", none⟩, ?_, ?_⟩
  · refine ⟨make_bareSettings (by decide +kernel), make_bareSettings (by decide +kernel), ?_⟩
    decide +kernel
  · decide +kernel

end Pipeline

end Reroute
