import Mathlib
import Reroute.Proofs.SourceMap.Finishing
import Reroute.Proofs.SourceMap.Naming
import Reroute.Proofs.Transform.Replacement

/-!
# When a transform with a parent fails

Composition has three steps that can fail: reading the parent document, reading its mappings,
and reading the mappings of the new map.  The last of them never fails, since the fields of a
new map are bounded by the lengths of the code and of the output, whatever bytes these hold.
A transform that finds nothing does not look at the parent at all.
-/

namespace Reroute

namespace Mappings

/-- Writing modest mappings ends. -/
theorem writes_encode_of_modest {lines : Mappings}
    (modest : ∀ line ∈ lines, ∀ segment ∈ line, ModestSegment segment) :
    Writes lines (encode lines) := by
  obtain ⟨text, written⟩ := exists_encode?_of_modest modest
  rw [← encode?_eq_some_iff, encode, written, Option.getD_some]

end Mappings

namespace SourceMap

/-- Why a document is not a map whose mappings can be read. -/
inductive Unreadable (document : Bytes) : CompositionError → Prop where
  | parent {error : SourceMap.Error} :
      parse document = .error error → Unreadable document (.parent error)
  | mappings {parent : SourceMap} {error : Mappings.Error} :
      parse document = .ok parent → parent.decode = .error error →
      Unreadable document (.parentMappings error)

variable {delta parent : SourceMap} {document : Bytes} {lines parentLines : Mappings}

theorem Unreadable.compose_eq {error : CompositionError}
    (unreadable : Unreadable document error) (delta : SourceMap) :
    delta.compose document = .error error := by
  unfold compose
  cases unreadable with
  | parent refused => simp only [refused]
  | mappings parsed refused => simp only [parsed, refused]

/-- A document can be read, or there is a reason why it cannot. -/
theorem readable_or_unreadable (document : Bytes) :
    (∃ parent lines, parse document = .ok parent ∧ parent.decode = .ok lines) ∨
      ∃ error, Unreadable document error := by
  cases parsed : parse document with
  | error error => exact .inr ⟨_, .parent parsed⟩
  | ok parent =>
      cases decoded : parent.decode with
      | error error => exact .inr ⟨_, .mappings parsed decoded⟩
      | ok lines => exact .inl ⟨parent, lines, rfl, decoded⟩

/-- A map that can be read fails to compose for no other reason, if the composed mappings can be
written. -/
theorem compose_eq_error_iff (decoded : delta.decode = .ok lines)
    (ends : ∀ parent parentLines, parse document = .ok parent → parent.decode = .ok parentLines →
      ∃ text, Mappings.Writes (composedLines delta parent parentLines lines) text)
    {error : CompositionError} :
    delta.compose document = .error error ↔ Unreadable document error := by
  constructor
  · intro failed
    rcases readable_or_unreadable document with
      ⟨parent, parentLines, parsed, parentDecoded⟩ | ⟨cause, unreadable⟩
    · obtain ⟨text, writes⟩ := ends parent parentLines parsed parentDecoded
      rw [SourceMap.compose_eq_ok parsed parentDecoded decoded
        (Mappings.encode?_eq_some_iff.mpr writes)] at failed
      cases failed
    · cases failed.symm.trans (unreadable.compose_eq delta)
      exact unreadable
  · intro unreadable
    exact unreadable.compose_eq delta

end SourceMap

namespace Rule

open SourceMap (Unreadable Placed composedLines)

variable {rule : Rule} {options : TransformOptions} {code parent output : Bytes}
  {delta : SourceMap} {spans : List Span}

/-- Writing the mappings of a new map ends, and they are read back. -/
theorem exists_decode_of_changed (nonempty : rule.pattern ≠ []) (codeSmall : code.length < 2 ^ 60)
    (outputSmall : output.length < 2 ^ 60)
    (changed : rule.transform options code = .ok (.changed output delta spans)) :
    Mappings.Writes ((rule.overlay code spans).mappings true) delta.mappings ∧
      delta.nameList = [] ∧ ∃ drawn, delta.decode = .ok drawn ∧
        ∀ line ∈ drawn, ∀ segment ∈ line, Mappings.ModestSegment segment := by
  obtain ⟨-, -, rfl, rfl⟩ := transform_eq_changed nonempty changed
  have modest := @Overlay.modest_of_mem_mappings (rule.overlay code spans) true codeSmall
    outputSmall
  obtain ⟨drawn, decoded, same⟩ := Mappings.exists_sameLines_of_modest modest
  exact ⟨Mappings.writes_encode_of_modest modest, rfl, drawn, decoded,
    same.forall_segment modest⟩

/-- Composing the new map of changed code with a parent that is no longer than a text can be
writes mappings that are modest. -/
theorem writes_composedLines (nameless : delta.nameList = []) {drawn : Mappings}
    (modest : ∀ line ∈ drawn, ∀ segment ∈ line, Mappings.ModestSegment segment)
    (parentSmall : parent.length < 2 ^ 63)
    (placed : ∀ upstream lines, SourceMap.parse parent = .ok upstream →
      upstream.decode = .ok lines → Placed lines)
    {upstream : SourceMap} {lines : Mappings} (parsed : SourceMap.parse parent = .ok upstream)
    (decoded : upstream.decode = .ok lines) :
    Mappings.Writes (composedLines delta upstream lines drawn)
      (Mappings.encode (composedLines delta upstream lines drawn)) := by
  apply Mappings.writes_encode_of_modest
  apply SourceMap.modest_composedLines parsed _ (placed upstream lines parsed decoded)
  · exact fun line member segment inside => (modest line member segment inside).generatedColumn
  · simpa [nameless] using parentSmall

/-- With a parent that is not empty, changed code fails for the reason that the parent cannot
be read. -/
theorem transformWithParent_eq_error_iff (nonempty : rule.pattern ≠ [])
    (codeSmall : code.length < 2 ^ 60) (outputSmall : output.length < 2 ^ 60)
    (parentSmall : parent.length < 2 ^ 63)
    (placed : ∀ upstream lines, SourceMap.parse parent = .ok upstream →
      upstream.decode = .ok lines → Placed lines)
    (changed : rule.transform options code = .ok (.changed output delta spans))
    {error : TransformError} :
    rule.transformWithParent options code parent = .error error ↔
      parent ≠ [] ∧ ∃ cause, Unreadable parent cause ∧ error = .composition cause := by
  obtain ⟨-, nameless, drawn, decoded, modest⟩ :=
    exists_decode_of_changed nonempty codeSmall outputSmall changed
  have ends upstream lines parsed parentDecoded :=
    Exists.intro _ (writes_composedLines nameless modest parentSmall placed
      (show SourceMap.parse parent = .ok upstream from parsed)
      (show upstream.decode = .ok lines from parentDecoded))
  rw [transformWithParent, changed]
  by_cases empty : parent = []
  · simp [empty]
  · simp only [List.isEmpty_iff, empty, if_false, ne_eq, not_false_eq_true, true_and]
    cases composed : delta.compose parent with
    | ok map =>
        simp only [false_iff, reduceCtorEq, not_exists, not_and]
        intro cause unreadable
        cases composed.symm.trans (unreadable.compose_eq delta)
    | error failure =>
        have unreadable := (SourceMap.compose_eq_error_iff decoded ends).mp composed
        constructor
        · rintro ⟨⟩
          exact ⟨failure, unreadable, rfl⟩
        · rintro ⟨cause, other, rfl⟩
          cases composed.symm.trans (other.compose_eq delta)
          rfl

/-- The map of changed code is the new map, or the new map composed with a parent that was
read, and writing the composed mappings ends. -/
theorem eq_changed_of_transformWithParent (nonempty : rule.pattern ≠ [])
    (codeSmall : code.length < 2 ^ 60) (outputSmall : output.length < 2 ^ 60)
    (parentSmall : parent.length < 2 ^ 63)
    (placed : ∀ upstream lines, SourceMap.parse parent = .ok upstream →
      upstream.decode = .ok lines → Placed lines)
    (changed : rule.transform options code = .ok (.changed output delta spans))
    {outcome : Outcome}
    (transformed : rule.transformWithParent options code parent = .ok outcome) :
    ∃ map, outcome = .changed output map spans ∧ (parent = [] → map = delta) ∧
      (parent ≠ [] → ∃ upstream lines drawn, SourceMap.parse parent = .ok upstream ∧
        upstream.decode = .ok lines ∧ delta.decode = .ok drawn ∧
        Mappings.Writes (composedLines delta upstream lines drawn) map.mappings) := by
  obtain ⟨-, nameless, drawn, decoded, modest⟩ :=
    exists_decode_of_changed nonempty codeSmall outputSmall changed
  rw [transformWithParent, changed] at transformed
  by_cases empty : parent = []
  · simp only [List.isEmpty_iff, empty, if_true, Except.ok.injEq] at transformed
    exact ⟨delta, transformed.symm, fun _ => rfl, fun filled => absurd empty filled⟩
  · simp only [List.isEmpty_iff, empty, if_false] at transformed
    rcases SourceMap.readable_or_unreadable parent with
      ⟨upstream, lines, parsed, parentDecoded⟩ | ⟨cause, unreadable⟩
    · have writes := writes_composedLines nameless modest parentSmall placed parsed parentDecoded
      simp only [SourceMap.compose_eq_ok parsed parentDecoded decoded
        (Mappings.encode?_eq_some_iff.mpr writes), Except.ok.injEq] at transformed
      exact ⟨_, transformed.symm, fun none => absurd none empty,
        fun _ => ⟨upstream, lines, drawn, parsed, parentDecoded, decoded, writes⟩⟩
    · simp only [unreadable.compose_eq delta] at transformed
      cases transformed

/-- A transform with a parent fails exactly if the pattern occurs and there is a parent that
cannot be read, and it says why not.  Otherwise it comes to the transform without a parent, up
to the map, and to the very same one if the parent is empty.  The mappings of neither map
keep the encoder from ending. -/
theorem transformWithParent_fails_iff (nonempty : rule.pattern ≠ [])
    (codeSmall : code.length < 2 ^ 60)
    (outputSmall : ∀ output delta spans,
      rule.transform options code = .ok (.changed output delta spans) → output.length < 2 ^ 60)
    (parentSmall : parent.length < 2 ^ 63)
    (placed : ∀ upstream lines, SourceMap.parse parent = .ok upstream →
      upstream.decode = .ok lines → Placed lines) :
    ∃ plain, rule.transform options code = .ok plain ∧
      (∀ output delta spans, plain = .changed output delta spans →
        Mappings.Writes ((rule.overlay code spans).mappings true) delta.mappings) ∧
      (∀ error, rule.transformWithParent options code parent = .error error ↔
        rule.pattern <:+: code ∧ parent ≠ [] ∧
          ∃ cause, Unreadable parent cause ∧ error = .composition cause) ∧
      ∀ outcome, rule.transformWithParent options code parent = .ok outcome →
        (plain = .unchanged ∧ outcome = .unchanged) ∨
        ∃ output delta map spans, plain = .changed output delta spans ∧
          outcome = .changed output map spans ∧ (parent = [] → map = delta) ∧
          (parent ≠ [] → ∃ upstream lines drawn, SourceMap.parse parent = .ok upstream ∧
            upstream.decode = .ok lines ∧ delta.decode = .ok drawn ∧
            Mappings.Writes (composedLines delta upstream lines drawn) map.mappings) := by
  by_cases found : rule.pattern <:+: code
  · obtain ⟨delta, changed⟩ := transform_of_infix rule nonempty options found
    have small := outputSmall _ _ _ changed
    refine ⟨_, changed, ?_, ?_, ?_⟩
    · rintro output delta spans ⟨⟩
      exact (exists_decode_of_changed nonempty codeSmall small changed).1
    · intro error
      simp only [found, true_and]
      exact transformWithParent_eq_error_iff nonempty codeSmall small parentSmall placed changed
    · intro outcome transformed
      obtain ⟨map, rfl, same, written⟩ := eq_changed_of_transformWithParent nonempty codeSmall
        small parentSmall placed changed transformed
      exact .inr ⟨_, delta, map, _, rfl, rfl, same, written⟩
  · have unchanged : rule.transform options code = .ok .unchanged := by
      rw [transform, (occurrences_eq_nil_iff nonempty code).mpr found]
      rfl
    have composed : rule.transformWithParent options code parent = .ok .unchanged := by
      rw [transformWithParent, unchanged]
    refine ⟨.unchanged, unchanged, ?_, ?_, ?_⟩
    · rintro output delta spans ⟨⟩
    · simp [composed, found]
    · intro outcome transformed
      exact .inl ⟨rfl, Except.ok.inj (transformed.symm.trans composed)⟩

/-- A parent map with a segment of two fields on its second line. -/
def raggedParent : Bytes :=
  utf8 "\x7b\"version\":3,\"sources\":[\"a.ts\"],\"mappings\":\"AAAA;AA\"\x7d"

/-- Invalid code is transformed with a parent that can be read, and fails for the ragged one. -/
theorem transformWithParent_fails_iff_ragged :
    twoLines.transformWithParent ⟨[], utf8 "chunk.js", false⟩ strayCode raggedParent =
        .error (.composition (.parentMappings (.fieldCount 2 1))) ∧
      ∃ output map spans,
        twoLines.transformWithParent ⟨[], utf8 "chunk.js", false⟩ strayCode namedParent =
          .ok (.changed output map spans) := by
  let options : TransformOptions := ⟨[], utf8 "chunk.js", false⟩
  let ragged : SourceMap := ⟨3, [], [], some [utf8 "a.ts"], [], some [], utf8 "AAAA;AA"⟩
  let upstream : SourceMap :=
    ⟨3, [], utf8 "src", some [utf8 "a.ts"], [], some [utf8 "load"], utf8 "AAAA;AAAA,CAECA"⟩
  let lines : Mappings := [[⟨0, 0, 0, 0, -1⟩], [⟨0, 0, 0, 0, -1⟩, ⟨1, 0, 2, 1, 0⟩]]
  have raggedParsed : SourceMap.parse raggedParent = .ok ragged := by decide +kernel
  have raggedRefused : ragged.decode = .error (.fieldCount 2 1) := by decide +kernel
  have parsed : SourceMap.parse namedParent = .ok upstream := by decide +kernel
  have decoded : upstream.decode = .ok lines := by decide +kernel
  have small : ∀ output delta spans,
      twoLines.transform options strayCode = .ok (.changed output delta spans) →
        output.length < 2 ^ 60 := by
    intro output delta spans changed
    obtain ⟨rfl, -, rfl, -⟩ := transform_eq_changed (by decide) changed
    decide +kernel
  obtain ⟨-, -, -, fails, -⟩ :=
    transformWithParent_fails_iff (show twoLines.pattern ≠ [] by decide) (by decide) small
      (show raggedParent.length < 2 ^ 63 by decide)
      fun _ _ read readable => by
        cases raggedParsed.symm.trans read
        cases raggedRefused.symm.trans readable
  obtain ⟨plain, transformed, -, never, follows⟩ :=
    transformWithParent_fails_iff (show twoLines.pattern ≠ [] by decide) (by decide) small
      (show namedParent.length < 2 ^ 63 by decide)
      fun _ _ read readable => by
        cases parsed.symm.trans read
        cases decoded.symm.trans readable
        simp [Placed, lines]
  refine ⟨(fails _).mpr ⟨by decide, by decide, _, .mappings raggedParsed raggedRefused, rfl⟩, ?_⟩
  cases composed : twoLines.transformWithParent options strayCode namedParent with
  | error error =>
      obtain ⟨-, -, cause, unreadable, -⟩ := (never error).mp composed
      cases unreadable with
      | parent refused => cases parsed.symm.trans refused
      | mappings read refused =>
          cases parsed.symm.trans read
          cases decoded.symm.trans refused
  | ok outcome =>
      obtain ⟨map, changed⟩ :=
        transform_of_infix twoLines (by decide) options
          (show twoLines.pattern <:+: strayCode by decide)
      rcases follows outcome composed with
        ⟨rfl, -⟩ | ⟨output, delta, map, spans, -, rfl, -, -⟩
      · cases transformed.symm.trans changed
      · exact ⟨output, map, spans, rfl⟩

end Rule

end Reroute
