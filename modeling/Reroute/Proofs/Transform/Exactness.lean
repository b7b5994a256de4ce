import Mathlib
import Reroute.Proofs.Overlay.Tracing

/-!
# Exact maps

The map of a transform resolves every visible character of the output: a character of
unchanged text to its own place in the code, and a character of a replacement to the place
of the occurrence it replaced.

Texts are shorter than 2^60 bytes, so lines and columns fit signed 64-bit words with room
for the differences that the written mappings hold.
-/

namespace Reroute

namespace Rule

open Overlay

/-- Pattern and replacement consist of whole characters, at least one each. -/
structure Textual (rule : Rule) : Prop where
  pattern_ne_nil : rule.pattern ≠ []
  pattern_valid : rule.pattern.validUtf8 = true
  replacement_ne_nil : rule.replacement ≠ []
  replacement_valid : rule.replacement.validUtf8 = true

/-- Code with the replacement over spans. -/
def overlay (rule : Rule) (code : Bytes) (spans : List Span) : Overlay :=
  ⟨code, editsOf rule.replacement spans⟩

def strokes (rule : Rule) (code : Bytes) (spans : List Span) : List Stroke :=
  rule.strokesFrom (LineIndex.ofContent code) code 0 0 spans

variable {rule : Rule} {code : Bytes} {spans : List Span}

theorem runes_render_overlay (textual : rule.Textual) (cut : Cut rule.pattern 0 code spans) :
    (rule.overlay code spans).render.runes = (rule.strokes code spans).map Stroke.rune := by
  rw [overlay, render_of_cut cut rule.replacement textual.pattern_ne_nil, strokes,
    map_rune_strokesFrom textual.replacement_ne_nil textual.replacement_valid _ cut]

theorem traced_strokes (textual : rule.Textual) (cut : Cut rule.pattern 0 code spans) :
    Traced (LineIndex.ofContent code) (fun offset => rule.origin spans offset)
      (rule.strokes code spans) := by
  have traced :=
    traced_strokesFrom textual.pattern_ne_nil textual.pattern_valid cut 0 [] rfl
      Bytes.complete_nil
  simp only [List.nil_append, Nat.zero_add] at traced
  exact traced

/-- The mappings of the output hold the marks among its strokes. -/
theorem exists_builder (textual : rule.Textual) (cut : Cut rule.pattern 0 code spans) :
    ∃ builder : Builder,
      (rule.overlay code spans).mappings true = builder.mappings ∧
      ∀ line, builder.lineAt line =
        (marksOn line .origin (rule.strokes code spans)).map Mark.segment := by
  refine ⟨_, rfl, ?_⟩
  intro line
  rw [overlay, pieces_of_cut cut rule.replacement textual.pattern_ne_nil, Pen.foldl_walk,
    Pen.lineAt_foldl_draw, Pen.start, Builder.lineAt_empty, List.nil_append]
  rfl

theorem behindStrokes_split {before after : List Stroke} {output : Bytes}
    (runes : output.runes = (before ++ after).map Stroke.rune) :
    behindStrokes .origin before = (LineIndex.ofContent output).point (width before) := by
  rw [List.map_append] at runes
  exact (LineIndex.point_of_runes runes).symm

/-- Every mark has a column of the output and a point of the code. -/
theorem mark_bounds (textual : rule.Textual) (cut : Cut rule.pattern 0 code spans)
    {line : Nat} {mark : Mark} (member : mark ∈ marksOn line .origin (rule.strokes code spans)) :
    mark.column ≤ (rule.overlay code spans).render.length ∧
      mark.source.line ≤ code.length ∧ mark.source.column ≤ code.length := by
  obtain ⟨before, stroke, after, split, visible, source, column⟩ :=
    exists_stroke_of_mem_marksOn member
  have traced := traced_strokes textual cut before stroke after none split visible
  have place := behindStrokes_split (split ▸ runes_render_overlay textual cut)
  have sourceBounds := LineIndex.point_le code (rule.origin spans (width before))
  have placeBounds :=
    LineIndex.point_le (rule.overlay code spans).render (width before : Nat)
  rw [source, traced.2, column, place]
  exact ⟨placeBounds.2, sourceBounds⟩

/-- The fields of all segments leave room for their differences. -/
theorem modest_mappings (textual : rule.Textual) (cut : Cut rule.pattern 0 code spans)
    (codeSmall : code.length < 2 ^ 60)
    (outputSmall : (rule.overlay code spans).render.length < 2 ^ 60) :
    ∀ line ∈ (rule.overlay code spans).mappings true, ∀ segment ∈ line,
      Mappings.ModestSegment segment := by
  obtain ⟨builder, mappings, drawn⟩ := exists_builder textual cut
  rw [mappings]
  intro line member segment segmentMember
  obtain ⟨number, rfl⟩ := Builder.exists_lineAt_of_mem_mappings member
  rw [drawn, List.mem_map] at segmentMember
  obtain ⟨mark, markMember, rfl⟩ := segmentMember
  have bounds := mark_bounds textual cut markMember
  exact
    { generatedColumn := Mappings.modest_ofNat (by omega)
      sourceIndex := Mappings.modest_zero
      sourceLine := Mappings.modest_ofNat (by omega)
      sourceColumn := Mappings.modest_ofNat (by omega)
      nameIndex := fun named => absurd rfl named }

/-- The column of a visible character is covered by a segment that names the point it is
traced back to. -/
theorem exists_covers (textual : rule.Textual) (cut : Cut rule.pattern 0 code spans)
    (outputSmall : (rule.overlay code spans).render.length < 2 ^ 60)
    {before after : List Rune} {rune : Rune}
    (split : (rule.overlay code spans).render.runes = before ++ rune :: after)
    (visible : rune ≠ .char '\n') :
    let place :=
      (LineIndex.ofContent (rule.overlay code spans).render).point (before.map Rune.size).sum
    ∃ (segments : List Segment) (mark : Mark),
      ((rule.overlay code spans).mappings true)[place.line]? = some segments ∧
      Covers segments (Int64.ofNat place.column) mark.segment ∧
      mark.source =
        (LineIndex.ofContent code).point (rule.origin spans (before.map Rune.size).sum) := by
  obtain ⟨builder, mappings, drawn⟩ := exists_builder textual cut
  have runes := runes_render_overlay textual cut
  rw [split, eq_comm, List.map_eq_append_iff] at runes
  obtain ⟨strokesBefore, rest, strokesSplit, rfl, restRunes⟩ := runes
  obtain ⟨stroke, strokesAfter, rfl, rfl, rfl⟩ := List.map_eq_cons_iff.mp restRunes
  have traced := traced_strokes textual cut strokesBefore stroke strokesAfter none strokesSplit
    visible
  obtain ⟨mark, covers, source⟩ :=
    exists_mark_covers strokesBefore stroke strokesAfter visible traced.1
  rw [← strokesSplit, behindStrokes_split (by rw [split, List.map_append, List.map_cons])]
    at covers
  intro place
  have placeBounds :=
    LineIndex.point_le (rule.overlay code spans).render (width strokesBefore : Nat)
  have covering := covers.segment (by omega) (by
    intro other member
    have bounds := mark_bounds textual cut member
    omega)
  rw [← drawn] at covering
  have filled : builder.lineAt place.line ≠ [] := by
    obtain ⟨⟨left, right, equality, -⟩, -⟩ := covering
    change builder.lineAt place.line = _ at equality
    simp [equality]
  refine ⟨_, mark, ?_, covering, source.trans traced.2⟩
  rw [mappings]
  exact Builder.mappings_getElem? filled

/-- What a transform that changes code makes of it: the overlay of a cut of the code. -/
theorem exists_cut_of_changed (textual : rule.Textual) {options : TransformOptions}
    {output : Bytes} {map : SourceMap}
    (changed : rule.transform options code = .ok (.changed output map spans)) :
    Cut rule.pattern 0 code spans ∧ output = (rule.overlay code spans).render ∧
      map = (rule.overlay code spans).map
        { source := options.sourceName
          file := options.file
          includeContent := options.includeContent
          everyCharacter := true } := by
  obtain ⟨rfl, -, rendered, drawn⟩ := transform_eq_changed textual.pattern_ne_nil changed
  exact ⟨cut_occurrences textual.pattern_ne_nil code, rendered, drawn⟩

/-- Every visible character of the output resolves to the point of the code it is traced
back to, in the source that the options name. -/
theorem transform_map_exact (textual : rule.Textual) {options : TransformOptions}
    {output : Bytes} {map : SourceMap} (codeSmall : code.length < 2 ^ 60)
    (outputSmall : output.length < 2 ^ 60)
    (changed : rule.transform options code = .ok (.changed output map spans))
    {before after : List Rune} {rune : Rune} (split : output.runes = before ++ rune :: after)
    (visible : rune ≠ .char '\n') :
    let offset := (before.map Rune.size).sum
    let place := (LineIndex.ofContent output).point offset
    let origin := (LineIndex.ofContent code).point (rule.origin spans offset)
    ∃ position,
      map.resolve (Int64.ofNat place.line) (Int64.ofNat place.column) = .ok (some position) ∧
      position.source = options.sourceName ∧ position.line.toInt = origin.line ∧
      position.column.toInt = origin.column := by
  obtain ⟨cut, rfl, rfl⟩ := exists_cut_of_changed textual changed
  intro offset place origin
  obtain ⟨segments, mark, found, covers, source⟩ :=
    exists_covers textual cut outputSmall split visible
  have decoded :=
    Mappings.decode_encode_of_modest (List.ne_nil_of_mem (List.mem_of_getElem? found))
      (modest_mappings textual cut codeSmall outputSmall)
  have placeBounds := LineIndex.point_le (rule.overlay code spans).render offset
  have originBounds := LineIndex.point_le code (rule.origin spans offset)
  have looked : ((rule.overlay code spans).mappings true).table.lookup?
      (Int64.ofNat place.line) (Int64.ofNat place.column) = some mark.segment :=
    Mappings.lookup?_of_covers (Nat.lt_of_le_of_lt placeBounds.1 (by omega)) found covers
  refine ⟨⟨options.sourceName, mark.segment.sourceLine, mark.segment.sourceColumn, []⟩, ?_, rfl,
    ?_, ?_⟩
  · rw [SourceMap.resolve, SourceMap.decode, Overlay.map, decoded]
    simp only [looked]
    rfl
  · rw [Mark.segment, source]
    exact Int64.toInt_ofNat_of_lt (Nat.lt_of_le_of_lt originBounds.1 (by omega))
  · rw [Mark.segment, source]
    exact Int64.toInt_ofNat_of_lt (Nat.lt_of_le_of_lt originBounds.2 (by omega))

/-- A rule with a replacement of two lines. -/
def twoLines : Rule :=
  { (default : Rule) with pattern := utf8 "é", replacement := utf8 "a\n😀" }

/-- Code with stray bytes in front of occurrences, and two adjacent occurrences. -/
def strayCode : Bytes :=
  utf8 "😀" ++ [0xC3] ++ utf8 "éé\n" ++ [0xC3] ++ utf8 "é"

theorem textual_twoLines : twoLines.Textual :=
  ⟨by decide, by decide +kernel, by decide, by decide +kernel⟩

/-- The second line of the last replacement resolves to the occurrence behind the stray
byte on the second line of the code. -/
theorem transform_map_exact_twoLines :
    ∃ output map spans position,
      twoLines.transform ⟨[], utf8 "chunk.js", false⟩ strayCode =
        .ok (.changed output map spans) ∧
      map.resolve 4 0 = .ok (some position) ∧ position.source = utf8 "chunk.js" ∧
      position.line.toInt = 1 ∧ position.column.toInt = 1 := by
  let spans := occurrences twoLines.pattern strayCode
  let output := (twoLines.overlay strayCode spans).render
  let map := (twoLines.overlay strayCode spans).map ⟨utf8 "chunk.js", utf8 "chunk.js", false, true⟩
  have changed : twoLines.transform ⟨[], utf8 "chunk.js", false⟩ strayCode =
      .ok (.changed output map spans) := by
    decide +kernel
  obtain ⟨position, resolved, source, line, column⟩ :=
    transform_map_exact textual_twoLines (by decide) (by decide +kernel) changed
      (show output.runes = output.runes.dropLast ++ .char '😀' :: [] by decide +kernel)
      (by decide)
  refine ⟨output, map, spans, position, changed, ?_, source, ?_, ?_⟩
  · rw [← resolved]
    decide +kernel
  · rw [line]
    decide +kernel
  · rw [column]
    decide +kernel

end Rule

end Reroute
