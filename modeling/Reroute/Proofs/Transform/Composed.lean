import Mathlib
import Reroute.Proofs.Json.Extent
import Reroute.Proofs.SourceMap.Composition
import Reroute.Proofs.Transform.Exactness

/-!
# Exact maps through a parent

A transform of code that came with a parent map composes the two.  Wherever the parent
resolves the place that a visible character is traced back to, the composed map resolves
the character to the same position.
-/

namespace Reroute

namespace SourceMap

open Mappings (Modest ModestSegment)

/-- Lines and columns of sources lie in a range that leaves room for differences. -/
def Placed (lines : Mappings) : Prop :=
  ∀ line ∈ lines, ∀ segment ∈ line,
    (0 ≤ segment.sourceLine.toInt ∧ segment.sourceLine.toInt < 2 ^ 61) ∧
      (0 ≤ segment.sourceColumn.toInt ∧ segment.sourceColumn.toInt < 2 ^ 61)

variable {delta parent : SourceMap} {parentLines lines : Mappings}

/-- Composed segments keep their columns, have indices of listed sources and of names in use,
and take their place from a segment of the parent. -/
theorem composeLines_fields (sourcesBounded : parent.sourceList.length < 2 ^ 62)
    (namesBounded : (namePool delta parent).length < 2 ^ 62)
    (columns : ∀ line ∈ lines, ∀ segment ∈ line, Modest segment.generatedColumn) :
    ∀ line ∈ (composeLines delta parent parentLines.table lines).1.mappings,
      ∀ segment ∈ line,
        Modest segment.generatedColumn ∧ Modest segment.sourceIndex ∧
          (segment.nameIndex ≠ Segment.noName → Modest segment.nameIndex) ∧
          ∃ targets ∈ parentLines, ∃ target ∈ targets,
            segment.sourceLine = target.sourceLine ∧
              segment.sourceColumn = target.sourceColumn := by
  obtain ⟨interned, composed⟩ :=
    composeLines_spec parentLines.table (Nat.lt_trans namesBounded (by decide)) lines
  intro line member segment segmentMember
  obtain ⟨number, rfl⟩ := Builder.exists_lineAt_of_mem_mappings member
  obtain ⟨original, originalMember, carries⟩ :=
    (composed number).exists_carries_of_mem segmentMember
  obtain ⟨target, source, looked, picked, sourceIndex, sourceLine, sourceColumn, -⟩ :=
    carries.target
  have originalModest : Modest original.generatedColumn := by
    rw [List.getD_eq_getElem?_getD] at originalMember
    cases found : lines[number]? with
    | none => simp [found] at originalMember
    | some segments =>
        rw [found, Option.getD_some] at originalMember
        exact columns segments (List.mem_of_getElem? found) original originalMember
  obtain ⟨targetLine, targetLineMember, targetMember⟩ := Mappings.exists_line_of_lookup? looked
  have inside := toInt_lt_of_pick? picked
  refine ⟨?_, ?_, ?_, targetLine, targetLineMember, target, targetMember, sourceLine,
    sourceColumn⟩
  · rw [carries.generatedColumn]
    exact originalModest
  · rw [sourceIndex]
    exact ⟨inside.1, by omega⟩
  · intro named
    obtain ⟨index, below, equality⟩ := carries.nameIndex named
    have bound := interned.length_le
    rw [equality]
    exact Mappings.modest_ofNat (by omega)

/-- The fields of composed segments leave room for their differences. -/
theorem modest_composeLines (sourcesBounded : parent.sourceList.length < 2 ^ 62)
    (namesBounded : (namePool delta parent).length < 2 ^ 62) (placed : Placed parentLines)
    (columns : ∀ line ∈ lines, ∀ segment ∈ line, Modest segment.generatedColumn) :
    ∀ line ∈ (composeLines delta parent parentLines.table lines).1.mappings,
      ∀ segment ∈ line, ModestSegment segment := by
  intro line member segment segmentMember
  obtain ⟨generatedColumn, sourceIndex, nameIndex, targets, targetsMember, target, targetMember,
    sourceLine, sourceColumn⟩ :=
    composeLines_fields sourcesBounded namesBounded columns line member segment segmentMember
  have targetPlaced := placed targets targetsMember target targetMember
  refine ⟨generatedColumn, sourceIndex, ?_, ?_, nameIndex⟩
  · rw [sourceLine]
    exact ⟨targetPlaced.1.1, by omega⟩
  · rw [sourceColumn]
    exact ⟨targetPlaced.2.1, by omega⟩

theorem composedName?_of_nameless (nameless : delta.nameList = []) (parent : SourceMap)
    (segment target : Segment) :
    composedName? delta parent segment target = pick? parent.nameList target.nameIndex := by
  unfold composedName?
  split
  · next named => exact named.symm
  · next missing =>
      rw [missing, nameless, pick?]
      split <;> simp

/-- A line that covers a column, of a map without names, resolves to the position that the
parent resolves the covering segment to. -/
theorem resolve_compose {document : Bytes} {map : SourceMap}
    (composed : delta.compose document = .ok map) (small : document.length < 2 ^ 63)
    (parsed : parse document = .ok parent) (parentDecoded : parent.decode = .ok parentLines)
    (placed : Placed parentLines) (decoded : delta.decode = .ok lines)
    (modest : ∀ line ∈ lines, ∀ segment ∈ line, ModestSegment segment)
    (nameless : delta.nameList = []) {line : Nat} (lineSmall : line < 2 ^ 63)
    {segments : List Segment} (found : lines[line]? = some segments) {column : Int64}
    {segment : Segment} (covers : Covers segments column segment) {position : SourcePosition}
    (resolved :
      parent.resolve segment.sourceLine segment.sourceColumn = .ok (some position)) :
    map.resolve (Int64.ofNat line) column = .ok (some position) := by
  have bounds := two_mul_length_le_of_parse parsed
  have sourcesBounded : parent.sourceList.length < 2 ^ 62 := by omega
  have namesBounded : (namePool delta parent).length < 2 ^ 62 := by
    rw [namePool, nameless, List.append_nil]
    omega
  have modestComposed := modest_composeLines sourcesBounded namesBounded placed
    (fun line member segment inside => (modest line member segment inside).generatedColumn)
  obtain ⟨interned, lineCarries⟩ :=
    composeLines_spec parentLines.table (Nat.lt_trans namesBounded (by decide)) lines
  unfold resolve at resolved
  simp only [parentDecoded, Except.ok.injEq] at resolved
  have carriesLine := lineCarries line
  rw [List.getD_eq_getElem?_getD, found, Option.getD_some] at carriesLine
  obtain ⟨carried, covering, carries⟩ :=
    carriesLine.covers covers (by rw [resolved]; exact Option.some_ne_none position)
  unfold compose at composed
  simp only [parsed, parentDecoded, decoded] at composed
  split at composed
  · cases composed
  next written writes =>
  cases composed
  have filled :
      (composeLines delta parent parentLines.table lines).1.lineAt line ≠ [] := by
    obtain ⟨⟨left, right, equality, -⟩, -⟩ := covering
    simp [equality]
  have composedFound := Builder.mappings_getElem? filled
  have composedDecoded :=
    Mappings.decode_encode_of_modest (List.ne_nil_of_mem (List.mem_of_getElem? composedFound))
      modestComposed
  rw [Mappings.encode, writes, Option.getD_some] at composedDecoded
  have looked := Mappings.lookup?_of_covers lineSmall composedFound covering
  obtain ⟨target, source, targetLooked, picked, sourceIndex, sourceLine, sourceColumn, name⟩ :=
    carries.target
  rw [targetLooked, Option.bind_some] at resolved
  rw [resolve, decode, composedDecoded]
  simp only [looked, Option.bind_some, Except.ok.injEq]
  rw [← resolved, positionOf?, positionOf?, sourceIndex, sourceLine, sourceColumn,
    ← composedName?_of_nameless nameless parent segment target, ← name]
  rfl

end SourceMap

namespace Rule

open Overlay

variable {rule : Rule} {code : Bytes} {spans : List Span}

theorem exists_delta_of_changed {options : TransformOptions} {parent output : Bytes}
    {map : SourceMap} (nonempty : parent ≠ [])
    (changed : rule.transformWithParent options code parent = .ok (.changed output map spans)) :
    ∃ delta, rule.transform options code = .ok (.changed output delta spans) ∧
      delta.compose parent = .ok map := by
  unfold transformWithParent at changed
  split at changed
  · cases changed
  · cases changed
  · next transformed =>
      rw [if_neg (by simpa using nonempty)] at changed
      split at changed
      · next composed =>
          cases changed
          exact ⟨_, transformed, composed⟩
      · cases changed

/-- Wherever the parent resolves the place that a visible character of the output is traced
back to, the composed map resolves the character to the same position.  Documents are
shorter than 2^63 bytes, as sizes are signed 64-bit words. -/
theorem transformWithParent_map_exact (textual : rule.Textual) {options : TransformOptions}
    {parent output : Bytes} {map upstream : SourceMap} {lines : Mappings}
    (codeSmall : code.length < 2 ^ 60) (outputSmall : output.length < 2 ^ 60)
    (nonempty : parent ≠ []) (parentSmall : parent.length < 2 ^ 63)
    (parsed : SourceMap.parse parent = .ok upstream) (decoded : upstream.decode = .ok lines)
    (placed : SourceMap.Placed lines)
    (changed : rule.transformWithParent options code parent = .ok (.changed output map spans))
    {before after : List Rune} {rune : Rune} (split : output.runes = before ++ rune :: after)
    (visible : rune ≠ .char '\n') :
    let offset := (before.map Rune.size).sum
    let place := (LineIndex.ofContent output).point offset
    let origin := (LineIndex.ofContent code).point (rule.origin spans offset)
    ∀ position,
      upstream.resolve (Int64.ofNat origin.line) (Int64.ofNat origin.column) =
        .ok (some position) →
      map.resolve (Int64.ofNat place.line) (Int64.ofNat place.column) =
        .ok (some position) := by
  obtain ⟨delta, transformed, composed⟩ := exists_delta_of_changed nonempty changed
  obtain ⟨cut, rfl, rfl⟩ := exists_cut_of_changed textual transformed
  intro offset place origin position resolved
  obtain ⟨segments, mark, found, covers, source⟩ :=
    exists_covers textual cut outputSmall split visible
  have modest := modest_mappings textual cut codeSmall outputSmall
  have deltaDecoded :=
    Mappings.decode_encode_of_modest (List.ne_nil_of_mem (List.mem_of_getElem? found)) modest
  have placeBounds := LineIndex.point_le (rule.overlay code spans).render offset
  refine SourceMap.resolve_compose composed parentSmall parsed decoded placed deltaDecoded modest
    rfl (Nat.lt_of_le_of_lt placeBounds.1 (by omega)) found covers ?_
  rw [Mark.segment, source]
  exact resolved

/-- A parent map with a root, two lines, and a name on the second of them. -/
def namedParent : Bytes :=
  utf8 "\x7b\"version\":3,\"sourceRoot\":\"src\",\"sources\":[\"a.ts\"],\"names\":[\"load\"],"
    ++ utf8 "\"mappings\":\"AAAA;AAAA,CAECA\"\x7d"

/-- The second line of the last replacement resolves through the parent to the name that
stands behind the stray byte. -/
theorem transformWithParent_map_exact_named :
    ∃ output map spans,
      twoLines.transformWithParent ⟨[], utf8 "chunk.js", false⟩ strayCode namedParent =
        .ok (.changed output map spans) ∧
      map.resolve 4 0 = .ok (some ⟨utf8 "src/a.ts", 2, 1, utf8 "load"⟩) := by
  let upstream : SourceMap :=
    ⟨3, [], utf8 "src", some [utf8 "a.ts"], [], some [utf8 "load"], utf8 "AAAA;AAAA,CAECA"⟩
  let lines : Mappings := [[⟨0, 0, 0, 0, -1⟩], [⟨0, 0, 0, 0, -1⟩, ⟨1, 0, 2, 1, 0⟩]]
  let spans := occurrences twoLines.pattern strayCode
  let output := (twoLines.overlay strayCode spans).render
  let map : SourceMap :=
    { upstream with
      file := utf8 "chunk.js"
      mappings := utf8 "AAAA,EAAA,CAAA;AAAA,EAAA;AAAA;AAAA,CAECA;AAAAA" }
  have changed : twoLines.transformWithParent ⟨[], utf8 "chunk.js", false⟩ strayCode
      namedParent = .ok (.changed output map spans) := by
    decide +kernel
  have placed : SourceMap.Placed lines := by
    simp [SourceMap.Placed, lines]
  have resolved :=
    transformWithParent_map_exact textual_twoLines (by decide) (by decide +kernel) (by decide)
      (by decide +kernel) (show SourceMap.parse namedParent = .ok upstream by decide +kernel)
      (show upstream.decode = .ok lines by decide +kernel) placed changed
      (show output.runes = output.runes.dropLast ++ .char '😀' :: [] by decide +kernel)
      (by decide) ⟨utf8 "src/a.ts", 2, 1, utf8 "load"⟩ (by decide +kernel)
  refine ⟨output, map, spans, changed, ?_⟩
  rw [← resolved]
  decide +kernel

end Rule

end Reroute
