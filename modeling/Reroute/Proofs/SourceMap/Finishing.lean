import Mathlib
import Reroute.Proofs.Overlay.Extent
import Reroute.Proofs.SourceMap.Resolution
import Reroute.Proofs.SourceMap.Writing

/-!
# When composition ends

The map of an overlay is composed with a parent whose segments may name any lines and columns.
Generated columns stay those of the overlay, sources and names are listed in the parent, but
lines and columns of sources are taken over as they are.  Composition ends exactly when all
steps from one such line to the next, and from one such column to the next, can be written,
and what it has built is read back exactly when all these steps are small.
-/

namespace Reroute

namespace Mappings

/-- The differences of values to those before them. -/
def steps (last : Int64) : List Int64 → List Int64
  | [] => []
  | value :: values => (value - last) :: steps value values

/-- The steps between the lines of sources, and between the columns, that segments name one
after the other. -/
def placeSteps (lines : Mappings) : List Int64 :=
  steps 0 (lines.flatten.map Segment.sourceLine)
    ++ steps 0 (lines.flatten.map Segment.sourceColumn)

theorem steps_append (last : Int64) (front back : List Int64) :
    steps last (front ++ back) = steps last front ++ steps (front.getLastD last) back := by
  induction front generalizing last with
  | nil => rfl
  | cons value front induction =>
      rw [List.cons_append, steps, steps, induction, List.getLastD_cons, List.cons_append]

theorem foldl_after_getLastD {value : Cursor → Int64} {field : Segment → Int64}
    (follows : ∀ (cursor : Cursor) segment, value (cursor.after segment) = field segment)
    (cursor : Cursor) (line : List Segment) :
    value (line.foldl Cursor.after cursor) = (line.map field).getLastD (value cursor) := by
  induction line generalizing cursor with
  | nil => rfl
  | cons segment line induction =>
      rw [List.foldl_cons, induction, List.map_cons, List.getLastD_cons, follows]

/-- The segment without its place in the source. -/
def unplaced (segment : Segment) : Segment :=
  { segment with sourceLine := 0, sourceColumn := 0 }

def Cursor.unplaced (cursor : Cursor) : Cursor :=
  { cursor with sourceLine := 0, sourceColumn := 0 }

theorem unplaced_foldl_after (cursor : Cursor) (line : List Segment) :
    (line.foldl Cursor.after cursor).unplaced =
      (line.map unplaced).foldl Cursor.after cursor.unplaced := by
  induction line generalizing cursor with
  | nil => rfl
  | cons segment line induction => exact induction (cursor.after segment)

section Places

variable {Holds : Int64 → Prop} (ofSmall : ∀ value, Vlq.Small value → Holds value)

include ofSmall

/-- Where all other fields are modest, only the place matters for what small numbers have in
common. -/
theorem forall_differences_iff_place {cursor : Cursor} {segment : Segment}
    (cursorModest : ModestCursor cursor.unplaced) (modest : ModestSegment (unplaced segment)) :
    (∀ value ∈ cursor.differences segment, Holds value) ↔
      Holds (segment.sourceLine - cursor.sourceLine) ∧
        Holds (segment.sourceColumn - cursor.sourceColumn) := by
  obtain ⟨column, source, -, -, name⟩ :=
    forall_mem_differences_iff.mp (cursorModest.small_differences modest)
  rw [forall_mem_differences_iff]
  constructor
  · rintro ⟨-, -, line, sourceColumn, -⟩
    exact ⟨line, sourceColumn⟩
  · rintro ⟨line, sourceColumn⟩
    exact ⟨ofSmall _ column, ofSmall _ source, line, sourceColumn,
      fun named => ofSmall _ (name named)⟩

theorem forall_pieceDifferences_iff {cursor : Cursor} {line : List Segment}
    (cursorModest : ModestCursor cursor.unplaced)
    (modest : ∀ segment ∈ line, ModestSegment (unplaced segment)) :
    (∀ differences ∈ pieceDifferences cursor line, ∀ value ∈ differences, Holds value) ↔
      (∀ step ∈ steps cursor.sourceLine (line.map Segment.sourceLine), Holds step) ∧
        ∀ step ∈ steps cursor.sourceColumn (line.map Segment.sourceColumn), Holds step := by
  induction line generalizing cursor with
  | nil => simp [pieceDifferences, steps]
  | cons segment line induction =>
      rw [List.forall_mem_cons] at modest
      have after : ModestCursor (cursor.after segment).unplaced := cursorModest.after modest.1
      rw [pieceDifferences, List.forall_mem_cons, induction after modest.2,
        forall_differences_iff_place ofSmall cursorModest modest.1, List.map_cons, List.map_cons,
        steps, steps, List.forall_mem_cons, List.forall_mem_cons]
      exact and_and_and_comm

theorem forall_differencesFrom_iff {cursor : Cursor} {lines : Mappings}
    (cursorModest : ModestCursor cursor.unplaced)
    (modest : ∀ line ∈ lines, ∀ segment ∈ line, ModestSegment (unplaced segment)) :
    (∀ pieces ∈ differencesFrom cursor lines, ∀ differences ∈ pieces, ∀ value ∈ differences,
        Holds value) ↔
      (∀ step ∈ steps cursor.sourceLine (lines.flatten.map Segment.sourceLine), Holds step) ∧
        ∀ step ∈ steps cursor.sourceColumn (lines.flatten.map Segment.sourceColumn),
          Holds step := by
  induction lines generalizing cursor with
  | nil => simp [differencesFrom, steps]
  | cons line lines induction =>
      rw [List.forall_mem_cons] at modest
      have nextModest : ModestCursor cursor.nextLine.unplaced := cursorModest.nextLine
      have behind : ModestCursor (line.foldl Cursor.after cursor.nextLine).unplaced := by
        rw [unplaced_foldl_after]
        exact nextModest.foldl_after (List.forall_mem_map.mpr modest.1)
      have lineBehind : (line.foldl Cursor.after cursor.nextLine).sourceLine =
          (line.map Segment.sourceLine).getLastD cursor.sourceLine :=
        foldl_after_getLastD (fun _ _ => rfl) cursor.nextLine line
      have columnBehind : (line.foldl Cursor.after cursor.nextLine).sourceColumn =
          (line.map Segment.sourceColumn).getLastD cursor.sourceColumn :=
        foldl_after_getLastD (fun _ _ => rfl) cursor.nextLine line
      rw [differencesFrom, List.forall_mem_cons, induction behind modest.2,
        forall_pieceDifferences_iff ofSmall nextModest modest.1, List.flatten_cons,
        List.map_append, List.map_append, steps_append, steps_append, List.forall_mem_append,
        List.forall_mem_append, lineBehind, columnBehind]
      exact and_and_and_comm

theorem forall_allDifferences_iff {lines : Mappings}
    (modest : ∀ line ∈ lines, ∀ segment ∈ line, ModestSegment (unplaced segment)) :
    (∀ pieces ∈ allDifferences lines, ∀ differences ∈ pieces, ∀ value ∈ differences,
        Holds value) ↔
      ∀ step ∈ placeSteps lines, Holds step := by
  rw [allDifferences_eq, placeSteps, List.forall_mem_append]
  exact forall_differencesFrom_iff ofSmall modestCursor_start modest

end Places

theorem SameLines.forall_segment {Holds : Segment → Prop} {left right : Mappings}
    (same : SameLines left right) (holds : ∀ line ∈ right, ∀ segment ∈ line, Holds segment) :
    ∀ line ∈ left, ∀ segment ∈ line, Holds segment := by
  intro line member segment inside
  obtain ⟨number, bound, rfl⟩ := List.getElem_of_mem member
  have equality := same number
  rw [List.getD_eq_getElem _ _ bound] at equality
  rw [equality, List.getD_eq_getElem?_getD] at inside
  cases found : right[number]? with
  | none => simp [found] at inside
  | some other =>
      rw [found, Option.getD_some] at inside
      exact holds other (List.mem_of_getElem? found) segment inside

end Mappings

namespace SourceMap

open Mappings (Writes SameLines placeSteps)

/-- Composing the map of an overlay with a parent ends exactly when all steps between the places it
has built can be written; it gives no answer otherwise.  These places are read back exactly when
all steps are small.  A document is held in memory, so it has less than 2^63 bytes. -/
theorem compose_ends_iff {overlay : Overlay} (options : Overlay.MapOptions) {document : Bytes}
    {parent : SourceMap} {parentLines : Mappings}
    (sourceSmall : overlay.source.length < 2 ^ 60) (outputSmall : overlay.render.length < 2 ^ 60)
    (documentSmall : document.length < 2 ^ 63) (parsed : parse document = .ok parent)
    (parentDecoded : parent.decode = .ok parentLines) :
    ∃ lines, (overlay.map options).decode = .ok lines ∧
      SameLines lines (overlay.mappings options.everyCharacter) ∧
      let built := composedLines (overlay.map options) parent parentLines lines
      ((∃ text, Writes built text) ↔ ∀ step ∈ placeSteps built, Vlq.Writable step) ∧
        ((overlay.map options).compose document = .error .endless ↔
          ¬∃ text, Writes built text) ∧
        ∀ text, Writes built text →
          ∃ map read, (overlay.map options).compose document = .ok map ∧ map.mappings = text ∧
            map.decode = .ok read ∧
            (SameLines read built ↔ ∀ step ∈ placeSteps built, Vlq.Small step) := by
  have bounds := two_mul_length_le_of_parse parsed
  have sourcesBounded : parent.sourceList.length < 2 ^ 62 := by omega
  have namesBounded : (namePool (overlay.map options) parent).length < 2 ^ 62 := by
    have nameless : (overlay.map options).nameList = [] := rfl
    rw [namePool, nameless, List.append_nil]
    omega
  have modest := @Overlay.modest_of_mem_mappings overlay options.everyCharacter sourceSmall
    outputSmall
  obtain ⟨lines, decoded, same⟩ := Mappings.exists_sameLines_of_modest modest
  change (overlay.map options).decode = .ok lines at decoded
  have columns := same.forall_segment fun line member segment inside =>
    (modest line member segment inside).generatedColumn
  refine ⟨lines, decoded, same, ?_⟩
  intro built
  -- Of a composed segment only the place is taken over from the parent without a bound.
  have unplacedModest : ∀ line ∈ built, ∀ segment ∈ line,
      Mappings.ModestSegment (Mappings.unplaced segment) := by
    intro line member segment inside
    obtain ⟨column, source, name, -⟩ :=
      composeLines_fields sourcesBounded namesBounded columns line member segment inside
    exact ⟨column, source, Mappings.modest_zero, Mappings.modest_zero, name⟩
  refine ⟨?_, ?_, ?_⟩
  · rw [Mappings.exists_writes_iff]
    exact Mappings.forall_allDifferences_iff (fun value small => .inl small) unplacedModest
  · rw [compose_eq parsed parentDecoded decoded]
    simp only [← Mappings.encode?_eq_some_iff]
    change _ ↔ ¬∃ text, Mappings.encode? (composedLines _ _ _ _) = some text
    split
    · next unwritten => simp [unwritten]
    · next written => simp [written]
  · intro text writes
    obtain ⟨read, readDecoded, restored⟩ := writes.restored_iff
    have composed := compose_eq_ok parsed parentDecoded decoded
      (Mappings.encode?_eq_some_iff.mpr writes)
    refine ⟨_, read, composed, writes.encode_eq, ?_, ?_⟩
    · rw [decode, composedMap]
      exact writes.encode_eq.symm ▸ readDecoded
    · rw [restored]
      exact Mappings.forall_allDifferences_iff (fun value small => small) unplacedModest

def lengthened : Overlay :=
  ⟨utf8 "ab", [⟨Span.ofOffsets 0 1, utf8 "cd"⟩]⟩

def lengthenedMap : SourceMap :=
  lengthened.map ⟨utf8 "b.js", utf8 "b.js", false, true⟩

def documentOf (mappings : Bytes) : Bytes :=
  utf8 "\x7b\"version\":3,\"sources\":[\"a.ts\"],\"names\":[],\"mappings\":\"" ++ mappings
    ++ utf8 "\"\x7d"

/-- Two segments, each as many lines below the last as can be written in one step. -/
def farMappings : Bytes :=
  utf8 "AA+///////////HA,CA+///////////HA"

/-- Places at the end of the words are read back when the steps to them are small. -/
theorem compose_ends_iff_far :
    ∃ map read, lengthenedMap.compose (documentOf farMappings) = .ok map ∧
      map.decode = .ok read ∧
      read.getD 0 [] =
        [⟨0, 0, 4611686018427387903, 0, -1⟩, ⟨2, 0, 9223372036854775806, 0, -1⟩] := by
  let parentLines : Mappings :=
    [[⟨0, 0, 4611686018427387903, 0, -1⟩, ⟨1, 0, 9223372036854775806, 0, -1⟩]]
  let drawn : Mappings := [[⟨0, 0, 0, 0, -1⟩, ⟨2, 0, 0, 1, -1⟩]]
  let built : Mappings :=
    [[⟨0, 0, 4611686018427387903, 0, -1⟩, ⟨2, 0, 9223372036854775806, 0, -1⟩]]
  have small : ∀ step ∈ placeSteps built, Vlq.Small step := by
    have steps : placeSteps built = [4611686018427387903, 4611686018427387903, 0, 0] := by decide
    rw [steps]
    simp [Vlq.Small]
  obtain ⟨lines, decoded, -, ends, -, restored⟩ :=
    compose_ends_iff ⟨utf8 "b.js", utf8 "b.js", false, true⟩
      (show lengthened.source.length < 2 ^ 60 by decide)
      (show lengthened.render.length < 2 ^ 60 by decide) (by decide +kernel)
      (show parse (documentOf farMappings) = .ok (ofMappings farMappings) by decide +kernel)
      (show (ofMappings farMappings).decode = .ok parentLines by decide +kernel)
  obtain rfl : drawn = lines :=
    Except.ok.inj ((show lengthenedMap.decode = .ok drawn by decide +kernel).symm.trans decoded)
  have composed : composedLines lengthenedMap (ofMappings farMappings) parentLines drawn =
      built := by
    decide +kernel
  rw [lengthenedMap] at composed
  rw [composed] at ends restored
  obtain ⟨text, writes⟩ := ends.mpr fun step member => .inl (small step member)
  obtain ⟨map, read, made, -, readDecoded, same⟩ := restored text writes
  exact ⟨map, read, made, readDecoded, same.mpr small 0⟩

/-- A segment half the words before the first line. -/
def halfwayMappings : Bytes :=
  utf8 "AAggggggggggggIA"

/-- Two segments, the second on the least of all lines. -/
def leastMappings : Bytes :=
  utf8 "AAggggggggggggIA,AAggggggggggggIA"

/-- A line half the words away is written for ever, and the least line is lost. -/
theorem composed_lines_lost :
    (∃ lines parentLines, lengthenedMap.decode = .ok lines ∧
      parse (documentOf halfwayMappings) = .ok (ofMappings halfwayMappings) ∧
      (ofMappings halfwayMappings).decode = .ok parentLines ∧
      ¬∃ text,
        Writes (composedLines lengthenedMap (ofMappings halfwayMappings) parentLines lines)
          text) ∧
    ∃ lines parentLines map read, lengthenedMap.decode = .ok lines ∧
      parse (documentOf leastMappings) = .ok (ofMappings leastMappings) ∧
      (ofMappings leastMappings).decode = .ok parentLines ∧
      lengthenedMap.compose (documentOf leastMappings) = .ok map ∧ map.decode = .ok read ∧
      Writes (composedLines lengthenedMap (ofMappings leastMappings) parentLines lines)
        map.mappings ∧
      ¬SameLines read
        (composedLines lengthenedMap (ofMappings leastMappings) parentLines lines) := by
  let drawn : Mappings := [[⟨0, 0, 0, 0, -1⟩, ⟨2, 0, 0, 1, -1⟩]]
  have decoded : lengthenedMap.decode = .ok drawn := by decide +kernel
  constructor
  · let parentLines : Mappings := [[⟨0, 0, -4611686018427387904, 0, -1⟩]]
    have unwritten : Mappings.encode?
        (composedLines lengthenedMap (ofMappings halfwayMappings) parentLines drawn) = none := by
      decide +kernel
    refine ⟨drawn, parentLines, decoded, by decide +kernel, by decide +kernel, ?_⟩
    rintro ⟨text, writes⟩
    rw [← Mappings.encode?_eq_some_iff, unwritten] at writes
    cases writes
  · let parentLines : Mappings :=
      [[⟨0, 0, -4611686018427387904, 0, -1⟩, ⟨0, 0, -9223372036854775808, 0, -1⟩]]
    let map : SourceMap := { ofMappings (utf8 "AABA,EAAA") with file := utf8 "b.js" }
    let read : Mappings := [[⟨0, 0, 0, 0, -1⟩, ⟨2, 0, 0, 0, -1⟩]]
    have lost : read.getD 0 [] ≠
        (composedLines lengthenedMap (ofMappings leastMappings) parentLines drawn).getD 0 [] := by
      decide +kernel
    refine ⟨drawn, parentLines, map, read, decoded, by decide +kernel, by decide +kernel,
      by decide +kernel, by decide +kernel, ?_, ?_⟩
    · rw [← Mappings.encode?_eq_some_iff]
      decide +kernel
    · intro same
      exact lost (same 0)

end SourceMap

end Reroute
