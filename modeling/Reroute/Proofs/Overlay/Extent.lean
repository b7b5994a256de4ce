import Mathlib
import Reroute.Proofs.Overlay.Tracing

/-!
# How far maps reach

The segments of the map of an overlay name columns of its output, and points of its source
that lie behind the start of a piece by no more than the piece is long.  Their fields are thus
bounded by the lengths of the two texts, whatever the edits are and whichever characters are
marked.  Such a map is always read back as it was drawn.
-/

namespace Reroute

namespace Overlay

/-- The pieces spell the output, also where there are no edits. -/
theorem flatMap_text_pieces (overlay : Overlay) :
    overlay.pieces.flatMap Piece.text = overlay.render := by
  unfold render
  by_cases changed : overlay.hasChanged = true
  · rw [if_pos changed]
  · have unedited : overlay.edits = [] := by simpa [hasChanged] using changed
    rw [if_neg changed, pieces, unedited, piecesFrom]
    cases overlay.source with
    | nil => rfl
    | cons byte source => simp

/-- A stroke is tied to a point that lies behind the first by no more than the runes are
long, when no rune moves the point by more than its own length. -/
theorem source_le_of_mem_strokesOf {move : Point → Rune → Point}
    (moves : ∀ point rune, (move point rune).line ≤ point.line + rune.size ∧
      (move point rune).column ≤ point.column + rune.size)
    {everyCharacter fresh : Bool} {point : Point} {runes : List Rune} {stroke : Stroke}
    (member : stroke ∈ strokesOf move everyCharacter point fresh runes) :
    stroke.source.line ≤ point.line + (runes.map Rune.size).sum ∧
      stroke.source.column ≤ point.column + (runes.map Rune.size).sum := by
  induction runes generalizing point fresh with
  | nil => simp [strokesOf] at member
  | cons rune runes induction =>
      rw [List.map_cons, List.sum_cons]
      rcases List.mem_cons.mp member with rfl | later
      · exact ⟨Nat.le_add_right _ _, Nat.le_add_right _ _⟩
      · have step := moves point rune
        have bounds := induction later
        omega

theorem source_le_of_mem_strokes {source : Bytes} {everyCharacter : Bool} {piece : Piece}
    {stroke : Stroke}
    (member : stroke ∈ piece.strokes (LineIndex.ofContent source) everyCharacter) :
    stroke.source.line ≤ source.length + piece.text.length ∧
      stroke.source.column ≤ source.length + piece.text.length := by
  have start := LineIndex.point_le source piece.source.start
  rw [Bytes.length_eq_sum piece.text]
  unfold Piece.strokes at member
  cases origin : piece.origin with
  | source =>
      simp only [origin] at member
      have bounds := source_le_of_mem_strokesOf (fun point rune => by
        simpa using point.advanceAll_le [rune]) member
      omega
  | edit =>
      simp only [origin] at member
      have bounds := source_le_of_mem_strokesOf (fun point rune => by simp) member
      omega

def strokes (overlay : Overlay) (everyCharacter : Bool) : List Stroke :=
  overlay.pieces.flatMap (Piece.strokes (LineIndex.ofContent overlay.source) everyCharacter)

theorem width_overlay_strokes (overlay : Overlay) (everyCharacter : Bool) :
    width (overlay.strokes everyCharacter) = overlay.render.length := by
  rw [← flatMap_text_pieces, strokes]
  induction overlay.pieces with
  | nil => rfl
  | cons piece pieces induction =>
      rw [List.flatMap_cons, List.flatMap_cons, width_append, width_strokes, List.length_append,
        induction]

variable {overlay : Overlay} {everyCharacter : Bool}

theorem text_length_le {piece : Piece} (member : piece ∈ overlay.pieces) :
    piece.text.length ≤ overlay.render.length := by
  rw [← flatMap_text_pieces]
  exact (List.sublist_flatten_of_mem (List.mem_map_of_mem member)).length_le

/-- Marks stand on columns of the output and name points that the two texts bound. -/
theorem mark_le {line : Nat} {mark : Mark}
    (member : mark ∈ marksOn line .origin (overlay.strokes everyCharacter)) :
    mark.column ≤ overlay.render.length ∧
      mark.source.line ≤ overlay.source.length + overlay.render.length ∧
      mark.source.column ≤ overlay.source.length + overlay.render.length := by
  obtain ⟨before, stroke, after, split, -, source, column⟩ := exists_stroke_of_mem_marksOn member
  have inside : stroke ∈ overlay.strokes everyCharacter := by
    rw [split]
    simp
  -- The column is reached by the strokes in front; the point is reached inside one piece.
  obtain ⟨piece, pieceMember, strokeMember⟩ := List.mem_flatMap.mp inside
  have text := text_length_le pieceMember
  have bounds := source_le_of_mem_strokes strokeMember
  have total := width_overlay_strokes overlay everyCharacter
  have reached := Point.origin.advanceAll_le (before.map Stroke.rune)
  rw [split, width_append, width, width] at total
  rw [source, column, behindStrokes]
  simp only [Point.origin] at reached ⊢
  omega

theorem modest_of_mem_mappings (sourceSmall : overlay.source.length < 2 ^ 60)
    (outputSmall : overlay.render.length < 2 ^ 60) :
    ∀ line ∈ overlay.mappings everyCharacter, ∀ segment ∈ line,
      Mappings.ModestSegment segment := by
  intro line member segment inside
  obtain ⟨number, rfl⟩ := Builder.exists_lineAt_of_mem_mappings member
  rw [Pen.foldl_walk, Pen.lineAt_foldl_draw, Pen.start, Builder.lineAt_empty, List.nil_append,
    List.mem_map] at inside
  obtain ⟨mark, marked, rfl⟩ := inside
  have bounds := mark_le marked
  exact
    { generatedColumn := Mappings.modest_ofNat (by omega)
      sourceIndex := Mappings.modest_zero
      sourceLine := Mappings.modest_ofNat (by omega)
      sourceColumn := Mappings.modest_ofNat (by omega)
      nameIndex := fun named => absurd rfl named }

end Overlay

end Reroute
