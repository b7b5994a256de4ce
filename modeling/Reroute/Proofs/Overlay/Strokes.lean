import Mathlib
import Reroute.Overlay.Mapping
import Reroute.Proofs.SourceMap.Coverage
import Reroute.Proofs.SourceMap.RoundTrip
import Reroute.Proofs.Text.Places

/-!
# What a pen leaves behind

Walking the pieces of an output is drawing one stroke after the other: a rune, the point
of the source it is tied to, and whether it is marked.  The segments of a generated line
are then the marks among the strokes of that line, in order, each at the column its stroke
starts at.

A stroke that is not a line break is covered by the last mark on its line so far.  Whether
that mark carries the point of the stroke itself depends only on the strokes before it.
-/

namespace Reroute

namespace Overlay

/-- One rune of the output, the point of the source it is tied to, and whether it is
marked.  Line breaks are never marked, whatever is said of them. -/
structure Stroke where
  rune : Rune
  source : Point
  marked : Bool

/-- The strokes for some runes.  A rune is marked when every rune is, and where a mark is
due: at the start, as far as `fresh` says so, and behind every line break. -/
def strokesOf (move : Point → Rune → Point) (everyCharacter : Bool) (point : Point)
    (fresh : Bool) : List Rune → List Stroke
  | [] => []
  | rune :: runes =>
      ⟨rune, point, everyCharacter || fresh⟩
        :: strokesOf move everyCharacter (move point rune) (rune == .char '\n') runes

def Piece.strokes (index : LineIndex) (everyCharacter : Bool) (piece : Piece) :
    List Stroke :=
  let point := index.point piece.source.start
  match piece.origin with
  | .source => strokesOf Point.advance everyCharacter point true piece.text.runes
  | .edit => strokesOf (fun point _ => point) false point true piece.text.runes

namespace Pen

def place (pen : Pen) : Point :=
  ⟨pen.line, pen.column⟩

def draw (pen : Pen) (stroke : Stroke) : Pen :=
  if stroke.rune == .char '\n' then pen.nextLine
  else (if stroke.marked then pen.mark stroke.source else pen).move stroke.rune

theorem walkSource_eq_foldl_draw (everyCharacter : Bool) (pen : Pen) (point : Point)
    (fresh : Bool) (runes : List Rune) :
    pen.walkSource everyCharacter point fresh runes =
      (strokesOf Point.advance everyCharacter point fresh runes).foldl draw pen := by
  induction runes generalizing pen point fresh with
  | nil => rfl
  | cons rune runes induction =>
      by_cases broken : rune = .char '\n'
      · subst broken
        simp [walkSource, strokesOf, draw, Point.advance, induction]
      · simp [walkSource, strokesOf, draw, Point.advance, induction,
          beq_false_of_ne broken]

theorem walkEdit_eq_foldl_draw (pen : Pen) (point : Point) (fresh : Bool)
    (runes : List Rune) :
    pen.walkEdit point fresh runes =
      (strokesOf (fun point _ => point) false point fresh runes).foldl draw pen := by
  induction runes generalizing pen fresh with
  | nil => rfl
  | cons rune runes induction =>
      by_cases broken : rune = .char '\n'
      · subst broken
        simp [walkEdit, strokesOf, draw, induction]
      · simp [walkEdit, strokesOf, draw, induction, beq_false_of_ne broken]

theorem foldl_walk (index : LineIndex) (everyCharacter : Bool) (pen : Pen)
    (pieces : List Piece) :
    pieces.foldl (walk index everyCharacter) pen =
      (pieces.flatMap (Piece.strokes index everyCharacter)).foldl draw pen := by
  induction pieces generalizing pen with
  | nil => rfl
  | cons piece pieces induction =>
      have walked : pen.walk index everyCharacter piece =
          (piece.strokes index everyCharacter).foldl draw pen := by
        unfold walk Piece.strokes
        cases piece.origin with
        | source => exact walkSource_eq_foldl_draw everyCharacter pen _ true _
        | edit => exact walkEdit_eq_foldl_draw pen _ true _
      rw [List.foldl_cons, walked, induction, List.flatMap_cons, List.foldl_append]

end Pen

/-- A column of the output and the point of the source it is tied to. -/
structure Mark where
  column : Nat
  source : Point

def Mark.segment (mark : Mark) : Segment :=
  { generatedColumn := Int64.ofNat mark.column
    sourceIndex := 0
    sourceLine := Int64.ofNat mark.source.line
    sourceColumn := Int64.ofNat mark.source.column
    nameIndex := Segment.noName }

/-- The marks that strokes leave on a line when they are drawn from a place on. -/
def marksOn (line : Nat) (place : Point) : List Stroke → List Mark
  | [] => []
  | stroke :: strokes =>
      (if stroke.marked && stroke.rune != .char '\n' && place.line == line then
          [⟨place.column, stroke.source⟩]
        else [])
        ++ marksOn line (place.advance stroke.rune) strokes

/-- The place behind some strokes. -/
def behindStrokes (place : Point) (strokes : List Stroke) : Point :=
  place.advanceAll (strokes.map Stroke.rune)

namespace Pen

theorem place_draw (pen : Pen) (stroke : Stroke) :
    (pen.draw stroke).place = pen.place.advance stroke.rune := by
  by_cases broken : stroke.rune = .char '\n'
  · simp [draw, broken, nextLine, place, Point.advance]
  · by_cases marked : stroke.marked = true
    · simp [draw, broken, marked, move, mark, place, Point.advance]
    · simp [draw, broken, marked, move, place, Point.advance]

theorem lineAt_draw (pen : Pen) (stroke : Stroke) (line : Nat) :
    (pen.draw stroke).builder.lineAt line =
      pen.builder.lineAt line ++ (marksOn line pen.place [stroke]).map Mark.segment := by
  by_cases broken : stroke.rune = .char '\n'
  · simp [draw, broken, nextLine, marksOn]
  · by_cases marked : stroke.marked = true
    · by_cases here : pen.line = line
      · simp [draw, broken, marked, move, mark, marksOn, place, here, Builder.lineAt_add,
          Mark.segment]
      · simp [draw, broken, marked, move, mark, marksOn, place, here, Ne.symm here,
          Builder.lineAt_add]
    · simp [draw, broken, marked, move, marksOn]

/-- The segments of a line are the marks that were drawn on it. -/
theorem lineAt_foldl_draw (pen : Pen) (strokes : List Stroke) (line : Nat) :
    (strokes.foldl draw pen).builder.lineAt line =
      pen.builder.lineAt line ++ (marksOn line pen.place strokes).map Mark.segment := by
  induction strokes generalizing pen with
  | nil => simp [marksOn]
  | cons stroke strokes induction =>
      rw [List.foldl_cons, induction, lineAt_draw, place_draw]
      simp [marksOn]

end Pen

theorem marksOn_append (line : Nat) (place : Point) (before after : List Stroke) :
    marksOn line place (before ++ after) =
      marksOn line place before ++ marksOn line (behindStrokes place before) after := by
  induction before generalizing place with
  | nil => simp [marksOn, behindStrokes]
  | cons stroke before induction =>
      rw [List.cons_append, marksOn, induction, marksOn, List.append_assoc]
      rfl

theorem behindStrokes_append (place : Point) (before after : List Stroke) :
    behindStrokes place (before ++ after) =
      behindStrokes (behindStrokes place before) after := by
  simp [behindStrokes]

theorem line_le_behindStrokes (place : Point) (strokes : List Stroke) :
    place.line ≤ (behindStrokes place strokes).line := by
  rw [behindStrokes, Point.advanceAll_line]
  exact Nat.le_add_right _ _

/-- Nothing is marked on lines the pen has left. -/
theorem marksOn_of_line_lt {line : Nat} {place : Point} (left : line < place.line)
    (strokes : List Stroke) : marksOn line place strokes = [] := by
  induction strokes generalizing place with
  | nil => rfl
  | cons stroke strokes induction =>
      have later : line < (place.advance stroke.rune).line :=
        Nat.lt_of_lt_of_le left (line_le_behindStrokes place [stroke])
      have elsewhere : place.line ≠ line := by omega
      simp [marksOn, elsewhere, induction later]

/-- Nothing is marked on lines the pen has not reached. -/
theorem marksOn_of_lt_line {line : Nat} {place : Point} {strokes : List Stroke}
    (ahead : (behindStrokes place strokes).line < line) :
    marksOn line place strokes = [] := by
  induction strokes generalizing place with
  | nil => rfl
  | cons stroke strokes induction =>
      have here := line_le_behindStrokes place (stroke :: strokes)
      have elsewhere : place.line ≠ line := by omega
      simp [marksOn, elsewhere, induction ahead]

/-- Marks on the pen's own line stand at or behind the pen. -/
theorem column_le_of_mem_marksOn {line : Nat} {place : Point} {strokes : List Stroke}
    {mark : Mark} (member : mark ∈ marksOn line place strokes) (here : place.line = line) :
    place.column ≤ mark.column := by
  induction strokes generalizing place with
  | nil => simp [marksOn] at member
  | cons stroke strokes induction =>
      rw [marksOn, List.mem_append] at member
      rcases member with first | later
      · split at first
        · rw [List.mem_singleton.mp first]
        · simp at first
      · by_cases broken : stroke.rune = .char '\n'
        · rw [marksOn_of_line_lt (by simp [broken, Point.advance_newline, here])] at later
          simp at later
        · rw [Point.advance_of_ne broken] at later
          have bound := induction later here
          exact Nat.le_trans (Nat.le_add_right _ _) bound

theorem column_le_behindStrokes {place : Point} {strokes : List Stroke}
    (same : (behindStrokes place strokes).line = place.line) :
    place.column ≤ (behindStrokes place strokes).column := by
  have visible : .char '\n' ∉ strokes.map Stroke.rune := by
    rw [behindStrokes, Point.advanceAll_line] at same
    exact List.count_eq_zero.mp (by omega)
  rw [behindStrokes, Point.advanceAll_of_visible visible]
  exact Nat.le_add_right _ _

/-- Marks on the line the pen ends on stand at or before its end. -/
theorem column_le_end_of_mem_marksOn {place : Point} {strokes : List Stroke} {mark : Mark}
    (member : mark ∈ marksOn (behindStrokes place strokes).line place strokes) :
    mark.column ≤ (behindStrokes place strokes).column := by
  induction strokes generalizing place with
  | nil => simp [marksOn] at member
  | cons stroke strokes induction =>
      rw [marksOn, List.mem_append] at member
      rcases member with first | later
      · split at first
        · next conditions =>
            rw [List.mem_singleton.mp first]
            simp only [Bool.and_eq_true, beq_iff_eq] at conditions
            exact column_le_behindStrokes conditions.2.symm
        · simp at first
      · exact induction later

/-- The point carried by the last mark on the current line, after one more stroke. -/
def settle (current : Option Point) (stroke : Stroke) : Option Point :=
  if stroke.rune == .char '\n' then none
  else if stroke.marked then some stroke.source
  else current

/-- The last mark on the line that the pen ends on carries the point that the strokes
settle on. -/
theorem getLast?_marksOn (strokes : List Stroke) :
    (marksOn (behindStrokes .origin strokes).line .origin strokes).getLast?.map Mark.source =
      strokes.foldl settle none := by
  induction strokes using List.reverseRecOn with
  | nil => rfl
  | append_singleton strokes stroke induction =>
      rw [behindStrokes_append, marksOn_append, List.foldl_append, List.foldl_cons,
        List.foldl_nil, ← induction]
      generalize reached : behindStrokes .origin strokes = place
      by_cases broken : stroke.rune = .char '\n'
      · have nextLine : (behindStrokes place [stroke]).line = place.line + 1 := by
          simp [behindStrokes, broken, Point.advance_newline]
        rw [nextLine, marksOn_of_lt_line (by rw [reached]; exact Nat.lt_succ_self _)]
        simp [marksOn, broken, settle]
      · have sameLine : (behindStrokes place [stroke]).line = place.line := by
          simp [behindStrokes, Point.advance_of_ne broken]
        rw [sameLine]
        by_cases marked : stroke.marked = true
        · simp [marksOn, broken, marked, settle]
        · simp [marksOn, broken, marked, settle]

/-- A mark covers a column among the marks of a line. -/
structure Mark.Covers (marks : List Mark) (column : Nat) (mark : Mark) : Prop where
  split : ∃ left right, marks = left ++ mark :: right ∧
    (∀ other ∈ left, other.column ≤ column) ∧ (∀ other ∈ right, column < other.column)
  starts : mark.column ≤ column

/-- What covers a column among marks also covers it among their segments. -/
theorem Mark.Covers.segment {marks : List Mark} {column : Nat} {mark : Mark}
    (covers : Mark.Covers marks column mark) (small : column < 2 ^ 63)
    (marksSmall : ∀ other ∈ marks, other.column < 2 ^ 63) :
    Reroute.Covers (marks.map Mark.segment) (Int64.ofNat column) mark.segment := by
  obtain ⟨⟨left, right, rfl, before, behind⟩, starts⟩ := covers
  have ordered {lower upper : Nat} (lowerSmall : lower < 2 ^ 63) (upperSmall : upper < 2 ^ 63) :
      Int64.ofNat lower ≤ Int64.ofNat upper ↔ lower ≤ upper := by
    rw [Int64.le_iff_toInt_le, Int64.toInt_ofNat_of_lt lowerSmall,
      Int64.toInt_ofNat_of_lt upperSmall]
    exact Int.ofNat_le
  refine ⟨⟨left.map Mark.segment, right.map Mark.segment, by simp, ?_, ?_⟩, ?_⟩
  · intro other member
    obtain ⟨source, inLeft, rfl⟩ := List.mem_map.mp member
    exact (ordered (marksSmall source (by simp [inLeft])) small).mpr (before source inLeft)
  · intro other member
    obtain ⟨source, inRight, rfl⟩ := List.mem_map.mp member
    rw [← Int64.not_le]
    intro reversed
    have notBehind := (ordered (marksSmall source (by simp [inRight])) small).mp reversed
    exact absurd (behind source inRight) (Nat.not_lt.mpr notBehind)
  · exact (ordered (marksSmall mark (by simp)) small).mpr starts

/-- A stroke whose point the strokes have settled on is covered by a mark with that
point. -/
theorem exists_mark_covers (before : List Stroke) (stroke : Stroke) (after : List Stroke)
    (visible : stroke.rune ≠ .char '\n')
    (settled : (before ++ [stroke]).foldl settle none = some stroke.source) :
    ∃ mark,
      Mark.Covers
        (marksOn (behindStrokes .origin before).line .origin (before ++ stroke :: after))
        (behindStrokes .origin before).column mark ∧
      mark.source = stroke.source := by
  have drawn := getLast?_marksOn (before ++ [stroke])
  have advanced : behindStrokes .origin (before ++ [stroke]) =
      ⟨(behindStrokes .origin before).line,
        (behindStrokes .origin before).column + stroke.rune.units⟩ := by
    rw [behindStrokes_append]
    exact Point.advance_of_ne visible _
  rw [advanced, settled, Option.map_eq_some_iff] at drawn
  obtain ⟨mark, last, source⟩ := drawn
  obtain ⟨left, equality⟩ := List.getLast?_eq_some_iff.mp last
  have notBehind : ∀ other ∈ left ++ [mark],
      other.column ≤ (behindStrokes .origin before).column := by
    intro other member
    rw [← equality, marksOn_append, List.mem_append] at member
    rcases member with earlier | now
    · exact column_le_end_of_mem_marksOn earlier
    · simp only [marksOn, List.append_nil] at now
      split at now
      · rw [List.mem_singleton.mp now]
      · simp at now
  refine ⟨mark, ⟨⟨left, marksOn (behindStrokes .origin before).line
    (behindStrokes .origin (before ++ [stroke])) after, ?_, ?_, ?_⟩, ?_⟩, source⟩
  · rw [show before ++ stroke :: after = (before ++ [stroke]) ++ after by simp, marksOn_append,
      equality]
    simp
  · intro other member
    exact notBehind other (List.mem_append_left _ member)
  · intro other member
    rw [advanced] at member
    have behind := column_le_of_mem_marksOn member rfl
    have width := stroke.rune.units_pos
    simp only at behind
    omega
  · exact notBehind mark (by simp)

/-- The marks of strokes stand where one of the strokes does, with its point. -/
theorem exists_stroke_of_mem_marksOn {line : Nat} {place : Point} {strokes : List Stroke}
    {mark : Mark} (member : mark ∈ marksOn line place strokes) :
    ∃ before stroke after, strokes = before ++ stroke :: after ∧
      stroke.rune ≠ .char '\n' ∧ mark.source = stroke.source ∧
      mark.column = (behindStrokes place before).column := by
  induction strokes generalizing place with
  | nil => simp [marksOn] at member
  | cons stroke strokes induction =>
      rw [marksOn, List.mem_append] at member
      rcases member with first | later
      · split at first
        · next conditions =>
            rw [List.mem_singleton.mp first]
            simp only [Bool.and_eq_true, bne_iff_ne] at conditions
            exact ⟨[], stroke, strokes, rfl, conditions.1.2, rfl, rfl⟩
        · simp at first
      · obtain ⟨before, found, after, rfl, visible, source, column⟩ := induction later
        exact ⟨stroke :: before, found, after, rfl, visible, source, column⟩

end Overlay

end Reroute
