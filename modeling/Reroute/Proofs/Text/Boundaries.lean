import Mathlib
import Reroute.Proofs.Text.Lines

/-!
# Two ways to count agree on every place

Reading passes the boundaries of a text one rune at a time.  A text can be cut at a boundary
and both parts are read as they stand in the whole, so widths add up there and points go on
from one boundary to the next.

The last line start at or before an offset is found by bisection in the table of starts.  It
stands behind the last line break in front of the offset, so the byte column that a scan of the
text counts is the distance from there, and the point's column is the width of that stretch.
-/

namespace Reroute

namespace Bytes

open Rune

/-- Reading a text comes to an offset between two runes. -/
inductive Boundary : Bytes → Nat → Prop where
  | start (text : Bytes) : Boundary text 0
  | step {first : UInt8} {rest : Bytes} {offset : Nat} :
      Boundary (next first rest).2 offset →
      Boundary (first :: rest) ((next first rest).1.size + offset)

/-- What follows some of the runes of a text is read as the other runes. -/
theorem runes_flatMap_bytes_after {text : Bytes} {before after : List Rune}
    (split : runes text = before ++ after) : runes (after.flatMap Rune.bytes) = after := by
  induction text using textInduction generalizing before with
  | nil =>
      rw [runes_nil] at split
      have empty : after = [] := (List.append_eq_nil_iff.mp split.symm).2
      simp [empty]
  | step first rest induction =>
      cases before with
      | nil =>
          rw [List.nil_append] at split
          rw [← split, flatMap_bytes_runes]
      | cons rune before =>
          rw [runes_cons, List.cons_append, List.cons.injEq] at split
          exact induction split.2

/-- The runes in front of a boundary and those behind it. -/
theorem Boundary.exists_split {text : Bytes} {offset : Nat} (boundary : Boundary text offset) :
    ∃ before after, runes text = before ++ after ∧
      text.take offset = before.flatMap Rune.bytes ∧
      text.drop offset = after.flatMap Rune.bytes ∧ offset ≤ text.length := by
  induction boundary with
  | start text => exact ⟨[], runes text, rfl, by simp, by simp, Nat.zero_le _⟩
  | @step first rest offset boundary induction =>
      obtain ⟨before, after, split, front, back, inside⟩ := induction
      refine ⟨(next first rest).1 :: before, after, ?_, ?_, ?_, ?_⟩
      · rw [runes_cons, split, List.cons_append]
      · rw [← bytes_append_next first rest, ← length_bytes, List.take_length_add_append, front,
          List.flatMap_cons]
      · rw [← bytes_append_next first rest, ← length_bytes, List.drop_length_add_append, back]
      · rw [← bytes_append_next first rest, ← length_bytes, List.length_append]
        omega

/-- A text is read in two parts when it is cut at a boundary. -/
theorem Boundary.runes_eq {text : Bytes} {offset : Nat} (boundary : Boundary text offset) :
    runes text = runes (text.take offset) ++ runes (text.drop offset) := by
  obtain ⟨before, after, split, front, back, -⟩ := boundary.exists_split
  rw [front, back, runes_flatMap_bytes split, runes_flatMap_bytes_after split, split]

theorem Boundary.utf16Length_eq {text : Bytes} {offset : Nat} (boundary : Boundary text offset) :
    utf16Length text = utf16Length (text.take offset) + utf16Length (text.drop offset) := by
  rw [utf16Length_eq_sum, utf16Length_eq_sum, utf16Length_eq_sum, boundary.runes_eq,
    List.map_append, List.sum_append]

/-- Behind a boundary the text in front of a later one goes on with at least one rune. -/
theorem Boundary.exists_runes_between {text : Bytes} {left right : Nat}
    (leftBoundary : Boundary text left) (rightBoundary : Boundary text right)
    (ordered : left < right) :
    ∃ rune between, runes (text.take right) = runes (text.take left) ++ rune :: between := by
  obtain ⟨before, after, split, front, -, -⟩ := leftBoundary.exists_split
  obtain ⟨further, behind, furtherSplit, furtherFront, -, inside⟩ := rightBoundary.exists_split
  have leftLength : (before.flatMap Rune.bytes).length = left := by
    rw [← front, List.length_take]
    omega
  have rightLength : (further.flatMap Rune.bytes).length = right := by
    rw [← furtherFront, List.length_take]
    omega
  rw [front, furtherFront, runes_flatMap_bytes split, runes_flatMap_bytes furtherSplit]
  rcases List.append_eq_append_iff.mp (split.symm.trans furtherSplit) with
    ⟨between, rfl, -⟩ | ⟨between, rfl, -⟩
  · cases between with
    | nil =>
        rw [List.append_nil, leftLength] at rightLength
        omega
    | cons rune between => exact ⟨rune, between, rfl⟩
  · rw [List.flatMap_append, List.length_append] at leftLength
    omega

end Bytes

namespace Point

theorem rank_lt_advance (point : Point) (rune : Rune) : point.rank < (point.advance rune).rank := by
  rw [rank, rank, Prod.Lex.lt_iff]
  by_cases broken : rune = .char '\n'
  · left
    simp [broken, advance_newline]
  · right
    have positive := rune.units_pos
    simp [advance_of_ne broken, positive]

end Point

/-- Points move on from every boundary to the next. -/
theorem LineIndex.rank_point_lt {text : Bytes} {left right : Nat}
    (leftBoundary : text.Boundary left) (rightBoundary : text.Boundary right)
    (ordered : left < right) :
    ((ofContent text).point left).rank < ((ofContent text).point right).rank := by
  obtain ⟨-, -, -, -, -, inside⟩ := rightBoundary.exists_split
  obtain ⟨rune, between, further⟩ := leftBoundary.exists_runes_between rightBoundary ordered
  rw [point_take text left (by omega), point_take text right inside, further,
    Point.advanceAll_append, Point.advanceAll_cons]
  exact (Point.rank_lt_advance _ rune).trans_le (Point.rank_le_advanceAll _ between)

namespace LineColumn

theorem advanceAll_append (place : LineColumn) (front tail : Bytes) :
    place.advanceAll (front ++ tail) = (place.advanceAll front).advanceAll tail :=
  List.foldl_append

theorem advanceAll_cons (place : LineColumn) (byte : UInt8) (text : Bytes) :
    place.advanceAll (byte :: text) = (place.advance byte).advanceAll text := rfl

theorem advance_newline (place : LineColumn) :
    place.advance Bytes.newline = ⟨place.line + 1, 1⟩ := rfl

theorem advanceAll_of_visible {text : Bytes} (visible : Bytes.newline ∉ text)
    (place : LineColumn) :
    place.advanceAll text = ⟨place.line, place.column + text.length⟩ := by
  induction text generalizing place with
  | nil => simp [advanceAll]
  | cons byte text induction =>
      rw [List.mem_cons, not_or] at visible
      have moved : place.advance byte = ⟨place.line, place.column + 1⟩ := by
        simp [advance, Ne.symm visible.1]
      rw [advanceAll_cons, moved, induction visible.2, List.length_cons, Nat.cast_succ, mk.injEq]
      refine ⟨rfl, ?_⟩
      dsimp only
      omega

theorem advanceAll_line (place : LineColumn) (text : Bytes) :
    (place.advanceAll text).line = place.line + text.count Bytes.newline := by
  induction text generalizing place with
  | nil => simp [advanceAll]
  | cons byte text induction =>
      rw [advanceAll_cons, induction, List.count_cons, advance]
      by_cases broken : byte = Bytes.newline
      · simp only [broken, BEq.refl, if_true, Nat.cast_add, Nat.cast_one]
        omega
      · simp [broken]

end LineColumn

namespace LineIndex

/-- The places that a line index and a scan name for an offset, which is brought into the text
first and whose line starts at `start`. -/
structure Counted (content : Bytes) (offset : Int) (reached start : Nat) : Prop where
  start_eq :
    (ofContent content).lineStart? ((ofContent content).point offset).line = some start
  start_le : start ≤ reached
  line_eq : ((ofContent content).point offset).line = (content.take reached).count Bytes.newline
  column_eq :
    ((ofContent content).point offset).column = (content.slice start reached).utf16Length
  place_eq :
    LineColumn.ofOffset content offset =
      ⟨((ofContent content).point offset).line + 1, (reached : Int) - start + 1⟩

theorem lineStart?_front (front tail : Bytes) :
    (ofContent (front ++ tail)).lineStart? (front.count Bytes.newline : Nat) =
      some ((ofContent (front ++ tail)).starts.getD (front.count Bytes.newline) 0) := by
  have inside : front.count Bytes.newline < (ofContent (front ++ tail)).starts.size := by
    rw [starts_split, List.size_toArray, List.length_append, List.length_cons,
      length_startsBehind]
    omega
  rw [lineStart?, if_neg (by omega), Int.toNat_natCast, Array.getElem?_eq_getElem inside,
    Array.getD, dif_pos inside]
  rfl

theorem ofOffset_front (front tail : Bytes) :
    LineColumn.ofOffset (front ++ tail) front.length = LineColumn.start.advanceAll front := by
  rw [LineColumn.ofOffset, Int.toNat_natCast, List.take_left]

theorem exists_counted_front (front tail : Bytes) :
    ∃ start, Counted (front ++ tail) front.length front.length start := by
  -- The offset is on the first line, or on the one behind the last line break in front of it.
  rcases Bytes.exists_lastLine front with visible | ⟨before, line, rfl, visible⟩
  · refine ⟨0, ?_, Nat.zero_le _, ?_, ?_, ?_⟩
    · rw [point_front, lineStart?_front, getD_starts_of_visible tail visible]
    · rw [point_front, List.take_left]
    · rw [point_front, getD_starts_of_visible tail visible]
    · rw [ofOffset_front, LineColumn.advanceAll_of_visible visible, point_front,
        List.count_eq_zero.mpr visible, LineColumn.start, LineColumn.mk.injEq]
      dsimp only
      omega
  · refine ⟨before.length + 1, ?_, ?_, ?_, ?_, ?_⟩
    · rw [point_front, lineStart?_front, getD_starts_of_line before tail visible]
    · rw [List.length_append, List.length_cons]
      omega
    · rw [point_front, List.take_left]
    · rw [point_front, getD_starts_of_line before tail visible]
    · rw [ofOffset_front, point_front, LineColumn.advanceAll_append, LineColumn.advanceAll_cons,
        LineColumn.advanceAll_of_visible visible, LineColumn.advance_newline,
        LineColumn.advanceAll_line, LineColumn.mk.injEq, List.count_append,
        List.count_cons_self, List.count_eq_zero.mpr visible, List.length_append,
        List.length_cons]
      dsimp only [LineColumn.start]
      omega

theorem exists_counted (content : Bytes) (offset : Int) :
    ∃ start, Counted content offset (min offset.toNat content.length) start := by
  have samePoint := point_clamp content offset
  have samePlace : LineColumn.ofOffset content offset =
      LineColumn.ofOffset content (min offset.toNat content.length : Nat) := by
    rw [LineColumn.ofOffset, LineColumn.ofOffset, Int.toNat_natCast, ← List.take_eq_take_min]
  have inside : min offset.toNat content.length ≤ content.length := Nat.min_le_right _ _
  generalize min offset.toNat content.length = reached at samePoint samePlace inside ⊢
  have counted := exists_counted_front (content.take reached) (content.drop reached)
  rw [List.take_append_drop, List.length_take_of_le inside] at counted
  obtain ⟨start, counted⟩ := counted
  refine ⟨start, ?_, counted.start_le, ?_, ?_, ?_⟩
  · rw [samePoint, counted.start_eq]
  · rw [samePoint, counted.line_eq]
  · rw [samePoint, counted.column_eq]
  · rw [samePlace, samePoint, counted.place_eq]

/-- The line index, the scan and the reading of a text name the same places. -/
theorem positions_agree (content : Bytes) :
    (∀ offset : Int, ∃ start, Counted content offset (min offset.toNat content.length) start) ∧
      (∀ offset, content.Boundary offset →
        content.utf16Length =
          Bytes.utf16Length (content.take offset) + Bytes.utf16Length (content.drop offset)) ∧
      (∀ left right, content.Boundary left → content.Boundary right → left < right →
        ((ofContent content).point left).rank < ((ofContent content).point right).rank) := by
  refine ⟨exists_counted content, ?_, ?_⟩
  · intro offset boundary
    exact boundary.utf16Length_eq
  · intro left right leftBoundary rightBoundary ordered
    exact rank_point_lt leftBoundary rightBoundary ordered

end LineIndex

end Reroute
