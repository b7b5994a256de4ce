import Mathlib
import Reroute.Position
import Reroute.Proofs.Search
import Reroute.Proofs.Text.Reading

/-!
# Points count runes

The point of an offset in a line index is the point reached by walking the runes in front
of the offset one by one: a line break moves to the start of the next line, any other rune
moves along the line by its width.
-/

namespace Reroute

namespace Point

/-- The point of the first rune of a text. -/
def origin : Point :=
  ⟨0, 0⟩

/-- The point behind a rune. -/
def advance (point : Point) (rune : Rune) : Point :=
  if rune == .char '\n' then ⟨point.line + 1, 0⟩
  else ⟨point.line, point.column + rune.units⟩

/-- The point behind some runes. -/
def advanceAll (point : Point) (runes : List Rune) : Point :=
  runes.foldl advance point

theorem advance_newline (point : Point) :
    point.advance (.char '\n') = ⟨point.line + 1, 0⟩ := by
  simp [advance]

theorem advance_of_ne {rune : Rune} (visible : rune ≠ .char '\n') (point : Point) :
    point.advance rune = ⟨point.line, point.column + rune.units⟩ := by
  simp [advance, visible]

@[simp] theorem advanceAll_nil (point : Point) : point.advanceAll [] = point := rfl

@[simp] theorem advanceAll_cons (point : Point) (rune : Rune) (runes : List Rune) :
    point.advanceAll (rune :: runes) = (point.advance rune).advanceAll runes := rfl

@[simp] theorem advanceAll_append (point : Point) (before after : List Rune) :
    point.advanceAll (before ++ after) = (point.advanceAll before).advanceAll after := by
  simp [advanceAll]

theorem advanceAll_of_visible {runes : List Rune} (visible : .char '\n' ∉ runes)
    (point : Point) :
    point.advanceAll runes = ⟨point.line, point.column + (runes.map Rune.units).sum⟩ := by
  induction runes generalizing point with
  | nil => simp
  | cons rune runes induction =>
      rw [List.mem_cons, not_or] at visible
      rw [advanceAll_cons, advance_of_ne (Ne.symm visible.1), induction visible.2]
      simp [Nat.add_assoc]

theorem advanceAll_line (point : Point) (runes : List Rune) :
    (point.advanceAll runes).line = point.line + runes.count (.char '\n') := by
  induction runes generalizing point with
  | nil => simp
  | cons rune runes induction =>
      rw [advanceAll_cons, induction, List.count_cons]
      by_cases break_ : rune = .char '\n'
      · simp [break_, advance_newline]
        omega
      · simp [advance_of_ne break_, break_]

/-- Neither coordinate grows by more than the runes are long. -/
theorem advanceAll_le (point : Point) (runes : List Rune) :
    (point.advanceAll runes).line ≤ point.line + (runes.map Rune.size).sum ∧
      (point.advanceAll runes).column ≤ point.column + (runes.map Rune.size).sum := by
  induction runes generalizing point with
  | nil => simp
  | cons rune runes induction =>
      have bounds := induction (point.advance rune)
      have positive := rune.size_pos
      have width := rune.units_le_size
      rw [advanceAll_cons, List.map_cons, List.sum_cons]
      by_cases broken : rune = .char '\n'
      · rw [broken, advance_newline] at bounds
        rw [broken, advance_newline]
        rw [broken] at positive
        dsimp only at bounds
        omega
      · rw [advance_of_ne broken] at bounds ⊢
        dsimp only at bounds
        omega

end Point

namespace LineIndex

/-- The offsets behind the line breaks of a text that starts at an offset. -/
def startsBehind (offset : Nat) : Bytes → List Nat
  | [] => []
  | byte :: rest =>
      if byte == Bytes.newline then (offset + 1) :: startsBehind (offset + 1) rest
      else startsBehind (offset + 1) rest

theorem foldl_note (text : Bytes) (offset : Nat) (starts : Array Nat) :
    (text.foldl note (offset, starts)).2 = starts ++ (startsBehind offset text).toArray := by
  induction text generalizing offset starts with
  | nil => simp [startsBehind]
  | cons byte rest induction =>
      by_cases broken : byte == Bytes.newline
      · simp [note, startsBehind, broken, induction]
      · simp [note, startsBehind, broken, induction]

theorem starts_ofContent (content : Bytes) :
    (ofContent content).starts = (0 :: startsBehind 0 content).toArray := by
  simp [ofContent, foldl_note]

theorem startsBehind_append (offset : Nat) (front tail : Bytes) :
    startsBehind offset (front ++ tail) =
      startsBehind offset front ++ startsBehind (offset + front.length) tail := by
  induction front generalizing offset with
  | nil => simp [startsBehind]
  | cons byte front induction =>
      have moved : offset + 1 + front.length = offset + (byte :: front).length := by
        simp only [List.length_cons]
        omega
      rw [List.cons_append, startsBehind, startsBehind, induction, moved]
      split <;> rfl

theorem startsBehind_bounds {offset start : Nat} {text : Bytes}
    (member : start ∈ startsBehind offset text) :
    offset < start ∧ start ≤ offset + text.length := by
  induction text generalizing offset with
  | nil => simp [startsBehind] at member
  | cons byte rest induction =>
      have shifted (later : start ∈ startsBehind (offset + 1) rest) :
          offset < start ∧ start ≤ offset + (byte :: rest).length := by
        have bounds := induction later
        simp only [List.length_cons]
        omega
      rw [startsBehind] at member
      split at member
      · rcases List.mem_cons.mp member with rfl | later
        · simp
        · exact shifted later
      · exact shifted member

theorem startsBehind_of_visible {text : Bytes} (visible : Bytes.newline ∉ text)
    (offset : Nat) : startsBehind offset text = [] := by
  induction text generalizing offset with
  | nil => rfl
  | cons byte rest induction =>
      rw [List.mem_cons, not_or] at visible
      simp [startsBehind, Ne.symm visible.1, induction visible.2]

theorem length_startsBehind (offset : Nat) (text : Bytes) :
    (startsBehind offset text).length = text.count Bytes.newline := by
  induction text generalizing offset with
  | nil => rfl
  | cons byte rest induction =>
      by_cases broken : byte = Bytes.newline
      · simp [startsBehind, broken, induction]
      · simp [startsBehind, broken, induction]

/-- The starts at or before an offset are those of the text in front of it. -/
theorem starts_split (front tail : Bytes) :
    (ofContent (front ++ tail)).starts =
      ((0 :: startsBehind 0 front) ++ startsBehind front.length tail).toArray := by
  rw [starts_ofContent, startsBehind_append, Nat.zero_add, List.cons_append]

theorem lineOf_append (front tail : Bytes) :
    (ofContent (front ++ tail)).lineOf front.length = front.count Bytes.newline := by
  have boundary :
      Search.firstIndex (ofContent (front ++ tail)).starts.size
          (fun line =>
            decide ((ofContent (front ++ tail)).starts.getD line 0 > front.length)) =
        (0 :: startsBehind 0 front).length := by
    rw [starts_split]
    refine Search.firstIndex_append 0 (fun start => decide (start > front.length)) ?_ ?_
    · intro start member
      rw [decide_eq_false_iff_not, gt_iff_lt, Nat.not_lt]
      rcases List.mem_cons.mp member with rfl | later
      · exact Nat.zero_le front.length
      · have bounds := startsBehind_bounds later
        omega
    · intro start member
      exact decide_eq_true (startsBehind_bounds member).1
  rw [lineOf, boundary, List.length_cons, Nat.add_sub_cancel, length_startsBehind]

theorem getD_starts_of_visible (tail : Bytes) {front : Bytes}
    (visible : Bytes.newline ∉ front) :
    (ofContent (front ++ tail)).starts.getD (front.count Bytes.newline) 0 = 0 := by
  rw [List.count_eq_zero.mpr visible, starts_split]
  simp

theorem getD_starts_of_line (front tail : Bytes) {line : Bytes}
    (visible : Bytes.newline ∉ line) :
    (ofContent (front ++ Bytes.newline :: line ++ tail)).starts.getD
        ((front ++ Bytes.newline :: line).count Bytes.newline) 0 =
      front.length + 1 := by
  have starts : startsBehind 0 (front ++ Bytes.newline :: line) =
      startsBehind 0 front ++ [front.length + 1] := by
    rw [startsBehind_append, startsBehind, startsBehind_of_visible visible]
    simp
  have position : (front ++ Bytes.newline :: line).count Bytes.newline =
      (startsBehind 0 front).length + 1 := by
    rw [← length_startsBehind 0, starts]
    simp
  rw [starts_split, starts, position]
  simp

/-- The line of an offset is found by bisection, its column from the start of that line. -/
theorem point_front (front tail : Bytes) :
    (ofContent (front ++ tail)).point front.length =
      ⟨front.count Bytes.newline,
        ((front ++ tail).slice
          ((ofContent (front ++ tail)).starts.getD (front.count Bytes.newline) 0)
          front.length).utf16Length⟩ := by
  have clamped : (ofContent (front ++ tail)).clamp (front.length : Int) = front.length := by
    simp [clamp, ofContent]
  rw [point, clamped, lineOf_append]
  rfl

/-- The point of an offset is the point behind the runes in front of it. -/
theorem point_append (front tail : Bytes) :
    (ofContent (front ++ tail)).point front.length =
      Point.origin.advanceAll (Bytes.runes front) := by
  have lineEquality :
      (Point.origin.advanceAll (Bytes.runes front)).line = front.count Bytes.newline := by
    rw [Point.advanceAll_line, Bytes.count_newline_runes]
    exact Nat.zero_add _
  rw [point_front]
  rcases Bytes.exists_lastLine front with visible | ⟨before, line, rfl, visible⟩
  · rw [getD_starts_of_visible tail visible, List.count_eq_zero.mpr visible,
      Point.advanceAll_of_visible (Bytes.newline_not_mem_runes visible)]
    simp [Bytes.slice, Bytes.utf16Length_eq_sum, Point.origin]
  · rw [getD_starts_of_line before tail visible]
    have cut : (before ++ Bytes.newline :: line ++ tail).slice (before.length + 1)
        (before ++ Bytes.newline :: line).length = line := by
      have rest : before.length + (line.length + 1) - (before.length + 1) = line.length := by
        omega
      simp [Bytes.slice, rest]
    rw [← lineEquality, Bytes.runes_append_newline, Point.advanceAll_append,
      Point.advanceAll_cons, Point.advance_newline,
      Point.advanceAll_of_visible (Bytes.newline_not_mem_runes visible), cut,
      Bytes.utf16Length_eq_sum, Nat.zero_add]

theorem point_take (text : Bytes) (offset : Nat) (inside : offset ≤ text.length) :
    (ofContent text).point offset =
      Point.origin.advanceAll (Bytes.runes (text.take offset)) := by
  have split := point_append (text.take offset) (text.drop offset)
  rwa [List.take_append_drop, List.length_take_of_le inside] at split

theorem point_of_runes {text : Bytes} {before after : List Rune}
    (split : Bytes.runes text = before ++ after) :
    (ofContent text).point ((before.map Rune.size).sum : Nat) =
      Point.origin.advanceAll before := by
  have spelled : text = before.flatMap Rune.bytes ++ after.flatMap Rune.bytes := by
    rw [← List.flatMap_append, ← split, Bytes.flatMap_bytes_runes]
  have reached := point_append (before.flatMap Rune.bytes) (after.flatMap Rune.bytes)
  rwa [← spelled, Bytes.length_flatMap_bytes, Bytes.runes_flatMap_bytes split] at reached

/-- An offset has the same point as the one it is brought to. -/
theorem point_clamp (text : Bytes) (offset : Int) :
    (ofContent text).point offset =
      (ofContent text).point (min offset.toNat text.length : Nat) := by
  have twice : (ofContent text).clamp (min offset.toNat text.length : Nat) =
      (ofContent text).clamp offset := by
    rw [clamp, Int.toNat_natCast]
    exact Nat.min_eq_left (Nat.min_le_right _ _)
  rw [point, point, twice]

/-- The coordinates of a point are no larger than the text is long. -/
theorem point_le (text : Bytes) (offset : Int) :
    ((ofContent text).point offset).line ≤ text.length ∧
      ((ofContent text).point offset).column ≤ text.length := by
  have inside : min offset.toNat text.length ≤ text.length := Nat.min_le_right _ _
  have bounds := Point.origin.advanceAll_le (Bytes.runes (text.take (min offset.toNat text.length)))
  rw [← Bytes.length_eq_sum, List.length_take_of_le inside] at bounds
  rw [point_clamp, point_take text _ inside]
  simp only [Point.origin] at bounds ⊢
  omega

end LineIndex

end Reroute
