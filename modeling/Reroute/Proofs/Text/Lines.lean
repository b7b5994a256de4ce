import Mathlib
import Reroute.Proofs.SourceMap.Grammar
import Reroute.Proofs.Text.Places

/-!
# Lines and visible characters

A text can be split at its line breaks before or after it is read.  Its visible characters are
those that are no line break, each named by the offset it starts at.  Offsets in front of which
all characters are whole have points in the same order.
-/

namespace Reroute

namespace Bytes

theorem splitOn_eq (separator : UInt8) (text : Bytes) :
    splitOn separator text = List.splitOn separator text := by
  induction text with
  | nil => rfl
  | cons byte text induction =>
      rw [List.splitOn_cons_eq_if_modifyHead, ← induction]
      by_cases found : byte = separator
      · subst found
        rw [splitOn_cons_self, if_pos (BEq.refl byte)]
      · obtain ⟨part, parts, split, consSplit⟩ := splitOn_cons_of_ne found text
        rw [consSplit, split, if_neg (by simpa using found), List.modifyHead_cons]

/-- The lines of a text are read as the lines of its runes. -/
theorem map_runes_splitOn (text : Bytes) :
    (splitOn newline text).map runes = (runes text).splitOn (.char '\n') := by
  rcases exists_lastLine text with visible | ⟨front, line, rfl, visible⟩
  · rw [splitOn_eq, List.splitOn_eq_singleton visible,
      List.splitOn_eq_singleton (newline_not_mem_runes visible)]
    rfl
  · have front := map_runes_splitOn front
    rw [splitOn_eq] at front ⊢
    rw [List.splitOn_append_cons_self, List.map_append, front, runes_append_newline,
      List.splitOn_append_cons_self, List.splitOn_eq_singleton visible,
      List.splitOn_eq_singleton (newline_not_mem_runes visible)]
    rfl
termination_by text.length

theorem splitOn_newline_cons (runes : List Rune) :
    (.char '\n' :: runes).splitOn (.char '\n') = [] :: runes.splitOn (.char '\n') := by
  rw [List.splitOn_cons_eq_if_modifyHead, if_pos (BEq.refl _)]

theorem exists_splitOn_cons {rune : Rune} (visible : rune ≠ .char '\n') (runes : List Rune) :
    ∃ line lines, runes.splitOn (.char '\n') = line :: lines ∧
      (rune :: runes).splitOn (.char '\n') = (rune :: line) :: lines := by
  obtain ⟨line, lines, split⟩ := List.exists_cons_of_ne_nil (List.splitOn_ne_nil (.char '\n') runes)
  refine ⟨line, lines, split, ?_⟩
  rw [List.splitOn_cons_eq_if_modifyHead, split, if_neg (by simpa using visible),
    List.modifyHead_cons]

theorem runes_eq_nil_iff {text : Bytes} : runes text = [] ↔ text = [] := by
  constructor
  · intro unread
    rw [← flatMap_bytes_runes text, unread]
    rfl
  · rintro rfl
    exact runes_nil

/-- The lines of a text that are not empty. -/
def linesWithText (text : Bytes) : Nat :=
  (splitOn newline text).countP fun line => !line.isEmpty

theorem linesWithText_eq (text : Bytes) :
    linesWithText text =
      ((runes text).splitOn (.char '\n')).countP fun line => !line.isEmpty := by
  rw [linesWithText, ← map_runes_splitOn, List.countP_map]
  apply List.countP_congr
  intro line _
  cases line with
  | nil => simp
  | cons byte line => simp [runes_cons]

theorem validUtf8_nil : validUtf8 [] = true := by
  rw [validUtf8, runes_nil]
  rfl

theorem validUtf8_append {front : Bytes} (valid : front.validUtf8 = true) (tail : Bytes) :
    (front ++ tail).validUtf8 = tail.validUtf8 := by
  unfold validUtf8 at valid ⊢
  rw [complete_of_valid valid, List.all_append, valid, Bool.true_and]

/-- The offsets at which the visible characters of some runes start. -/
def visibleFrom (offset : Nat) : List Rune → List Nat
  | [] => []
  | rune :: runes =>
      if rune = .char '\n' then visibleFrom (offset + rune.size) runes
      else offset :: visibleFrom (offset + rune.size) runes

/-- The offsets at which the visible characters of a text start. -/
def visible (text : Bytes) : List Nat :=
  visibleFrom 0 text.runes

theorem visibleFrom_append (offset : Nat) (before after : List Rune) :
    visibleFrom offset (before ++ after) =
      visibleFrom offset before ++ visibleFrom (offset + (before.map Rune.size).sum) after := by
  induction before generalizing offset with
  | nil => rfl
  | cons rune before induction =>
      rw [List.cons_append, visibleFrom, visibleFrom, induction, List.map_cons, List.sum_cons,
        Nat.add_assoc]
      split
      · rfl
      · rfl

/-- A visible character starts behind some whole runes, and there is one more rune behind it. -/
theorem exists_of_mem_visibleFrom {offset found : Nat} {runes : List Rune}
    (member : found ∈ visibleFrom offset runes) :
    ∃ before rune after, runes = before ++ rune :: after ∧
      found = offset + (before.map Rune.size).sum := by
  induction runes generalizing offset with
  | nil => cases member
  | cons rune runes induction =>
      have later (member : found ∈ visibleFrom (offset + rune.size) runes) :
          ∃ before other after, rune :: runes = before ++ other :: after ∧
            found = offset + (before.map Rune.size).sum := by
        obtain ⟨before, other, after, rfl, reached⟩ := induction member
        refine ⟨rune :: before, other, after, rfl, ?_⟩
        rw [reached, List.map_cons, List.sum_cons, Nat.add_assoc]
      rw [visibleFrom] at member
      split at member
      · exact later member
      · rcases List.mem_cons.mp member with rfl | behind
        · exact ⟨[], rune, runes, rfl, rfl⟩
        · exact later behind

theorem visibleFrom_bounds {offset found : Nat} {runes : List Rune}
    (member : found ∈ visibleFrom offset runes) :
    offset ≤ found ∧ found < offset + (runes.map Rune.size).sum := by
  obtain ⟨before, rune, after, rfl, rfl⟩ := exists_of_mem_visibleFrom member
  have positive := rune.size_pos
  rw [List.map_append, List.map_cons, List.sum_append, List.sum_cons]
  omega

theorem ascending_visibleFrom (offset : Nat) (runes : List Rune) :
    (visibleFrom offset runes).Pairwise (· < ·) := by
  induction runes generalizing offset with
  | nil => exact List.Pairwise.nil
  | cons rune runes induction =>
      rw [visibleFrom]
      split
      · exact induction _
      · apply List.Pairwise.cons _ (induction _)
        intro later member
        have behind := (visibleFrom_bounds member).1
        have positive := rune.size_pos
        omega

/-- All characters in front of a visible one are whole, as the text has no others. -/
theorem validUtf8_take_of_mem_visible {text : Bytes} (valid : text.validUtf8 = true)
    {offset : Nat} (member : offset ∈ text.visible) :
    offset ≤ text.length ∧ validUtf8 (text.take offset) = true := by
  obtain ⟨before, rune, after, split, reached⟩ := exists_of_mem_visibleFrom member
  have spelled : text = before.flatMap Rune.bytes ++ (rune :: after).flatMap Rune.bytes := by
    rw [← List.flatMap_append, ← split, flatMap_bytes_runes]
  have front : text.take offset = before.flatMap Rune.bytes := by
    rw [spelled, reached, Nat.zero_add, ← length_flatMap_bytes, List.take_left]
  constructor
  · have bounds := (visibleFrom_bounds member).2
    rw [← length_eq_sum] at bounds
    omega
  · rw [validUtf8, split, List.all_append, Bool.and_eq_true] at valid
    rw [front, validUtf8, runes_flatMap_bytes split]
    exact valid.1

end Bytes

namespace Point

/-- Points in order: by line, and by column on one line. -/
def rank (point : Point) : ℤ ×ₗ ℤ :=
  toLex ((point.line : ℤ), (point.column : ℤ))

theorem rank_le_advance (point : Point) (rune : Rune) : point.rank ≤ (point.advance rune).rank := by
  rw [rank, rank, Prod.Lex.le_iff]
  by_cases broken : rune = .char '\n'
  · left
    simp [broken, advance_newline]
  · right
    simp [advance_of_ne broken]

theorem rank_le_advanceAll (point : Point) (runes : List Rune) :
    point.rank ≤ (point.advanceAll runes).rank := by
  induction runes generalizing point with
  | nil => exact le_rfl
  | cons rune runes induction => exact (point.rank_le_advance rune).trans (induction _)

end Point

/-- Points go on with their offsets, from an offset in front of which all characters are whole. -/
theorem LineIndex.rank_point_le {text : Bytes} {left right : Nat} (ordered : left ≤ right)
    (inside : right ≤ text.length) (whole : Bytes.validUtf8 (text.take left) = true) :
    ((ofContent text).point left).rank ≤ ((ofContent text).point right).rank := by
  have split : text.take right = text.take left ++ (text.take right).drop left := by
    conv_lhs => rw [← List.take_append_drop left (text.take right)]
    rw [List.take_take, Nat.min_eq_left ordered]
  rw [point_take text left (ordered.trans inside), point_take text right inside, split,
    Bytes.complete_of_valid whole, Point.advanceAll_append]
  exact Point.rank_le_advanceAll _ _

end Reroute
