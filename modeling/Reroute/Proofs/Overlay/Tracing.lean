import Mathlib
import Reroute.Proofs.Overlay.Cutting
import Reroute.Proofs.Overlay.Strokes

/-!
# Tracing output back to its source

Undoing replacements from left to right traces an offset of the output back to the source.
Every visible stroke of the output settles on the point of the offset it is traced back
to, so the segment that covers its column names that point.

Kept stretches and replacements are traced one by one.  They fit together because the
pattern and the replacement are valid texts: runes never reach across their ends.
-/

namespace Reroute

/-- The source offset of an offset of the output that a rule makes.  The spans are those
of the replaced occurrences; all offsets inside a replacement belong to the start of the
occurrence it replaced. -/
def Rule.origin (rule : Rule) : List Span → Int → Int
  | [], offset => offset
  | span :: spans, offset =>
      if offset < span.start then offset
      else if offset < span.start + rule.replacement.length then span.start
      else rule.origin spans (offset - rule.replacement.length + rule.pattern.length)

namespace Overlay

/-- The number of bytes that strokes stand for. -/
def width (strokes : List Stroke) : Nat :=
  ((strokes.map Stroke.rune).map Rune.size).sum

@[simp] theorem width_nil : width [] = 0 := rfl

@[simp] theorem width_append (left right : List Stroke) :
    width (left ++ right) = width left + width right := by
  simp [width]

@[simp] theorem width_cons (stroke : Stroke) (strokes : List Stroke) :
    width (stroke :: strokes) = stroke.rune.size + width strokes := by
  simp [width]

/-- Every visible stroke settles on its own point, whatever was settled before, and that
point is the one its offset is traced back to. -/
def Traced (index : LineIndex) (trace : Nat → Int) (strokes : List Stroke) : Prop :=
  ∀ before stroke after current,
    strokes = before ++ stroke :: after → stroke.rune ≠ .char '\n' →
      (before ++ [stroke]).foldl settle current = some stroke.source ∧
        stroke.source = index.point (trace (width before))

namespace Traced

variable {index : LineIndex} {trace : Nat → Int} {left right : List Stroke}

theorem nil : Traced index trace [] := by
  intro before stroke after current split
  simp at split

theorem congr {other : Nat → Int} (traced : Traced index trace left)
    (agree : ∀ offset < width left, trace offset = other offset) :
    Traced index other left := by
  intro before stroke after current split visible
  have inside : width before < width left := by
    have positive := stroke.rune.size_pos
    rw [split, width_append, width_cons]
    omega
  rw [← agree _ inside]
  exact traced before stroke after current split visible

theorem append (leftTraced : Traced index trace left)
    (rightTraced : Traced index (fun offset => trace (width left + offset)) right) :
    Traced index trace (left ++ right) := by
  intro before stroke after current split visible
  rcases List.append_eq_append_iff.mp split with ⟨middle, rfl, tail⟩ | ⟨middle, head, tail⟩
  · -- the stroke stands in the right part, behind everything on the left
    have found := rightTraced middle stroke after (left.foldl settle current) tail visible
    dsimp only at found
    rwa [← List.foldl_append, ← List.append_assoc, ← width_append] at found
  · cases middle with
    | nil =>
        rw [List.append_nil] at head
        subst head
        have found := rightTraced [] stroke after (left.foldl settle current) tail.symm visible
        dsimp only at found
        rwa [← List.foldl_append, List.nil_append, width_nil, Nat.add_zero] at found
    | cons first middle =>
        rw [List.cons_append, List.cons.injEq] at tail
        obtain ⟨rfl, rfl⟩ := tail
        exact leftTraced before stroke middle current head visible

end Traced

theorem map_rune_strokesOf (move : Point → Rune → Point) (everyCharacter fresh : Bool)
    (point : Point) (runes : List Rune) :
    (strokesOf move everyCharacter point fresh runes).map Stroke.rune = runes := by
  induction runes generalizing point fresh with
  | nil => rfl
  | cons rune runes induction => simp [strokesOf, induction]

theorem map_rune_strokes (index : LineIndex) (everyCharacter : Bool) (piece : Piece) :
    (piece.strokes index everyCharacter).map Stroke.rune = piece.text.runes := by
  unfold Piece.strokes
  cases piece.origin with
  | source => exact map_rune_strokesOf _ _ _ _ _
  | edit => exact map_rune_strokesOf _ _ _ _ _

theorem width_strokes (index : LineIndex) (everyCharacter : Bool) (piece : Piece) :
    width (piece.strokes index everyCharacter) = piece.text.length := by
  rw [width, map_rune_strokes, ← Bytes.length_eq_sum]

/-- When every rune of the source is marked, a stroke carries the point that walking up to
it leads to. -/
theorem strokesOf_advance_split {point : Point} {fresh : Bool} {runes : List Rune}
    {before after : List Stroke} {stroke : Stroke}
    (split : strokesOf Point.advance true point fresh runes = before ++ stroke :: after) :
    stroke.marked = true ∧ stroke.source = point.advanceAll (before.map Stroke.rune) := by
  induction before generalizing point fresh runes with
  | nil =>
      cases runes with
      | nil => simp [strokesOf] at split
      | cons rune runes =>
          simp only [strokesOf, List.nil_append, List.cons.injEq] at split
          rw [← split.1]
          exact ⟨rfl, rfl⟩
  | cons first before induction =>
      cases runes with
      | nil => simp [strokesOf] at split
      | cons rune runes =>
          simp only [strokesOf, List.cons_append, List.cons.injEq] at split
          obtain ⟨marked, source⟩ := induction split.2
          refine ⟨marked, ?_⟩
          rw [source, ← split.1]
          rfl

/-- Inside an edit a visible stroke settles on the point of the edit, provided that a mark
is due or that this point is settled already. -/
theorem foldl_settle_edit {point : Point} {fresh : Bool} {runes : List Rune}
    {before after : List Stroke} {stroke : Stroke} {current : Option Point}
    (split : strokesOf (fun point _ => point) false point fresh runes =
      before ++ stroke :: after)
    (visible : stroke.rune ≠ .char '\n') (due : fresh = false → current = some point) :
    (before ++ [stroke]).foldl settle current = some stroke.source ∧
      stroke.source = point := by
  induction before generalizing fresh runes current with
  | nil =>
      cases runes with
      | nil => simp [strokesOf] at split
      | cons rune runes =>
          simp only [strokesOf, List.nil_append, List.cons.injEq] at split
          rw [← split.1] at visible ⊢
          cases fresh with
          | false => simpa [settle, visible] using due rfl
          | true => simp [settle, visible]
  | cons first before induction =>
      cases runes with
      | nil => simp [strokesOf] at split
      | cons rune runes =>
          simp only [strokesOf, List.cons_append, List.cons.injEq] at split
          rw [List.cons_append, List.foldl_cons]
          refine induction split.2 ?_
          intro unbroken
          rw [← split.1]
          cases fresh with
          | false => simpa [settle, beq_eq_false_iff_ne.mp unbroken] using due rfl
          | true => simp [settle, beq_eq_false_iff_ne.mp unbroken]

theorem traced_keptPieces {front : Bytes} (complete : Bytes.Complete front)
    (kept tail : Bytes) (output : Nat) :
    Traced (LineIndex.ofContent (front ++ (kept ++ tail)))
      (fun offset => (front.length + offset : Nat))
      ((keptPieces front.length output kept).flatMap
        (Piece.strokes (LineIndex.ofContent (front ++ (kept ++ tail))) true)) := by
  by_cases empty : kept = []
  · simp [empty, keptPieces, Traced.nil]
  · intro before stroke after current split visible
    have walked := split
    simp only [keptPieces, List.isEmpty_iff, empty, if_false, List.flatMap_singleton,
      Piece.strokes, Span.ofOffsets] at walked
    obtain ⟨marked, source⟩ := strokesOf_advance_split walked
    have runes : kept.runes = before.map Stroke.rune ++ (stroke :: after).map Stroke.rune := by
      rw [← List.map_append, ← walked, map_rune_strokesOf]
    have spelled : front ++ (kept ++ tail) =
        (front ++ (before.map Stroke.rune).flatMap Rune.bytes)
          ++ (((stroke :: after).map Stroke.rune).flatMap Rune.bytes ++ tail) := by
      conv_lhs => rw [← Bytes.flatMap_bytes_runes kept, runes, List.flatMap_append]
      simp only [List.append_assoc]
    have reached := LineIndex.point_append (front ++ (before.map Stroke.rune).flatMap Rune.bytes)
      (((stroke :: after).map Stroke.rune).flatMap Rune.bytes ++ tail)
    rw [← spelled, List.length_append, Bytes.length_flatMap_bytes, complete,
      Bytes.runes_flatMap_bytes runes, Point.advanceAll_append,
      ← LineIndex.point_append front (kept ++ tail), ← source] at reached
    refine ⟨?_, reached.symm⟩
    rw [List.foldl_append, List.foldl_cons, List.foldl_nil]
    simp [settle, visible, marked]

/-- All of an edit is traced to the start of the range it replaced. -/
theorem traced_edit (index : LineIndex) (replacement : Bytes) (source output : Span) :
    Traced index (fun _ => source.start)
      (Piece.strokes index true ⟨.edit, replacement, source, output⟩) := by
  intro before stroke after current split visible
  exact foldl_settle_edit split visible (by simp)

end Overlay

namespace Rule

open Overlay

/-- The strokes of the output from a position of the source on. -/
def strokesFrom (rule : Rule) (index : LineIndex) (text : Bytes) (position output : Nat)
    (spans : List Span) : List Stroke :=
  (piecesFrom text position output (editsOf rule.replacement spans)).flatMap
    (Piece.strokes index true)

theorem strokesFrom_occurrence (rule : Rule) (index : LineIndex) (kept text : Bytes)
    (position output : Nat) (spans : List Span) :
    rule.strokesFrom index (kept ++ (rule.pattern ++ text)) position output
        (Span.ofOffsets (position + kept.length) (position + kept.length + rule.pattern.length)
          :: spans) =
      (keptPieces position output kept).flatMap (Piece.strokes index true)
        ++ (Piece.strokes index true
              ⟨.edit, rule.replacement,
                Span.ofOffsets (position + kept.length)
                  (position + kept.length + rule.pattern.length),
                Span.ofOffsets (output + kept.length)
                  (output + kept.length + rule.replacement.length)⟩
          ++ rule.strokesFrom index text (position + kept.length + rule.pattern.length)
              (output + kept.length + rule.replacement.length) spans) := by
  rw [strokesFrom, piecesFrom_occurrence, List.flatMap_append, List.flatMap_cons]
  rfl

theorem map_rune_keptPieces (index : LineIndex) (position output : Nat) (kept : Bytes) :
    ((keptPieces position output kept).flatMap (Piece.strokes index true)).map Stroke.rune =
      kept.runes := by
  cases kept with
  | nil => simp [keptPieces]
  | cons byte kept => simp [keptPieces, map_rune_strokes]

theorem width_keptPieces (index : LineIndex) (position output : Nat) (kept : Bytes) :
    width ((keptPieces position output kept).flatMap (Piece.strokes index true)) =
      kept.length := by
  rw [width, map_rune_keptPieces, ← Bytes.length_eq_sum]

variable {rule : Rule}

theorem map_rune_strokesFrom (nonempty : rule.replacement ≠ [])
    (valid : rule.replacement.validUtf8 = true) (index : LineIndex) {position : Nat}
    {text : Bytes} {spans : List Span} (cut : Cut rule.pattern position text spans)
    (output : Nat) :
    (rule.strokesFrom index text position output spans).map Stroke.rune =
      Bytes.runes
        ((piecesFrom text position output (editsOf rule.replacement spans)).flatMap
          Piece.text) := by
  induction cut generalizing output with
  | rest position text =>
      rw [strokesFrom, show editsOf rule.replacement [] = [] from rfl, piecesFrom_rest,
        flatMap_text_keptPieces, map_rune_keptPieces]
  | @occurrence position text spans kept tail induction =>
      have fresh := Bytes.startsFresh_append (Bytes.startsFresh_of_valid valid) nonempty
      rw [strokesFrom_occurrence, piecesFrom_occurrence, List.flatMap_append,
        flatMap_text_keptPieces, List.flatMap_cons, Bytes.runes_append kept (fresh _),
        Bytes.complete_of_valid valid, List.map_append, List.map_append, map_rune_keptPieces,
        map_rune_strokes, induction]

/-- The strokes of the output are traced back by undoing replacements. -/
theorem traced_strokesFrom (nonempty : rule.pattern ≠ [])
    (valid : rule.pattern.validUtf8 = true) {position : Nat} {text : Bytes}
    {spans : List Span} (cut : Cut rule.pattern position text spans) (output : Nat)
    (front : Bytes) (size : front.length = position) (complete : Bytes.Complete front) :
    Traced (LineIndex.ofContent (front ++ text))
      (fun offset => rule.origin spans (position + offset : Nat))
      (rule.strokesFrom (LineIndex.ofContent (front ++ text)) text position output spans) := by
  induction cut generalizing output front with
  | rest position text =>
      have kept := traced_keptPieces complete text [] output
      rw [List.append_nil, size] at kept
      exact kept
  | @occurrence position text spans kept tail induction =>
      subst size
      rw [strokesFrom_occurrence]
      refine Traced.append ?_ (Traced.append ?_ ?_)
      · refine (traced_keptPieces complete kept (rule.pattern ++ text) output).congr ?_
        intro offset inside
        rw [width_keptPieces] at inside
        rw [origin, if_pos (by simp only [Span.ofOffsets]; omega)]
      · refine (traced_edit _ rule.replacement _ _).congr ?_
        intro offset inside
        rw [width_strokes] at inside
        dsimp only at inside
        rw [width_keptPieces, origin, if_neg (by simp only [Span.ofOffsets]; omega),
          if_pos (by simp only [Span.ofOffsets]; omega)]
      · have continued :=
          induction (output + kept.length + rule.replacement.length)
            (front ++ kept ++ rule.pattern) (by simp only [List.length_append])
            (Bytes.complete_append (front ++ kept) nonempty valid)
        simp only [List.append_assoc] at continued
        refine continued.congr ?_
        intro offset inside
        rw [width_keptPieces, width_strokes, origin,
          if_neg (by simp only [Span.ofOffsets]; omega),
          if_neg (by simp only [Span.ofOffsets]; omega)]
        congr 1
        dsimp only
        omega

end Rule

end Reroute
