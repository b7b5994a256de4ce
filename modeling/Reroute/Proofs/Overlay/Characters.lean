import Mathlib
import Reroute.Proofs.Overlay.Thinning
import Reroute.Proofs.Overlay.Tiling
import Reroute.Proofs.SourceMap.Naming
import Reroute.Proofs.Text.Lines

/-!
# Maps that mark every character

Such a map has a segment for every visible character of the source that is kept, and one for
every line of a replacement that is not empty.  The strokes of the output say which: what is
marked is read off each piece, and the pieces together give back the characters of the source
outside the edits.  In the output the segments stand in the order of the source, and each line
starts with one.
-/

namespace Reroute

/-- The place in the source that a segment names, by line and then by column. -/
def Segment.rank (segment : Segment) : ℤ ×ₗ ℤ :=
  toLex (segment.sourceLine.toInt, segment.sourceColumn.toInt)

/-- An edit that replaces whole characters of a text by whole characters. -/
structure Edit.Whole (text : Bytes) (edit : Edit) : Prop where
  start : Bytes.validUtf8 (text.take edit.span.start.toNat) = true
  stop : Bytes.validUtf8 (text.take edit.span.stop.toNat) = true
  content : edit.content.validUtf8 = true

/-- The start of the edited range, for each line of the content that is not empty. -/
def Edit.anchors (edit : Edit) : List Nat :=
  List.replicate edit.content.linesWithText edit.span.start.toNat

namespace Overlay

/-! ### Strokes that leave a mark -/

def Stroke.shown (stroke : Stroke) : Bool :=
  stroke.marked && stroke.rune != .char '\n'

/-- The points of the source that strokes mark, in the order of the output. -/
def sources (strokes : List Stroke) : List Point :=
  (strokes.filter Stroke.shown).map Stroke.source

theorem sources_append (before after : List Stroke) :
    sources (before ++ after) = sources before ++ sources after := by
  rw [sources, List.filter_append, List.map_append]
  rfl

theorem sources_cons_hidden {stroke : Stroke} (hidden : stroke.shown = false)
    (strokes : List Stroke) : sources (stroke :: strokes) = sources strokes := by
  rw [sources, List.filter_cons_of_neg (by simp [hidden])]
  rfl

theorem sources_cons_shown {stroke : Stroke} (shown : stroke.shown = true)
    (strokes : List Stroke) :
    sources (stroke :: strokes) = stroke.source :: sources strokes := by
  rw [sources, List.filter_cons_of_pos shown]
  rfl

namespace Pen

/-- No line behind the pen's own has been drawn on. -/
def Ahead (pen : Pen) : Prop :=
  pen.builder.lines.size ≤ pen.line + 1

theorem Ahead.draw {pen : Pen} (ahead : pen.Ahead) (stroke : Stroke) :
    (pen.draw stroke).Ahead ∧
      (pen.draw stroke).builder.mappings.flatten.map Segment.rank =
        pen.builder.mappings.flatten.map Segment.rank ++
          (sources [stroke]).map fun point => (Mark.segment ⟨0, point⟩).rank := by
  by_cases broken : stroke.rune = .char '\n'
  · have hidden : stroke.shown = false := by simp [Stroke.shown, broken]
    rw [sources_cons_hidden hidden, Pen.draw, if_pos (by simpa using broken)]
    constructor
    · exact ahead.trans (Nat.le_succ _)
    · exact (List.append_nil _).symm
  · rw [Pen.draw, if_neg (by simpa using broken)]
    cases marked : stroke.marked with
    | false =>
        have hidden : stroke.shown = false := by simp [Stroke.shown, marked]
        rw [sources_cons_hidden hidden]
        constructor
        · exact ahead
        · exact (List.append_nil _).symm
    | true =>
        have shown : stroke.shown = true := by simp [Stroke.shown, marked, broken]
        rw [sources_cons_shown shown]
        constructor
        · exact (Builder.size_lines_add ahead _).le
        · rw [if_pos rfl, move, mark]
          dsimp only
          rw [Builder.flatten_mappings_add ahead, List.map_append]
          rfl

/-- What is drawn comes behind what has been drawn, stroke by stroke. -/
theorem Ahead.foldl_draw {pen : Pen} (ahead : pen.Ahead) (strokes : List Stroke) :
    (strokes.foldl Pen.draw pen).builder.mappings.flatten.map Segment.rank =
      pen.builder.mappings.flatten.map Segment.rank ++
        (sources strokes).map fun point => (Mark.segment ⟨0, point⟩).rank := by
  induction strokes generalizing pen with
  | nil => exact (List.append_nil _).symm
  | cons stroke strokes induction =>
      obtain ⟨next, drawn⟩ := ahead.draw stroke
      rw [List.foldl_cons, induction next, drawn, List.append_assoc, ← List.map_append,
        ← sources_append]
      rfl

end Pen

theorem flatten_mappings (overlay : Overlay) (everyCharacter : Bool) :
    (overlay.mappings everyCharacter).flatten.map Segment.rank =
      (sources (overlay.strokes everyCharacter)).map fun point =>
        (Mark.segment ⟨0, point⟩).rank := by
  have start : Pen.start.Ahead := Nat.zero_le _
  rw [mappings, Pen.foldl_walk]
  exact start.foldl_draw _

theorem Mark.rank_segment {mark : Mark} (line : mark.source.line < 2 ^ 63)
    (column : mark.source.column < 2 ^ 63) : mark.segment.rank = mark.source.rank := by
  rw [Segment.rank, Mark.segment, Point.rank]
  dsimp only
  rw [Int64.toInt_ofNat_of_lt line, Int64.toInt_ofNat_of_lt column]

/-! ### Lines start with a mark -/

/-- Every line of the strokes starts with one that is marked.  `begun` says that they go on with
a line. -/
inductive Headed : Bool → List Stroke → Prop where
  | nil (begun : Bool) : Headed begun []
  | newline {begun : Bool} {stroke : Stroke} {strokes : List Stroke} :
      stroke.rune = .char '\n' → Headed false strokes → Headed begun (stroke :: strokes)
  | visible {begun : Bool} {stroke : Stroke} {strokes : List Stroke} :
      stroke.rune ≠ .char '\n' → (begun = false → stroke.marked = true) → Headed true strokes →
      Headed begun (stroke :: strokes)

namespace Headed

variable {begun : Bool} {strokes others : List Stroke}

theorem of_false (headed : Headed false strokes) (begun : Bool) : Headed begun strokes := by
  cases headed with
  | nil => exact .nil begun
  | newline broken rest => exact .newline broken rest
  | visible visible due rest => exact .visible visible (fun _ => due rfl) rest

theorem append (headed : Headed begun strokes) (other : Headed false others) :
    Headed begun (strokes ++ others) := by
  induction headed with
  | nil begun => exact other.of_false begun
  | newline broken _ induction => exact .newline broken induction
  | visible visible due _ induction => exact .visible visible due induction

theorem strokesOf {move : Point → Rune → Point} {everyCharacter fresh : Bool} {point : Point}
    {runes : List Rune} (due : begun = false → fresh = true) :
    Headed begun (strokesOf move everyCharacter point fresh runes) := by
  induction runes generalizing begun point fresh with
  | nil => exact .nil begun
  | cons rune runes induction =>
      rw [Overlay.strokesOf]
      by_cases broken : rune = .char '\n'
      · apply Headed.newline broken
        apply induction
        intro _
        exact beq_iff_eq.mpr broken
      · apply Headed.visible broken
        · intro notBegun
          rw [due notBegun, Bool.or_true]
        · exact induction fun notBegun => Bool.noConfusion notBegun

theorem pieces (index : LineIndex) (everyCharacter : Bool) (pieces : List Piece) :
    Headed false (pieces.flatMap (Piece.strokes index everyCharacter)) := by
  induction pieces with
  | nil => exact .nil false
  | cons piece pieces induction =>
      rw [List.flatMap_cons]
      apply Headed.append _ induction
      unfold Piece.strokes
      cases piece.origin with
      | source => exact .strokesOf fun _ => rfl
      | edit => exact .strokesOf fun _ => rfl

/-- The first mark of a line that the pen has not begun stands at its start, if the line has any
characters. -/
theorem head?_marksOn (headed : Headed begun strokes) {line : Nat} {place : Point}
    (reached : place.line ≤ line) (atStart : place.line = line → begun = false ∧ place.column = 0) :
    (marksOn line place strokes).head?.map Mark.column =
      if ((strokes.map Stroke.rune).splitOn (.char '\n')).getD (line - place.line) [] = [] then none
      else some 0 := by
  induction headed generalizing place with
  | nil begun =>
      rw [List.map_nil, List.splitOn_nil, if_pos]
      · rfl
      · cases line - place.line with
        | zero => rfl
        | succ => rfl
  | @newline begun stroke strokes broken rest induction =>
      rw [marksOn_newline broken, List.map_cons, broken, Bytes.splitOn_newline_cons]
      by_cases here : place.line = line
      · subst here
        rw [marksOn_of_line_lt (Nat.lt_succ_self _), Nat.sub_self, List.getD_cons_zero, if_pos rfl]
        rfl
      · obtain ⟨later, rfl⟩ := Nat.exists_eq_add_of_lt (Nat.lt_of_le_of_ne reached here)
        have next := @induction ⟨place.line + 1, 0⟩ (by dsimp only; omega) fun _ => ⟨rfl, rfl⟩
        have behind : place.line + later + 1 - place.line = later + 1 := by omega
        have skipped : place.line + later + 1 - (place.line + 1) = later := by omega
        rw [skipped] at next
        rw [next, behind, List.getD_cons_succ]
  | @visible begun stroke strokes visible due rest induction =>
      obtain ⟨row, rows, split, consSplit⟩ :=
        Bytes.exists_splitOn_cons visible (strokes.map Stroke.rune)
      rw [List.map_cons, consSplit]
      by_cases here : place.line = line
      · obtain ⟨notBegun, column⟩ := atStart here
        rw [marksOn_marked visible (due notBegun) here, here, Nat.sub_self, List.getD_cons_zero,
          if_neg (List.cons_ne_nil _ _), column]
        rfl
      · obtain ⟨later, rfl⟩ := Nat.exists_eq_add_of_lt (Nat.lt_of_le_of_ne reached here)
        have moved := Point.advance_of_ne visible place
        have next := @induction (place.advance stroke.rune) (by rw [moved]; exact reached)
          (by rw [moved]; exact fun same => absurd same here)
        have behind : place.line + later + 1 - place.line = later + 1 := by omega
        rw [moved, split, behind, List.getD_cons_succ] at next
        rw [marksOn_elsewhere here, moved, next, behind, List.getD_cons_succ]

end Headed

/-! ### What the marks of a piece stand for -/

/-- The offsets of the source that the marks of a piece stand for: those of its visible
characters, or, for each line of a replacement, that of the replaced range. -/
def Piece.anchors (piece : Piece) : List Nat :=
  match piece.origin with
  | .source => Bytes.visibleFrom piece.source.start.toNat piece.text.runes
  | .edit => List.replicate piece.text.linesWithText piece.source.start.toNat

/-- A replacement is marked once for each of its lines, the first one only if a mark is due. -/
theorem sources_edit (point : Point) (fresh : Bool) (runes : List Rune) :
    sources (strokesOf (fun point _ => point) false point fresh runes) =
      List.replicate
        ((if fresh then runes.splitOn (.char '\n') else (runes.splitOn (.char '\n')).tail).countP
          fun line => !line.isEmpty) point := by
  induction runes generalizing fresh with
  | nil =>
      rw [List.splitOn_nil]
      cases fresh with
      | true => rfl
      | false => rfl
  | cons rune runes induction =>
      rw [strokesOf]
      by_cases broken : rune = .char '\n'
      · rw [sources_cons_hidden (by simp [Stroke.shown, broken]), induction, broken,
          Bytes.splitOn_newline_cons, BEq.refl, if_pos rfl]
        cases fresh with
        | true => rfl
        | false => rfl
      · obtain ⟨line, lines, split, consSplit⟩ := Bytes.exists_splitOn_cons broken runes
        have rest := induction false
        rw [split, if_neg Bool.false_ne_true, List.tail_cons] at rest
        rw [consSplit, beq_false_of_ne broken]
        cases fresh with
        | true =>
            rw [sources_cons_shown (by simp [Stroke.shown, broken]), rest, if_pos rfl,
              List.countP_cons_of_pos rfl, List.replicate_succ]
        | false =>
            rw [sources_cons_hidden rfl, rest, if_neg Bool.false_ne_true, List.tail_cons]

/-- Source text is marked at each of its visible characters. -/
theorem sources_source {source : Bytes} {before runes after : List Rune} (fresh : Bool)
    (split : source.runes = before ++ (runes ++ after)) :
    sources (strokesOf Point.advance true (Point.origin.advanceAll before) fresh runes) =
      (Bytes.visibleFrom (before.map Rune.size).sum runes).map fun offset : Nat =>
        (LineIndex.ofContent source).point offset := by
  induction runes generalizing before fresh with
  | nil => rfl
  | cons rune runes induction =>
      have next := @induction (before ++ [rune]) (rune == .char '\n') (by simp [split])
      rw [Point.advanceAll_append, List.map_append, List.sum_append] at next
      rw [strokesOf, Bytes.visibleFrom]
      by_cases broken : rune = .char '\n'
      · rw [sources_cons_hidden (by simp [Stroke.shown, broken]), if_pos broken]
        exact next
      · rw [sources_cons_shown (by simp [Stroke.shown, broken]), if_neg broken, List.map_cons,
          LineIndex.point_of_runes split]
        exact congrArg _ next

/-- A text that is laid out by edits in stretches of whole characters. -/
inductive LaidWhole : Nat → Bytes → List Edit → Prop where
  | rest (position : Nat) {text : Bytes} : text.validUtf8 = true → LaidWhole position text []
  | edit {position : Nat} {text : Bytes} {edits : List Edit} {kept replaced content : Bytes} :
      kept.validUtf8 = true → replaced.validUtf8 = true → content.validUtf8 = true →
      replaced ≠ [] → LaidWhole (position + kept.length + replaced.length) text edits →
      LaidWhole position (kept ++ (replaced ++ text))
        (⟨Span.ofOffsets (position + kept.length) (position + kept.length + replaced.length),
            content⟩
          :: edits)

theorem Laid.whole {position : Nat} {text : Bytes} {edits : List Edit}
    (laid : Laid position text edits) {front : Bytes} (reached : front.length = position)
    (frontValid : front.validUtf8 = true) (valid : text.validUtf8 = true)
    (whole : ∀ edit ∈ edits, edit.Whole (front ++ text)) : LaidWhole position text edits := by
  induction laid generalizing front with
  | rest position text => exact .rest position valid
  | @edit position text edits kept replaced content nonempty tail induction =>
      subst reached
      obtain ⟨start, stop, contentValid⟩ := whole _ List.mem_cons_self
      simp only [Span.ofOffsets, Int.toNat_natCast] at start stop
      rw [← List.append_assoc, ← List.length_append, List.take_left,
        Bytes.validUtf8_append frontValid] at start
      rw [← List.append_assoc, ← List.append_assoc, ← List.length_append, ← List.length_append,
        List.take_left, List.append_assoc, Bytes.validUtf8_append frontValid,
        Bytes.validUtf8_append start] at stop
      rw [Bytes.validUtf8_append start, Bytes.validUtf8_append stop] at valid
      apply LaidWhole.edit start stop contentValid nonempty
      apply @induction (front ++ (kept ++ replaced)) _ _ valid
      · intro edit member
        simpa only [List.append_assoc] using whole edit (List.mem_cons_of_mem _ member)
      · simp only [List.length_append]
        omega
      · rw [Bytes.validUtf8_append frontValid, Bytes.validUtf8_append start]
        exact stop

theorem anchors_keptPieces (position output : Nat) (kept : Bytes) :
    (keptPieces position output kept).flatMap Piece.anchors =
      Bytes.visibleFrom position kept.runes := by
  cases kept with
  | nil => rw [Bytes.runes_nil]; rfl
  | cons byte kept => simp [keptPieces, Piece.anchors, Span.ofOffsets]

theorem sources_keptPieces {front kept : Bytes} (frontValid : front.validUtf8 = true)
    (keptValid : kept.validUtf8 = true) (tail : Bytes) (output : Nat) :
    sources ((keptPieces front.length output kept).flatMap
        (Piece.strokes (LineIndex.ofContent (front ++ (kept ++ tail))) true)) =
      (Bytes.visibleFrom front.length kept.runes).map fun offset : Nat =>
        (LineIndex.ofContent (front ++ (kept ++ tail))).point offset := by
  by_cases empty : kept = []
  · subst empty
    rw [Bytes.runes_nil]
    rfl
  · have split : (front ++ (kept ++ tail)).runes = front.runes ++ (kept.runes ++ tail.runes) := by
      rw [Bytes.complete_of_valid frontValid, Bytes.complete_of_valid keptValid]
    have marked := sources_source true split
    rw [← Bytes.length_eq_sum] at marked
    rw [keptPieces, if_neg (by simpa using empty), List.flatMap_singleton, Piece.strokes]
    dsimp only [Span.ofOffsets]
    rw [LineIndex.point_append, marked]

/-- The offset lies in no range of the edits. -/
def outside (edits : List Edit) (offset : Nat) : Bool :=
  edits.all fun edit => !edit.span.contains offset

section Outside

variable {edit : Edit} {edits : List Edit} {offsets : List Nat}

theorem filter_outside_of_apart
    (apart : ∀ offset ∈ offsets, ∀ edit ∈ edits, edit.span.contains (offset : Nat) = false) :
    offsets.filter (outside edits) = offsets := by
  apply List.filter_eq_self.mpr
  intro offset member
  apply List.all_eq_true.mpr
  intro edit among
  rw [apart offset member edit among]
  rfl

theorem filter_outside_cons_of_inside
    (inside : ∀ offset ∈ offsets, edit.span.contains (offset : Nat) = true) :
    offsets.filter (outside (edit :: edits)) = [] := by
  apply List.filter_eq_nil_iff.mpr
  intro offset member
  rw [outside, List.all_cons, inside offset member]
  exact Bool.false_ne_true

theorem filter_outside_cons_of_apart
    (apart : ∀ offset ∈ offsets, edit.span.contains (offset : Nat) = false) :
    offsets.filter (outside (edit :: edits)) = offsets.filter (outside edits) := by
  apply List.filter_congr
  intro offset member
  rw [outside, List.all_cons, apart offset member]
  rfl

end Outside

namespace LaidWhole

variable {position : Nat} {text : Bytes} {edits : List Edit}

theorem le_start (whole : LaidWhole position text edits) :
    ∀ edit ∈ edits, (position : Int) ≤ edit.span.start := by
  induction whole with
  | rest => exact List.forall_mem_nil _
  | edit _ _ _ _ _ induction =>
      intro edit member
      rcases List.mem_cons.mp member with rfl | later
      · simp only [Span.ofOffsets]
        omega
      · have behind := induction edit later
        omega

theorem validUtf8_text (whole : LaidWhole position text edits) (output : Nat) :
    ∀ piece ∈ piecesFrom text position output edits, piece.text.validUtf8 = true := by
  have ofKept {position output : Nat} {kept : Bytes} (valid : kept.validUtf8 = true) :
      ∀ piece ∈ keptPieces position output kept, piece.text.validUtf8 = true := by
    intro piece member
    rw [keptPieces] at member
    split at member
    · cases member
    · rw [List.mem_singleton.mp member]
      exact valid
  induction whole generalizing output with
  | rest position valid =>
      rw [piecesFrom_rest]
      exact ofKept valid
  | edit keptValid _ contentValid _ _ induction =>
      intro piece member
      rw [piecesFrom_edit] at member
      rcases List.mem_append.mp member with before | member
      · exact ofKept keptValid piece before
      · rcases List.mem_cons.mp member with rfl | later
        · exact contentValid
        · exact induction _ piece later

/-- The marks of the pieces name the points of the offsets that they stand for. -/
theorem sources_eq (whole : LaidWhole position text edits) {front : Bytes}
    (reached : front.length = position) (frontValid : front.validUtf8 = true) (output : Nat) :
    sources ((piecesFrom text position output edits).flatMap
        (Piece.strokes (LineIndex.ofContent (front ++ text)) true)) =
      ((piecesFrom text position output edits).flatMap Piece.anchors).map fun offset : Nat =>
        (LineIndex.ofContent (front ++ text)).point offset := by
  induction whole generalizing front output with
  | @rest position text valid =>
      subst reached
      have kept := sources_keptPieces frontValid valid [] output
      rw [List.append_nil] at kept
      rw [piecesFrom_rest, kept, anchors_keptPieces]
  | @edit position text edits kept replaced content keptValid replacedValid contentValid nonempty
      tail induction =>
      subst reached
      have nextValid : (front ++ (kept ++ replaced)).validUtf8 = true := by
        rw [Bytes.validUtf8_append frontValid, Bytes.validUtf8_append keptValid]
        exact replacedValid
      have next := @induction (front ++ (kept ++ replaced))
        (by simp only [List.length_append]; omega) nextValid
        (output + kept.length + content.length)
      simp only [List.append_assoc] at next
      rw [piecesFrom_edit, List.flatMap_append, sources_append, List.flatMap_cons, sources_append,
        next, sources_keptPieces frontValid keptValid, List.flatMap_append, List.map_append,
        anchors_keptPieces, List.flatMap_cons, List.map_append, Piece.strokes, Piece.anchors]
      dsimp only [Span.ofOffsets]
      rw [sources_edit, if_pos rfl, Bytes.linesWithText_eq, List.map_replicate, Int.toNat_natCast]

/-- The marks stand for the visible characters outside the edits and for the edits. -/
theorem anchors_perm (whole : LaidWhole position text edits) (output : Nat) :
    ((piecesFrom text position output edits).flatMap Piece.anchors).Perm
      ((Bytes.visibleFrom position text.runes).filter (outside edits) ++
        edits.flatMap Edit.anchors) := by
  induction whole generalizing output with
  | @rest position text valid =>
      rw [piecesFrom_rest, anchors_keptPieces, List.flatMap_nil, List.append_nil,
        List.filter_eq_self.mpr]
      exact fun _ _ => rfl
  | @edit position text edits kept replaced content keptValid replacedValid contentValid nonempty
      tail induction =>
      have behind := tail.le_start
      have runes : (kept ++ (replaced ++ text)).runes =
          kept.runes ++ (replaced.runes ++ text.runes) := by
        rw [Bytes.complete_of_valid keptValid, Bytes.complete_of_valid replacedValid]
      rw [piecesFrom_edit, List.flatMap_append, anchors_keptPieces, List.flatMap_cons, runes,
        Bytes.visibleFrom_append, Bytes.visibleFrom_append, ← Bytes.length_eq_sum,
        ← Bytes.length_eq_sum, List.filter_append, List.filter_append]
      set edit : Edit := ⟨Span.ofOffsets (position + kept.length)
        (position + kept.length + replaced.length), content⟩ with isEdit
      have here (offset : Nat) : edit.span.contains offset = true ↔
          position + kept.length ≤ offset ∧ offset < position + kept.length + replaced.length := by
        rw [Span.contains_iff, isEdit]
        simp only [Span.ofOffsets]
        omega
      have keptOutside : (Bytes.visibleFrom position kept.runes).filter (outside (edit :: edits)) =
          Bytes.visibleFrom position kept.runes := by
        apply filter_outside_of_apart
        intro offset member other among
        have bounds := (Bytes.visibleFrom_bounds member).2
        rw [← Bytes.length_eq_sum] at bounds
        rw [← Bool.not_eq_true]
        rcases List.mem_cons.mp among with rfl | later
        · rw [here]
          omega
        · have start := behind other later
          rw [Span.contains_iff]
          omega
      have replacedInside : (Bytes.visibleFrom (position + kept.length) replaced.runes).filter
          (outside (edit :: edits)) = [] := by
        apply filter_outside_cons_of_inside
        intro offset member
        have bounds := Bytes.visibleFrom_bounds member
        rw [← Bytes.length_eq_sum] at bounds
        exact (here offset).mpr bounds
      have restOutside : (Bytes.visibleFrom (position + kept.length + replaced.length)
          text.runes).filter (outside (edit :: edits)) =
          (Bytes.visibleFrom (position + kept.length + replaced.length) text.runes).filter
            (outside edits) := by
        apply filter_outside_cons_of_apart
        intro offset member
        have bounds := (Bytes.visibleFrom_bounds member).1
        rw [← Bool.not_eq_true, here]
        omega
      rw [keptOutside, replacedInside, restOutside, List.nil_append, List.flatMap_cons,
        List.append_assoc]
      apply List.Perm.append_left
      have next := induction (output + kept.length + content.length)
      exact (next.append_left edit.anchors).trans (List.perm_append_comm_assoc _ _ _)

end LaidWhole

/-! ### The whole map -/

theorem runes_flatMap_text {pieces : List Piece}
    (valid : ∀ piece ∈ pieces, piece.text.validUtf8 = true) (index : LineIndex) :
    (pieces.flatMap (Piece.strokes index true)).map Stroke.rune =
      Bytes.runes (pieces.flatMap Piece.text) := by
  induction pieces with
  | nil => exact Bytes.runes_nil.symm
  | cons piece pieces induction =>
      rw [List.flatMap_cons, List.flatMap_cons, List.map_append, map_rune_strokes,
        Bytes.complete_of_valid (valid piece List.mem_cons_self),
        induction fun other member => valid other (List.mem_cons_of_mem piece member)]

namespace Arranged

variable {overlay : Overlay}

theorem pieces_eq_piecesFrom (arranged : overlay.Arranged) :
    overlay.pieces = piecesFrom overlay.source 0 0 overlay.edits := by
  by_cases empty : overlay.source = []
  · have unedited : overlay.edits = [] := by
      apply List.eq_nil_iff_forall_not_mem.mpr
      intro edit member
      obtain ⟨lowest, proper, highest⟩ := arranged.fits edit member
      rw [empty, List.length_nil] at highest
      omega
    rw [pieces, unedited, empty]
    rfl
  · exact pieces_eq empty

/-- The marks of a piece stand for offsets of the range that the piece stands for. -/
theorem anchors_bounds (arranged : overlay.Arranged) (nonempty : overlay.source ≠ [])
    {piece : Piece} (member : piece ∈ overlay.pieces) {offset : Nat}
    (anchor : offset ∈ piece.anchors) :
    piece.source.start ≤ offset ∧ (offset : Int) < piece.source.stop := by
  have sound := arranged.sound nonempty piece member
  have proper := sound.proper
  have start := ((arranged.tiled nonempty).sources.bounds.2 piece.source
    (List.mem_map_of_mem member)).1
  unfold Piece.anchors at anchor
  cases origin : piece.origin with
  | source =>
      rw [origin] at anchor
      have bounds := Bytes.visibleFrom_bounds anchor
      have ended := (sound.kept origin).2
      rw [← Bytes.length_eq_sum] at bounds
      omega
  | edit =>
      rw [origin] at anchor
      have same := List.eq_of_mem_replicate anchor
      omega

theorem ordered_anchors (arranged : overlay.Arranged) :
    (overlay.pieces.flatMap Piece.anchors).Pairwise (· ≤ ·) := by
  by_cases empty : overlay.source = []
  · rw [pieces, empty]
    exact List.Pairwise.nil
  · apply List.pairwise_flatMap.mpr
    constructor
    · intro piece _
      unfold Piece.anchors
      cases piece.origin with
      | source => exact (Bytes.ascending_visibleFrom _ _).imp Nat.le_of_lt
      | edit => exact List.pairwise_replicate_of_refl
    · have apart := List.pairwise_map.mp (arranged.tiled empty).sources.pairwise
      apply apart.imp_of_mem
      intro before after beforeMember afterMember ordered left leftAnchor right rightAnchor
      have leftBounds := arranged.anchors_bounds empty beforeMember leftAnchor
      have rightBounds := arranged.anchors_bounds empty afterMember rightAnchor
      omega

end Arranged

/-- The offsets of the source that a map with all characters marks: each visible character
outside the edits, and the start of an edit once for each line of its content that is not empty. -/
def markedOffsets (source : Bytes) (edits : List Edit) : List Nat :=
  source.visible.filter (outside edits) ++ edits.flatMap Edit.anchors

theorem markedOffsets_perm {source : Bytes} {edits calls : List Edit} (same : edits.Perm calls) :
    (markedOffsets source edits).Perm (markedOffsets source calls) := by
  have outsideSame : outside edits = outside calls := by
    funext offset
    exact same.all_eq
  rw [markedOffsets, markedOffsets, outsideSame]
  exact (same.flatMap_right Edit.anchors).append_left _

/-- Marked offsets have only whole characters in front of them. -/
theorem whole_of_mem_markedOffsets {source : Bytes} {edits : List Edit}
    (valid : source.validUtf8 = true) (whole : ∀ edit ∈ edits, edit.Whole source)
    (fits : ∀ edit ∈ edits, edit.span.Fits source.length) {offset : Nat}
    (member : offset ∈ markedOffsets source edits) :
    offset ≤ source.length ∧ Bytes.validUtf8 (source.take offset) = true := by
  rcases List.mem_append.mp member with kept | edited
  · exact Bytes.validUtf8_take_of_mem_visible valid (List.mem_of_mem_filter kept)
  · obtain ⟨edit, among, anchor⟩ := List.mem_flatMap.mp edited
    obtain ⟨lowest, proper, highest⟩ := fits edit among
    rw [List.eq_of_mem_replicate anchor]
    constructor
    · omega
    · exact (whole edit among).start

/-- What the lines of a map say when every character is marked. -/
structure MarksCharacters (source : Bytes) (edits : List Edit) (output : Bytes)
    (lines : Mappings) : Prop where
  places : (lines.flatten.map Segment.rank).Perm
    ((markedOffsets source edits).map fun offset : Nat =>
      ((LineIndex.ofContent source).point offset).rank)
  ordered : (lines.flatten.map Segment.rank).Pairwise (· ≤ ·)
  ascending : ∀ line ∈ lines, line.Pairwise fun left right =>
    left.generatedColumn < right.generatedColumn
  begins : ∀ number, (lines.getD number []).head?.map Segment.generatedColumn =
    if (output.splitOn Bytes.newline).getD number [] = [] then none else some 0

variable {overlay : Overlay}

theorem lineAt_mappings (overlay : Overlay) (everyCharacter : Bool) (number : Nat) :
    (overlay.mappings everyCharacter).getD number [] =
      (marksOn number .origin (overlay.strokes everyCharacter)).map Mark.segment := by
  rw [mappings, Builder.mappings_getD, Pen.foldl_walk, Pen.lineAt_foldl_draw, Pen.start,
    Builder.lineAt_empty, List.nil_append]
  rfl

/-- Segments name the points of the marked offsets, as these are small. -/
theorem rank_mappings (whole : LaidWhole 0 overlay.source overlay.edits)
    (arranged : overlay.Arranged) (sourceSmall : overlay.source.length < 2 ^ 60)
    (outputSmall : overlay.render.length < 2 ^ 60) :
    (overlay.mappings true).flatten.map Segment.rank =
      (overlay.pieces.flatMap Piece.anchors).map fun offset : Nat =>
        ((LineIndex.ofContent overlay.source).point offset).rank := by
  have sourcesEq := whole.sources_eq (show ([] : Bytes).length = 0 from rfl) Bytes.validUtf8_nil 0
  rw [List.nil_append, ← arranged.pieces_eq_piecesFrom] at sourcesEq
  have small : ∀ point ∈ sources (overlay.strokes true),
      (Mark.segment ⟨0, point⟩).rank = point.rank := by
    intro point member
    obtain ⟨stroke, shown, rfl⟩ := List.mem_map.mp member
    obtain ⟨piece, among, inside⟩ := List.mem_flatMap.mp (List.mem_of_mem_filter shown)
    have bounds := source_le_of_mem_strokes inside
    have text := text_length_le among
    apply Mark.rank_segment
    · dsimp only
      omega
    · dsimp only
      omega
  rw [flatten_mappings, List.map_congr_left small, strokes, sourcesEq, List.map_map]
  rfl

theorem ordered_ranks (arranged : overlay.Arranged)
    (whole : ∀ offset ∈ overlay.pieces.flatMap Piece.anchors,
      offset ≤ overlay.source.length ∧ Bytes.validUtf8 (overlay.source.take offset) = true) :
    ((overlay.pieces.flatMap Piece.anchors).map fun offset : Nat =>
      ((LineIndex.ofContent overlay.source).point offset).rank).Pairwise (· ≤ ·) := by
  apply List.pairwise_map.mpr
  apply arranged.ordered_anchors.imp_of_mem
  intro left right leftMember rightMember ordered
  exact LineIndex.rank_point_le ordered (whole right rightMember).1 (whole left leftMember).2

theorem ascending_mappings (outputSmall : overlay.render.length < 2 ^ 60) (everyCharacter : Bool)
    (number : Nat) :
    ((overlay.mappings everyCharacter).getD number []).Pairwise fun left right =>
      left.generatedColumn < right.generatedColumn := by
  rw [lineAt_mappings]
  apply List.pairwise_map.mpr
  apply (ascending_marksOn number .origin _).imp_of_mem
  intro left right leftMember rightMember ascending
  have leftBounds := (mark_le leftMember).1
  have rightBounds := (mark_le rightMember).1
  rw [Int64.lt_iff_toInt_lt, Mark.segment, Mark.segment, Int64.toInt_ofNat_of_lt (by omega),
    Int64.toInt_ofNat_of_lt (by omega)]
  exact Int.ofNat_lt.mpr ascending

theorem head?_mappings (valid : ∀ piece ∈ overlay.pieces, piece.text.validUtf8 = true)
    (number : Nat) :
    ((overlay.mappings true).getD number []).head?.map Segment.generatedColumn =
      if (overlay.render.splitOn Bytes.newline).getD number [] = [] then none else some 0 := by
  have headed := Headed.pieces (LineIndex.ofContent overlay.source) true overlay.pieces
  have head := headed.head?_marksOn (show Point.origin.line ≤ number from Nat.zero_le number)
    fun _ => ⟨rfl, rfl⟩
  have empty : (((overlay.render.splitOn Bytes.newline).map Bytes.runes).getD
      (number - Point.origin.line) [] = []) ↔
      (overlay.render.splitOn Bytes.newline).getD number [] = [] := by
    rw [show number - Point.origin.line = number from rfl]
    conv_lhs =>
      lhs
      rw [← Bytes.runes_nil, List.getD_map]
    exact Bytes.runes_eq_nil_iff
  rw [runes_flatMap_text valid, flatMap_text_pieces, ← Bytes.map_runes_splitOn,
    if_congr empty rfl rfl] at head
  have columns : Segment.generatedColumn ∘ Mark.segment = Int64.ofNat ∘ Mark.column := rfl
  rw [lineAt_mappings, List.head?_map, Option.map_map, columns, ← Option.map_map, strokes, head]
  split
  · rfl
  · rfl

/-- Edits of whole characters of a valid text, made in any order.  The map that marks every
character has one segment for each visible character outside the edits, and one for each line of
a replacement that is not empty.  The segments stand in the order of the source, their columns
ascend along each line, and exactly the lines with text have a segment, the first one at their
start. -/
theorem map_marks_characters {source : Bytes} {calls : List Edit}
    (accepted : (ofSource source).overwriteAll calls = .ok overlay)
    (sourceSmall : source.length < 2 ^ 60) (outputSmall : overlay.render.length < 2 ^ 60)
    (valid : source.validUtf8 = true) (whole : ∀ call ∈ calls, call.Whole source)
    (options : MapOptions) :
    ∃ lines, (overlay.map { options with everyCharacter := true }).decode = .ok lines ∧
      MarksCharacters source calls overlay.render lines := by
  obtain ⟨arranged, rfl, edits⟩ := arranged_of_overwriteAll accepted
  have editsWhole : ∀ edit ∈ overlay.edits, edit.Whole overlay.source :=
    fun edit member => whole edit (edits.mem_iff.mp member)
  have laid := arranged.laid.whole (show ([] : Bytes).length = 0 from rfl) Bytes.validUtf8_nil
    valid editsWhole
  obtain ⟨lines, decoded, same⟩ :
      ∃ lines, (overlay.map { options with everyCharacter := true }).decode = .ok lines ∧
        lines.SameLines (overlay.mappings true) :=
    Mappings.exists_sameLines_of_modest (modest_of_mem_mappings sourceSmall outputSmall)
  have ranks := rank_mappings laid arranged sourceSmall outputSmall
  have anchors := laid.anchors_perm 0
  rw [← arranged.pieces_eq_piecesFrom] at anchors
  have piecesValid := laid.validUtf8_text 0
  rw [← arranged.pieces_eq_piecesFrom] at piecesValid
  refine ⟨lines, decoded, ?_, ?_, ?_, ?_⟩
  · rw [same.flatten_eq, ranks]
    exact (anchors.trans (markedOffsets_perm edits)).map _
  · rw [same.flatten_eq, ranks]
    apply ordered_ranks arranged
    intro offset member
    exact whole_of_mem_markedOffsets valid editsWhole arranged.fits (anchors.mem_iff.mp member)
  · intro line member
    obtain ⟨number, bound, rfl⟩ := List.getElem_of_mem member
    rw [← List.getD_eq_getElem _ [] bound, same number]
    exact ascending_mappings outputSmall true number
  · intro number
    rw [same number]
    exact head?_mappings piecesValid number

/-! ### Edits side by side, on wide characters and on a line break -/

def clefSource : Bytes := utf8 "a𝄞\nbcé\n"

def clefCalls : List Edit := [⟨⟨6, 7⟩, []⟩, ⟨⟨1, 5⟩, utf8 "x\n\ny"⟩, ⟨⟨5, 6⟩, utf8 "é"⟩]

def clef : Overlay :=
  ⟨clefSource, [⟨⟨1, 5⟩, utf8 "x\n\ny"⟩, ⟨⟨5, 6⟩, utf8 "é"⟩, ⟨⟨6, 7⟩, []⟩]⟩

def clefLines : Mappings :=
  [[⟨0, 0, 0, 0, -1⟩, ⟨1, 0, 0, 1, -1⟩], [],
    [⟨0, 0, 0, 1, -1⟩, ⟨1, 0, 0, 3, -1⟩, ⟨2, 0, 1, 1, -1⟩, ⟨3, 0, 1, 2, -1⟩]]

theorem map_marks_characters_clef :
    clef.render = utf8 "ax\n\nyécé\n" ∧
      (clef.map ⟨utf8 "a.js", [], false, true⟩).decode = .ok clefLines ∧
      MarksCharacters clefSource clefCalls clef.render clefLines := by
  have accepted : (ofSource clefSource).overwriteAll clefCalls = .ok clef := by decide +kernel
  have whole : ∀ call ∈ clefCalls, call.Whole clefSource := by
    simp only [clefCalls, List.forall_mem_cons]
    refine ⟨⟨?_, ?_, ?_⟩, ⟨?_, ?_, ?_⟩, ⟨?_, ?_, ?_⟩, nofun⟩
    all_goals decide +kernel
  obtain ⟨lines, decoded, marks⟩ :=
    map_marks_characters accepted (by decide) (by decide +kernel) (by decide +kernel) whole
      ⟨utf8 "a.js", [], false, true⟩
  have read : (clef.map ⟨utf8 "a.js", [], false, true⟩).decode = .ok clefLines := by
    decide +kernel
  obtain rfl := Except.ok.inj (decoded.symm.trans read)
  exact ⟨by decide +kernel, read, marks⟩

end Overlay

end Reroute
