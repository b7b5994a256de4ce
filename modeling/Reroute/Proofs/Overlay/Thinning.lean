import Mathlib
import Reroute.Proofs.Overlay.Arrangement
import Reroute.Proofs.Overlay.Extent
import Reroute.Proofs.SourceMap.Resolution

/-!
# Maps of two resolutions

A map marks every character of unchanged text, or only where a piece or a line of it starts.
The coarse marks of a line are the fine ones thinned out: where a mark is left out, the output
and the source have gone on by the same width since the last mark that was kept.  A look-up in
the coarse map therefore finds a segment exactly where one in the fine map does, and the two
segments differ by the same number of columns on both sides.
-/

namespace Reroute

/-! ### Thinned out lists -/

/-- A list with items left out.  An item may be left out when it is displaced from the last one
that was kept. -/
inductive Thins {α : Type} (displaced : α → α → Prop) : Option α → List α → List α → Prop where
  | nil (kept : Option α) : Thins displaced kept [] []
  | keep {kept : Option α} {item : α} {fine coarse : List α} :
      Thins displaced (some item) fine coarse →
      Thins displaced kept (item :: fine) (item :: coarse)
  | drop {kept item : α} {fine coarse : List α} :
      displaced kept item → Thins displaced (some kept) fine coarse →
      Thins displaced (some kept) (item :: fine) coarse

namespace Thins

variable {α : Type} {displaced : α → α → Prop} {kept : Option α} {fine coarse : List α}

theorem refl (kept : Option α) (items : List α) : Thins displaced kept items items := by
  induction items generalizing kept with
  | nil => exact .nil kept
  | cons item items induction => exact .keep (induction (some item))

/-- The first item can only be left out if one was kept before. -/
theorem of_none (thins : Thins displaced none fine coarse) (kept : Option α) :
    Thins displaced kept fine coarse := by
  cases thins with
  | nil => exact .nil kept
  | keep rest => exact .keep rest

theorem append {otherFine otherCoarse : List α} (thins : Thins displaced kept fine coarse)
    (other : Thins displaced none otherFine otherCoarse) :
    Thins displaced kept (fine ++ otherFine) (coarse ++ otherCoarse) := by
  induction thins with
  | nil kept => exact other.of_none kept
  | keep _ induction => exact .keep induction
  | drop away _ induction => exact .drop away induction

end Thins

/-- The last item that has been reached. -/
def latest {α : Type} (reached : α → Bool) (items : List α) : Option α :=
  items.reverse.find? reached

theorem latest_cons {α : Type} (reached : α → Bool) (item : α) (items : List α) :
    latest reached (item :: items) = (latest reached items).or ((some item).filter reached) := by
  unfold latest
  rw [List.reverse_cons, List.find?_append, Option.filter_some]
  cases own : reached item with
  | true => simp [own]
  | false => simp [own]

/-- Of a list and of what is left of it, the same is reached last, or an item and the one it is
displaced from. -/
theorem Thins.latest {α : Type} {displaced : α → α → Prop} {kept : Option α}
    {fine coarse : List α} {reached : α → Bool} (self : ∀ item, displaced item item)
    (closed : ∀ anchor item, displaced anchor item → reached item = true → reached anchor = true)
    (thins : Thins displaced kept fine coarse) :
    (Reroute.latest reached fine = none → Reroute.latest reached coarse = none) ∧
      ∀ item, Reroute.latest reached fine = some item →
        ∃ anchor, (Reroute.latest reached coarse).or (kept.filter reached) = some anchor ∧
          displaced anchor item := by
  induction thins with
  | nil kept =>
      constructor
      · intro _
        rfl
      · exact nofun
  | @keep kept item fine coarse _ induction =>
      obtain ⟨nothing, found⟩ := induction
      rw [latest_cons, latest_cons]
      constructor
      · intro missed
        rw [Option.or_eq_none_iff] at missed ⊢
        exact ⟨nothing missed.1, missed.2⟩
      · intro last isLast
        cases later : Reroute.latest reached fine with
        | none =>
            rw [later, Option.none_or] at isLast
            rw [nothing later, Option.none_or, isLast]
            obtain ⟨same, -⟩ := Option.filter_eq_some_iff.mp isLast
            obtain rfl := Option.some.inj same
            exact ⟨item, Option.some_or, self item⟩
        | some other =>
            rw [later, Option.some_or] at isLast
            obtain rfl := Option.some.inj isLast
            obtain ⟨anchor, anchored, away⟩ := found other later
            refine ⟨anchor, ?_, away⟩
            rw [anchored, Option.some_or]
  | @drop kept item fine coarse away _ induction =>
      obtain ⟨nothing, found⟩ := induction
      rw [latest_cons]
      constructor
      · intro missed
        exact nothing (Option.or_eq_none_iff.mp missed).1
      · intro last isLast
        cases later : Reroute.latest reached fine with
        | none =>
            rw [later, Option.none_or] at isLast
            obtain ⟨same, here⟩ := Option.filter_eq_some_iff.mp isLast
            obtain rfl := Option.some.inj same
            refine ⟨kept, ?_, away⟩
            rw [nothing later, Option.none_or]
            exact Option.filter_eq_some_iff.mpr ⟨rfl, closed kept item away here⟩
        | some other =>
            rw [later, Option.some_or] at isLast
            obtain rfl := Option.some.inj isLast
            exact found other later

namespace Overlay

/-! ### Marks, one stroke after the other -/

section Marks

variable {line : Nat} {place : Point} {stroke : Stroke}

theorem marksOn_newline (broken : stroke.rune = .char '\n') (strokes : List Stroke) :
    marksOn line place (stroke :: strokes) = marksOn line ⟨place.line + 1, 0⟩ strokes := by
  simp [marksOn, broken, Point.advance_newline]

theorem marksOn_elsewhere (elsewhere : place.line ≠ line) (strokes : List Stroke) :
    marksOn line place (stroke :: strokes) =
      marksOn line (place.advance stroke.rune) strokes := by
  simp [marksOn, elsewhere]

theorem marksOn_unmarked (unmarked : stroke.marked = false) (strokes : List Stroke) :
    marksOn line place (stroke :: strokes) =
      marksOn line (place.advance stroke.rune) strokes := by
  simp [marksOn, unmarked]

theorem marksOn_marked (visible : stroke.rune ≠ .char '\n') (marked : stroke.marked = true)
    (here : place.line = line) (strokes : List Stroke) :
    marksOn line place (stroke :: strokes) =
      ⟨place.column, stroke.source⟩ :: marksOn line (place.advance stroke.rune) strokes := by
  simp [marksOn, visible, marked, here]

/-- The columns of the marks of a line ascend. -/
theorem ascending_marksOn (line : Nat) (place : Point) (strokes : List Stroke) :
    (marksOn line place strokes).Pairwise fun left right => left.column < right.column := by
  induction strokes generalizing place with
  | nil => exact List.Pairwise.nil
  | cons stroke strokes induction =>
      by_cases shown : stroke.rune ≠ .char '\n' ∧ stroke.marked = true ∧ place.line = line
      · obtain ⟨visible, marked, here⟩ := shown
        rw [marksOn_marked visible marked here, Point.advance_of_ne visible]
        apply List.Pairwise.cons _ (induction _)
        intro later member
        have behind := column_le_of_mem_marksOn member here
        have width := stroke.rune.units_pos
        dsimp only at behind ⊢
        omega
      · have skipped : marksOn line place (stroke :: strokes) =
            marksOn line (place.advance stroke.rune) strokes := by
          simp only [marksOn]
          rw [if_neg, List.nil_append]
          simpa [and_assoc, and_left_comm] using shown
        rw [skipped]
        exact induction _

end Marks

/-! ### Marks of unchanged text -/

/-- The mark is as far behind another in the source as it is on its line of the output. -/
structure Mark.Displaced (anchor mark : Mark) : Prop where
  line : mark.source.line = anchor.source.line
  behind : anchor.column ≤ mark.column
  shift : mark.source.column + anchor.column = anchor.source.column + mark.column

theorem Mark.Displaced.refl (mark : Mark) : mark.Displaced mark :=
  ⟨rfl, le_rfl, rfl⟩

/-- Walking on through a line moves on by the same width on both sides. -/
theorem Mark.Displaced.move {anchor : Mark} {column : Nat} {point : Point}
    (displaced : anchor.Displaced ⟨column, point⟩) (width : Nat) :
    anchor.Displaced ⟨column + width, ⟨point.line, point.column + width⟩⟩ := by
  obtain ⟨line, behind, shift⟩ := displaced
  dsimp only at line behind shift
  constructor
  · exact line
  · exact behind.trans (Nat.le_add_right column width)
  · dsimp only
    omega

/-- The marks of unchanged text, where a place that is not due to be marked is displaced from
the last mark. -/
theorem thins_strokesOf (line : Nat) (runes : List Rune) {place point : Point} {fresh : Bool}
    {kept : Option Mark}
    (due : fresh = false → place.line = line →
      ∃ anchor, kept = some anchor ∧ anchor.Displaced ⟨place.column, point⟩) :
    Thins Mark.Displaced kept
      (marksOn line place (strokesOf Point.advance true point fresh runes))
      (marksOn line place (strokesOf Point.advance false point fresh runes)) := by
  induction runes generalizing place point fresh kept with
  | nil => exact .nil kept
  | cons rune runes induction =>
      rw [strokesOf, strokesOf]
      by_cases broken : rune = .char '\n'
      · rw [marksOn_newline broken, marksOn_newline broken]
        apply induction
        intro notFresh _
        simp [broken] at notFresh
      · by_cases here : place.line = line
        · rw [marksOn_marked broken rfl here, Point.advance_of_ne broken,
            Point.advance_of_ne broken]
          cases fresh with
          | true =>
              rw [marksOn_marked broken rfl here, Point.advance_of_ne broken]
              apply Thins.keep
              apply induction
              intro _ _
              exact ⟨_, rfl, (Mark.Displaced.refl _).move rune.units⟩
          | false =>
              obtain ⟨anchor, rfl, displaced⟩ := due rfl here
              rw [marksOn_unmarked rfl, Point.advance_of_ne broken]
              apply Thins.drop displaced
              apply induction
              intro _ _
              exact ⟨anchor, rfl, displaced.move rune.units⟩
        · rw [marksOn_elsewhere here, marksOn_elsewhere here]
          apply induction
          intro _ reached
          rw [Point.advance_of_ne broken] at reached
          exact absurd reached here

theorem thins_piece (index : LineIndex) (line : Nat) (place : Point) (piece : Piece) :
    Thins Mark.Displaced none (marksOn line place (piece.strokes index true))
      (marksOn line place (piece.strokes index false)) := by
  unfold Piece.strokes
  cases piece.origin with
  | source => exact thins_strokesOf line piece.text.runes nofun
  | edit => exact .refl none _

/-- The coarse marks of a line are its fine ones thinned out. -/
theorem thins_pieces (index : LineIndex) (line : Nat) (place : Point) (pieces : List Piece) :
    Thins Mark.Displaced none (marksOn line place (pieces.flatMap (Piece.strokes index true)))
      (marksOn line place (pieces.flatMap (Piece.strokes index false))) := by
  induction pieces generalizing place with
  | nil => exact .nil none
  | cons piece pieces induction =>
      have reached : behindStrokes place (piece.strokes index true) =
          behindStrokes place (piece.strokes index false) := by
        rw [behindStrokes, behindStrokes, map_rune_strokes, map_rune_strokes]
      rw [List.flatMap_cons, List.flatMap_cons, marksOn_append, marksOn_append, reached]
      exact (thins_piece index line place piece).append (induction _)

/-! ### Looking up marks -/

/-- The marks of a line of the output; lines that it does not have are bare. -/
def marksAt (overlay : Overlay) (everyCharacter : Bool) (line : Int64) : List Mark :=
  if line < 0 then []
  else marksOn line.toNatClampNeg .origin (overlay.strokes everyCharacter)

theorem thins_marksAt (overlay : Overlay) (line : Int64) :
    Thins Mark.Displaced none (overlay.marksAt true line) (overlay.marksAt false line) := by
  unfold marksAt
  split
  · exact .nil none
  · exact thins_pieces _ _ _ _

variable {overlay : Overlay} {everyCharacter : Bool}

theorem onLine_mappings (overlay : Overlay) (everyCharacter : Bool) (line : Int64) :
    (overlay.mappings everyCharacter).onLine line =
      (overlay.marksAt everyCharacter line).map Mark.segment := by
  rw [Mappings.onLine_eq, marksAt, mappings]
  split
  · rfl
  · rw [Builder.mappings_getD, Pen.foldl_walk, Pen.lineAt_foldl_draw, Pen.start,
      Builder.lineAt_empty, List.nil_append]
    rfl

theorem ascending_marksAt (overlay : Overlay) (everyCharacter : Bool) (line : Int64) :
    (overlay.marksAt everyCharacter line).Pairwise fun left right =>
      left.column < right.column := by
  unfold marksAt
  split
  · exact List.Pairwise.nil
  · exact ascending_marksOn _ _ _

theorem mark_le_of_mem_marksAt {line : Int64} {mark : Mark}
    (member : mark ∈ overlay.marksAt everyCharacter line) :
    mark.column ≤ overlay.render.length ∧
      mark.source.line ≤ overlay.source.length + overlay.render.length ∧
      mark.source.column ≤ overlay.source.length + overlay.render.length := by
  unfold marksAt at member
  split at member
  · cases member
  · exact mark_le member

/-- The mark stands at or before a column. -/
def Mark.reached (column : Int64) (mark : Mark) : Bool :=
  (mark.column : Int) ≤ column.toInt

theorem Mark.reached_iff {mark : Mark} (small : mark.column < 2 ^ 63) (column : Int64) :
    mark.reached column = true ↔ mark.segment.generatedColumn ≤ column := by
  rw [Mark.reached, decide_eq_true_iff, Int64.le_iff_toInt_le, Mark.segment,
    Int64.toInt_ofNat_of_lt small]

theorem Mark.Displaced.reached {anchor mark : Mark} (displaced : anchor.Displaced mark)
    {column : Int64} (reached : mark.reached column = true) : anchor.reached column = true := by
  have behind := displaced.behind
  rw [Mark.reached, decide_eq_true_iff] at reached ⊢
  omega

/-- A look-up finds the last mark at or before the column. -/
theorem lookup?_eq_latest {lines : Mappings} {line : Int64} {marks : List Mark}
    (drawn : lines.onLine line = marks.map Mark.segment)
    (ascending : marks.Pairwise fun left right => left.column < right.column)
    (small : ∀ mark ∈ marks, mark.column < 2 ^ 63) (column : Int64) :
    lines.table.lookup? line column =
      (latest (Mark.reached column) marks).map Mark.segment := by
  cases last : latest (Mark.reached column) marks with
  | none =>
      apply Mappings.lookup?_eq_none_of_behind
      rw [drawn]
      intro segment member
      obtain ⟨mark, inside, rfl⟩ := List.mem_map.mp member
      have missed := List.find?_eq_none.mp last mark (List.mem_reverse.mpr inside)
      rwa [Mark.reached_iff (small mark inside), Int64.not_le] at missed
  | some mark =>
      obtain ⟨reached, front, back, split, skipped⟩ := List.find?_eq_some_iff_append.mp last
      have whole : marks = back.reverse ++ mark :: front.reverse := by
        rw [← List.reverse_reverse marks, split]
        simp
      rw [whole] at ascending small
      have starts := (Mark.reached_iff (small mark (by simp)) column).mp reached
      apply Mappings.lookup?_eq_some_of_covers
      rw [drawn, whole]
      refine ⟨⟨back.reverse.map Mark.segment, front.reverse.map Mark.segment, by simp, ?_, ?_⟩,
        starts⟩
      · intro segment member
        obtain ⟨other, inside, rfl⟩ := List.mem_map.mp member
        have before := (List.pairwise_append.mp ascending).2.2 other inside mark (by simp)
        have passed : other.reached column = true := by
          rw [Mark.reached, decide_eq_true_iff] at reached ⊢
          omega
        exact (Mark.reached_iff (small other (by simp [List.mem_reverse.mp inside])) column).mp
          passed
      · intro segment member
        obtain ⟨other, inside, rfl⟩ := List.mem_map.mp member
        have missed := skipped other (List.mem_reverse.mp inside)
        rw [Bool.not_eq_true', ← Bool.not_eq_true,
          Mark.reached_iff (small other (by simp [List.mem_reverse.mp inside])) column] at missed
        exact Int64.not_le.mp missed

end Overlay

/-- The segment lies behind another one, as many columns in the source as in the output. -/
structure Segment.Displaced (anchor segment : Segment) : Prop where
  sourceLine : segment.sourceLine = anchor.sourceLine
  behind : anchor.generatedColumn ≤ segment.generatedColumn
  shift : segment.sourceColumn.toInt - anchor.sourceColumn.toInt =
    segment.generatedColumn.toInt - anchor.generatedColumn.toInt

namespace Overlay

variable {overlay : Overlay} {everyCharacter : Bool}

theorem Mark.Displaced.segment {anchor mark : Mark} (displaced : anchor.Displaced mark)
    (column : mark.column < 2 ^ 63) (sourceColumn : mark.source.column < 2 ^ 63)
    (anchorColumn : anchor.source.column < 2 ^ 63) :
    anchor.segment.Displaced mark.segment := by
  obtain ⟨line, behind, shift⟩ := displaced
  have anchored : anchor.column < 2 ^ 63 := behind.trans_lt column
  constructor
  · rw [Mark.segment, Mark.segment, line]
  · rw [Int64.le_iff_toInt_le, Mark.segment, Mark.segment, Int64.toInt_ofNat_of_lt column,
      Int64.toInt_ofNat_of_lt anchored]
    exact Int.ofNat_le.mpr behind
  · rw [Mark.segment, Mark.segment]
    simp only [Int64.toInt_ofNat_of_lt column, Int64.toInt_ofNat_of_lt anchored,
      Int64.toInt_ofNat_of_lt sourceColumn, Int64.toInt_ofNat_of_lt anchorColumn]
    omega

/-- The map of an overlay is read as it was drawn. -/
theorem exists_decode_map (sourceSmall : overlay.source.length < 2 ^ 60)
    (outputSmall : overlay.render.length < 2 ^ 60) (options : MapOptions) :
    ∃ lines, (overlay.map options).decode = .ok lines ∧
      ∀ line column, lines.table.lookup? line column =
        (latest (Mark.reached column) (overlay.marksAt options.everyCharacter line)).map
          Mark.segment := by
  obtain ⟨lines, decoded, same⟩ :=
    Mappings.exists_sameLines_of_modest (modest_of_mem_mappings sourceSmall outputSmall)
  refine ⟨lines, decoded, ?_⟩
  intro line column
  apply lookup?_eq_latest _ (ascending_marksAt _ _ _)
  · intro mark member
    have bounds := mark_le_of_mem_marksAt member
    omega
  · rw [same.onLine, onLine_mappings]

/-- The maps that mark every character, and only those where a piece or a line starts, resolve
the same positions.  Where they do, the segments they use differ by the same number of columns in
the source and in the output, and the one of the second map is not behind that of the first. -/
theorem resolutions_agree {source : Bytes} {calls : List Edit}
    (accepted : (ofSource source).overwriteAll calls = .ok overlay)
    (sourceSmall : source.length < 2 ^ 60) (outputSmall : overlay.render.length < 2 ^ 60)
    (options : MapOptions) :
    let fineMap := overlay.map { options with everyCharacter := true }
    let coarseMap := overlay.map { options with everyCharacter := false }
    ∃ fine coarse, fineMap.decode = .ok fine ∧ coarseMap.decode = .ok coarse ∧
      ∀ line column,
        (fine.table.lookup? line column = none ∧ coarse.table.lookup? line column = none ∧
          fineMap.resolve line column = .ok none ∧ coarseMap.resolve line column = .ok none) ∨
        ∃ segment anchor position start,
          fine.table.lookup? line column = some segment ∧
          coarse.table.lookup? line column = some anchor ∧
          fineMap.resolve line column = .ok (some position) ∧
          coarseMap.resolve line column = .ok (some start) ∧ anchor.Displaced segment := by
  intro fineMap coarseMap
  obtain ⟨-, rfl, -⟩ := arranged_of_overwriteAll accepted
  obtain ⟨fine, fineDecoded, fineLooked⟩ :=
    exists_decode_map sourceSmall outputSmall { options with everyCharacter := true }
  obtain ⟨coarse, coarseDecoded, coarseLooked⟩ :=
    exists_decode_map sourceSmall outputSmall { options with everyCharacter := false }
  refine ⟨fine, coarse, fineDecoded, coarseDecoded, ?_⟩
  intro line column
  have fineResolved := SourceMap.resolve_of_decode fineDecoded line column
  have coarseResolved := SourceMap.resolve_of_decode coarseDecoded line column
  rw [fineLooked] at fineResolved ⊢
  rw [coarseLooked] at coarseResolved ⊢
  dsimp only at fineResolved coarseResolved ⊢
  have closed : ∀ anchor mark : Mark, anchor.Displaced mark →
      mark.reached column = true → anchor.reached column = true :=
    fun _ _ displaced => displaced.reached
  obtain ⟨nothing, found⟩ := (overlay.thins_marksAt line).latest Mark.Displaced.refl closed
  cases last : latest (Mark.reached column) (overlay.marksAt true line) with
  | none =>
      left
      rw [last] at fineResolved
      rw [nothing last] at coarseResolved ⊢
      exact ⟨rfl, rfl, fineResolved, coarseResolved⟩
  | some mark =>
      right
      obtain ⟨anchor, kept, displaced⟩ := found mark last
      rw [Option.filter_none, Option.or_none] at kept
      rw [last] at fineResolved
      rw [kept] at coarseResolved ⊢
      refine ⟨_, _, _, _, rfl, rfl, fineResolved, coarseResolved, ?_⟩
      have markBounds := mark_le_of_mem_marksAt
        (List.mem_reverse.mp (List.mem_of_find?_eq_some last))
      have anchorBounds := mark_le_of_mem_marksAt
        (List.mem_reverse.mp (List.mem_of_find?_eq_some kept))
      apply displaced.segment
      · omega
      · omega
      · omega

/-- A letter in the middle of a line that is replaced by two lines. -/
def wrapped : Overlay :=
  ⟨utf8 "xaybc", [⟨⟨1, 2⟩, utf8 "p\nq"⟩]⟩

def wrappedFine : Mappings :=
  [[⟨0, 0, 0, 0, -1⟩, ⟨1, 0, 0, 1, -1⟩],
    [⟨0, 0, 0, 1, -1⟩, ⟨1, 0, 0, 2, -1⟩, ⟨2, 0, 0, 3, -1⟩, ⟨3, 0, 0, 4, -1⟩]]

def wrappedCoarse : Mappings :=
  [[⟨0, 0, 0, 0, -1⟩, ⟨1, 0, 0, 1, -1⟩], [⟨0, 0, 0, 1, -1⟩, ⟨1, 0, 0, 2, -1⟩]]

/-- Behind the end of the second line, where the fine map has marked two characters more. -/
theorem resolutions_agree_wrapped :
    (wrapped.map ⟨utf8 "a.js", [], false, true⟩).decode = .ok wrappedFine ∧
      (wrapped.map ⟨utf8 "a.js", [], false, false⟩).decode = .ok wrappedCoarse ∧
      wrappedFine.table.lookup? 1 9 = some ⟨3, 0, 0, 4, -1⟩ ∧
      wrappedCoarse.table.lookup? 1 9 = some ⟨1, 0, 0, 2, -1⟩ ∧
      Segment.Displaced ⟨1, 0, 0, 2, -1⟩ ⟨3, 0, 0, 4, -1⟩ := by
  have accepted :
      (ofSource (utf8 "xaybc")).overwriteAll [⟨⟨1, 2⟩, utf8 "p\nq"⟩] = .ok wrapped := rfl
  obtain ⟨fine, coarse, fineDecoded, coarseDecoded, agree⟩ :=
    resolutions_agree accepted (by decide) (by decide +kernel) ⟨utf8 "a.js", [], false, true⟩
  have fineRead : (wrapped.map ⟨utf8 "a.js", [], false, true⟩).decode = .ok wrappedFine := by
    decide +kernel
  have coarseRead : (wrapped.map ⟨utf8 "a.js", [], false, false⟩).decode = .ok wrappedCoarse := by
    decide +kernel
  obtain rfl := Except.ok.inj (fineDecoded.symm.trans fineRead)
  obtain rfl := Except.ok.inj (coarseDecoded.symm.trans coarseRead)
  have fineFound : wrappedFine.table.lookup? 1 9 = some ⟨3, 0, 0, 4, -1⟩ := by decide +kernel
  have coarseFound : wrappedCoarse.table.lookup? 1 9 = some ⟨1, 0, 0, 2, -1⟩ := by decide +kernel
  refine ⟨fineRead, coarseRead, fineFound, coarseFound, ?_⟩
  rcases agree 1 9 with ⟨nothing, -⟩ | ⟨segment, anchor, -, -, fineLooked, coarseLooked, -, -, away⟩
  · cases fineFound.symm.trans nothing
  · rwa [← Option.some.inj (fineFound.symm.trans fineLooked),
      ← Option.some.inj (coarseFound.symm.trans coarseLooked)] at away

end Overlay

end Reroute
