import Mathlib
import Reroute.Proofs.Overlay.Arrangement
import Reroute.Proofs.Overlay.Cutting
import Reroute.Proofs.Overlay.Extent

/-!
# Pieces tile both texts

Edits that stand in order cut the source into kept stretches with the edited ranges between
them.  The pieces of the output are the kept stretches and the contents of the edits.  Their
ranges of the source follow each other without a gap from its start to its end, and so do
their ranges of the output, although the two advance at different rates and an edit may have
no content at all.
-/

namespace Reroute

/-- The spans follow each other without a gap up to `stop`, starting at the given offset. -/
inductive Tiles (stop : Int) : Int → List Span → Prop where
  | done : Tiles stop stop []
  | next {start : Int} {span : Span} {spans : List Span} :
      span.start = start → start ≤ span.stop → Tiles stop span.stop spans →
      Tiles stop start (span :: spans)

namespace Tiles

variable {start middle stop : Int} {left right spans : List Span}

theorem append (before : Tiles middle start left) (after : Tiles stop middle right) :
    Tiles stop start (left ++ right) := by
  induction before with
  | done => exact after
  | next begins ordered rest induction => exact .next begins ordered induction

theorem bounds (tiles : Tiles stop start spans) :
    start ≤ stop ∧ ∀ span ∈ spans, start ≤ span.start ∧ span.stop ≤ stop := by
  induction tiles with
  | done => exact ⟨le_refl stop, nofun⟩
  | @next start first spans begins ordered rest induction =>
      constructor
      · omega
      · intro span member
        rcases List.mem_cons.mp member with rfl | later
        · omega
        · have bounds := induction.2 span later
          omega

theorem ordered_of_mem (tiles : Tiles stop start spans) {span : Span} (member : span ∈ spans) :
    span.start ≤ span.stop := by
  induction tiles with
  | done => cases member
  | next begins ordered rest induction =>
      rcases List.mem_cons.mp member with rfl | later
      · rwa [begins]
      · exact induction later

/-- No span starts before those in front of it have ended. -/
theorem pairwise (tiles : Tiles stop start spans) :
    spans.Pairwise fun left right => left.stop ≤ right.start := by
  induction tiles with
  | done => exact List.Pairwise.nil
  | next begins ordered rest induction =>
      refine List.Pairwise.cons ?_ induction
      intro span member
      exact (rest.bounds.2 span member).1

theorem pairwise_stop (tiles : Tiles stop start spans) :
    spans.Pairwise fun left right => left.stop ≤ right.stop := by
  induction tiles with
  | done => exact List.Pairwise.nil
  | next begins ordered rest induction =>
      refine List.Pairwise.cons ?_ induction
      intro span member
      obtain ⟨later, -⟩ := rest.bounds.2 span member
      exact later.trans (rest.ordered_of_mem member)

theorem stop_of_getLast? (tiles : Tiles stop start spans) {last : Span}
    (found : spans.getLast? = some last) : last.stop = stop := by
  induction tiles with
  | done => cases found
  | next begins ordered rest induction =>
      cases rest with
      | done =>
          cases found
          rfl
      | next beginsNext orderedNext restNext =>
          rw [List.getLast?_cons_cons] at found
          exact induction found

theorem cons_ofOffsets {width : Nat} {start : Nat} (rest : Tiles stop (start + width : Nat) spans) :
    Tiles stop start (Span.ofOffsets start (start + width) :: spans) := by
  have ordered : (start : Int) ≤ (Span.ofOffsets start (start + width)).stop := by
    simp [Span.ofOffsets]
  exact .next rfl ordered rest

theorem exists_contains (tiles : Tiles stop start spans) {offset : Int} (lowest : start ≤ offset)
    (highest : offset < stop) : ∃ span ∈ spans, span.contains offset = true := by
  induction tiles with
  | done => omega
  | @next start first spans begins ordered rest induction =>
      by_cases inside : offset < first.stop
      · refine ⟨first, List.mem_cons_self, (first.contains_iff offset).mpr ⟨?_, inside⟩⟩
        rwa [begins]
      · obtain ⟨span, member, contains⟩ := induction (by omega)
        exact ⟨span, List.mem_cons_of_mem first member, contains⟩

end Tiles

theorem Span.slice_append (front middle rest : Bytes) :
    (Span.ofOffsets front.length (front.length + middle.length)).slice
      (front ++ (middle ++ rest)) = middle := by
  simp only [Span.slice, Span.ofOffsets, Int.toNat_natCast, Bytes.slice, List.drop_left,
    Nat.add_sub_cancel_left, List.take_left]

/-- Put the content of an edit in place of its range. -/
def Edit.splice (edit : Edit) (text : Bytes) : Bytes :=
  text.take edit.span.start.toNat ++ (edit.content ++ text.drop edit.span.stop.toNat)

namespace Overlay

/-- A text that starts at a position is laid out by edits: a kept stretch, a range that is
replaced, and a text that is laid out by the remaining edits. -/
inductive Laid : Nat → Bytes → List Edit → Prop where
  | rest (position : Nat) (text : Bytes) : Laid position text []
  | edit {position : Nat} {text : Bytes} {edits : List Edit} (kept replaced content : Bytes) :
      replaced ≠ [] →
      Laid (position + kept.length + replaced.length) text edits →
      Laid position (kept ++ (replaced ++ text))
        (⟨Span.ofOffsets (position + kept.length) (position + kept.length + replaced.length),
            content⟩
          :: edits)

theorem laid_of_apart {edits : List Edit} {position : Nat} {text : Bytes}
    (lowest : ∀ edit ∈ edits, (position : Int) ≤ edit.span.start)
    (fits : ∀ edit ∈ edits, edit.span.Fits (position + text.length))
    (apart : edits.Pairwise fun left right => left.span.stop ≤ right.span.start) :
    Laid position text edits := by
  induction edits generalizing position text with
  | nil => exact .rest position text
  | cons edit edits induction =>
      obtain ⟨⟨start, stop⟩, content⟩ := edit
      have behind := lowest _ List.mem_cons_self
      obtain ⟨-, proper, highest⟩ := fits _ List.mem_cons_self
      dsimp only at behind proper highest
      obtain ⟨skipped, rfl⟩ := Int.le.dest behind
      obtain ⟨width, rfl⟩ := Int.le.dest proper.le
      have split : text = text.take skipped ++ ((text.drop skipped).take width ++
          (text.drop skipped).drop width) := by
        rw [List.take_append_drop, List.take_append_drop]
      have keptLength : (text.take skipped).length = skipped := by
        rw [List.length_take]
        omega
      have replacedLength : ((text.drop skipped).take width).length = width := by
        rw [List.length_take, List.length_drop]
        omega
      have restLength : ((text.drop skipped).drop width).length + skipped + width =
          text.length := by
        rw [List.length_drop, List.length_drop]
        omega
      have tail : Laid (position + skipped + width) ((text.drop skipped).drop width) edits := by
        apply induction
        · intro later member
          have ended := List.rel_of_pairwise_cons apart member
          dsimp only at ended
          omega
        · intro later member
          obtain ⟨positive, ordered, bound⟩ := fits later (List.mem_cons_of_mem _ member)
          exact ⟨positive, ordered, by omega⟩
        · exact apart.of_cons
      have nonempty : (text.drop skipped).take width ≠ [] := by
        rw [← List.length_pos_iff]
        omega
      rw [split]
      have laid : Laid position _ _ :=
        .edit (text.take skipped) ((text.drop skipped).take width) content nonempty
          (by rwa [keptLength, replacedLength])
      rwa [keptLength, replacedLength] at laid

theorem Arranged.laid {overlay : Overlay} (arranged : overlay.Arranged) :
    Laid 0 overlay.source overlay.edits := by
  apply laid_of_apart
  · exact fun edit member => (arranged.fits edit member).lowest
  · rw [Nat.zero_add]
    exact arranged.fits
  · exact arranged.apart

/-- What a piece says of itself is true of the source and of the output. -/
structure Piece.Sound (source output : Bytes) (piece : Piece) : Prop where
  proper : piece.source.start < piece.source.stop
  measured : piece.output.stop = piece.output.start + piece.text.length
  spelled : piece.text = piece.output.slice output
  kept : piece.origin = .source →
    piece.text = piece.source.slice source ∧
      piece.source.stop = piece.source.start + piece.text.length

theorem sound_of_mem_keptPieces {front written kept : Bytes} {piece : Piece}
    (member : piece ∈ keptPieces front.length written.length kept) (rest after : Bytes) :
    piece.Sound (front ++ (kept ++ rest)) (written ++ (kept ++ after)) := by
  rw [keptPieces] at member
  split at member
  · cases member
  · next nonempty =>
      rw [List.mem_singleton] at member
      subst member
      have positive : 0 < kept.length := by
        rw [List.length_pos_iff]
        simpa using nonempty
      constructor
      · simp only [Span.ofOffsets]
        omega
      · simp [Span.ofOffsets]
      · exact (Span.slice_append written kept after).symm
      · intro _
        refine ⟨(Span.slice_append front kept rest).symm, ?_⟩
        simp [Span.ofOffsets]

theorem flatMap_text_edited (kept content : Bytes) (position output : Nat) (piece : Piece)
    (pieces : List Piece) (spelled : piece.text = content) :
    (keptPieces position output kept ++ piece :: pieces).flatMap Piece.text =
      kept ++ (content ++ pieces.flatMap Piece.text) := by
  rw [List.flatMap_append, flatMap_text_keptPieces, List.flatMap_cons, spelled]

theorem tiles_keptPieces (position output : Nat) (kept : Bytes) :
    Tiles (position + kept.length : Nat) position
        ((keptPieces position output kept).map Piece.source) ∧
      Tiles (output + kept.length : Nat) output
        ((keptPieces position output kept).map Piece.output) := by
  cases kept with
  | nil => exact ⟨.done, .done⟩
  | cons byte kept => exact ⟨.cons_ofOffsets .done, .cons_ofOffsets .done⟩

namespace Laid

variable {position : Nat} {text : Bytes} {edits : List Edit}

theorem sound (laid : Laid position text edits) (front written : Bytes)
    (reached : front.length = position) :
    ∀ piece ∈ piecesFrom text position written.length edits,
      piece.Sound (front ++ text)
        (written ++ (piecesFrom text position written.length edits).flatMap Piece.text) := by
  induction laid generalizing front written with
  | rest position text =>
      subst reached
      intro piece member
      rw [piecesFrom_rest] at member ⊢
      rw [flatMap_text_keptPieces]
      have sound := sound_of_mem_keptPieces member [] []
      rwa [List.append_nil] at sound
  | @edit position text edits kept replaced content nonempty tail induction =>
      subst reached
      intro piece member
      rw [piecesFrom_edit] at member ⊢
      rw [flatMap_text_edited kept content _ _ _ _ rfl]
      rcases List.mem_append.mp member with before | member
      · exact sound_of_mem_keptPieces before _ _
      · rcases List.mem_cons.mp member with rfl | later
        · have positive : 0 < replaced.length := List.length_pos_iff.mpr nonempty
          constructor
          · simp only [Span.ofOffsets]
            omega
          · simp [Span.ofOffsets]
          · have slice := Span.slice_append (written ++ kept) content
              ((piecesFrom text (front.length + kept.length + replaced.length)
                (written.length + kept.length + content.length) edits).flatMap Piece.text)
            rw [List.length_append, List.append_assoc] at slice
            exact slice.symm
          · intro isKept
            cases isKept
        · have outputs : (written ++ (kept ++ content)).length =
              written.length + kept.length + content.length := by
            simp only [List.length_append]
            omega
          have sources : (front ++ (kept ++ replaced)).length =
              front.length + kept.length + replaced.length := by
            simp only [List.length_append]
            omega
          have sound := induction _ (written ++ (kept ++ content)) sources piece
          rw [outputs] at sound
          simpa only [List.append_assoc] using sound later

theorem tiles (laid : Laid position text edits) (output : Nat) :
    Tiles (position + text.length : Nat) position
        ((piecesFrom text position output edits).map Piece.source) ∧
      Tiles (output + ((piecesFrom text position output edits).flatMap Piece.text).length : Nat)
        output ((piecesFrom text position output edits).map Piece.output) := by
  induction laid generalizing output with
  | rest position text =>
      rw [piecesFrom_rest, flatMap_text_keptPieces]
      exact tiles_keptPieces position output text
  | @edit position text edits kept replaced content nonempty tail induction =>
      obtain ⟨keptSource, keptOutput⟩ := tiles_keptPieces position output kept
      obtain ⟨restSource, restOutput⟩ := induction (output + kept.length + content.length)
      rw [piecesFrom_edit, flatMap_text_edited kept content _ _ _ _ rfl, List.map_append,
        List.map_append, List.map_cons, List.map_cons, List.length_append, List.length_append,
        List.length_append, List.length_append]
      constructor
      · apply keptSource.append
        apply Tiles.cons_ofOffsets
        simpa only [Nat.add_assoc] using restSource
      · apply keptOutput.append
        apply Tiles.cons_ofOffsets
        simpa only [Nat.add_assoc] using restOutput

/-- The contents of the edits are the pieces that do not come from the source. -/
theorem edited (laid : Laid position text edits) (output : Nat) :
    ((piecesFrom text position output edits).filter fun piece => piece.origin == .edit).map
      (fun piece => ⟨piece.source, piece.text⟩) = edits := by
  have none (position output : Nat) (kept : Bytes) :
      ((keptPieces position output kept).filter fun piece => piece.origin == .edit) = [] := by
    cases kept with
    | nil => rfl
    | cons byte kept => rfl
  induction laid generalizing output with
  | rest position text =>
      rw [piecesFrom_rest, none]
      rfl
  | edit kept replaced content nonempty tail induction =>
      rw [piecesFrom_edit, List.filter_append, none, List.nil_append,
        List.filter_cons_of_pos rfl, List.map_cons, induction]

/-- The output is the source with the edits spliced in from the last to the first, so that
the ranges of those that are still to come stay where they are. -/
theorem spliced (laid : Laid position text edits) (front : Bytes)
    (reached : front.length = position) (output : Nat) :
    front ++ (piecesFrom text position output edits).flatMap Piece.text =
      edits.foldr Edit.splice (front ++ text) := by
  induction laid generalizing front output with
  | rest position text => rw [piecesFrom_rest, flatMap_text_keptPieces, List.foldr_nil]
  | @edit position text edits kept replaced content nonempty tail induction =>
      subst reached
      have sources : (front ++ kept ++ replaced).length =
          front.length + kept.length + replaced.length := by
        simp only [List.length_append]
      have later := induction _ sources (output + kept.length + content.length)
      have same : front ++ (kept ++ (replaced ++ text)) = front ++ kept ++ replaced ++ text := by
        simp only [List.append_assoc]
      rw [piecesFrom_edit, flatMap_text_edited kept content _ _ _ _ rfl, List.foldr_cons, same,
        ← later]
      simp only [Edit.splice, Span.ofOffsets, Int.toNat_natCast]
      rw [← sources, List.drop_left, List.append_assoc (front ++ kept) replaced,
        ← List.length_append, List.take_left]
      simp only [List.append_assoc]

end Laid

/-- The pieces tile the source and the output and spell them, and the output is the source
with every edited range replaced by its content. -/
structure Tiled (overlay : Overlay) : Prop where
  proper : ∀ piece ∈ overlay.pieces, piece.source.start < piece.source.stop
  sources : Tiles overlay.source.length 0 (overlay.pieces.map Piece.source)
  outputs : Tiles overlay.render.length 0 (overlay.pieces.map Piece.output)
  spelled : ∀ piece ∈ overlay.pieces, piece.text = piece.output.slice overlay.render
  kept : ∀ piece ∈ overlay.pieces, piece.origin = .source →
    piece.text = piece.source.slice overlay.source
  edited : (overlay.pieces.filter fun piece => piece.origin == .edit).map
    (fun piece => ⟨piece.source, piece.text⟩) = overlay.edits
  spliced : overlay.render = overlay.edits.foldr Edit.splice overlay.source

namespace Arranged

variable {overlay : Overlay}

theorem pieces_eq (nonempty : overlay.source ≠ []) :
    overlay.pieces = piecesFrom overlay.source 0 0 overlay.edits := by
  rw [pieces, if_neg (by simpa using nonempty)]

theorem sound (arranged : overlay.Arranged) (nonempty : overlay.source ≠ []) :
    ∀ piece ∈ overlay.pieces, piece.Sound overlay.source overlay.render := by
  have sound := arranged.laid.sound [] [] rfl
  rw [List.length_nil, ← pieces_eq nonempty, flatMap_text_pieces] at sound
  exact sound

theorem tiled (arranged : overlay.Arranged) (nonempty : overlay.source ≠ []) :
    overlay.Tiled := by
  have sound := arranged.sound nonempty
  have tiles := arranged.laid.tiles 0
  have spliced := arranged.laid.spliced [] rfl 0
  have edited := arranged.laid.edited 0
  rw [← pieces_eq nonempty] at tiles spliced edited
  rw [Nat.zero_add, Nat.zero_add, flatMap_text_pieces] at tiles
  rw [flatMap_text_pieces] at spliced
  exact
    { proper := fun piece member => (sound piece member).proper
      sources := tiles.1
      outputs := tiles.2
      spelled := fun piece member => (sound piece member).spelled
      kept := fun piece member kept => ((sound piece member).kept kept).1
      edited := edited
      spliced := spliced }

end Arranged

/-- Whatever edits were accepted on a source that is not empty, the pieces tile the source and
the output. -/
theorem pieces_tile {source : Bytes} {calls : List Edit} {overlay : Overlay}
    (nonempty : source ≠ [])
    (accepted : (ofSource source).overwriteAll calls = .ok overlay) :
    overlay.source = source ∧ overlay.Arranged ∧ overlay.edits.Perm calls ∧ overlay.Tiled := by
  obtain ⟨arranged, rfl, edits⟩ := arranged_of_overwriteAll accepted
  exact ⟨rfl, arranged, edits, arranged.tiled nonempty⟩

/-! ### Edits side by side, one without content -/

def adjacentSource : Bytes := [97, 98, 99, 100]

def adjacentCalls : List Edit := [⟨⟨2, 3⟩, []⟩, ⟨⟨0, 2⟩, [120]⟩]

def adjacentText : Overlay := ⟨adjacentSource, [⟨⟨0, 2⟩, [120]⟩, ⟨⟨2, 3⟩, []⟩]⟩

theorem pieces_tile_adjacent :
    (ofSource adjacentSource).overwriteAll adjacentCalls = .ok adjacentText ∧
      adjacentText.Tiled ∧ adjacentText.render = [120, 100] ∧
      adjacentText.pieces.map Piece.output = [⟨0, 1⟩, ⟨1, 1⟩, ⟨1, 2⟩] := by
  have accepted : (ofSource adjacentSource).overwriteAll adjacentCalls = .ok adjacentText := rfl
  obtain ⟨-, -, -, tiled⟩ := pieces_tile (by decide) accepted
  exact ⟨accepted, tiled, rfl, rfl⟩

end Overlay

end Reroute
