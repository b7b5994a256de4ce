import Mathlib
import Reroute.Proofs.Overlay.Tiling

/-!
# Offsets lead back to the source

An offset of the output lies in one piece.  If that is a kept stretch, the offset leads to the
same place of the stretch in the source, and otherwise to the start of the edited range.  The
offsets that lead to bytes of the source therefore keep their order, and what they lead to is
what no edit touches.
-/

namespace Reroute

/-- A byte of a slice stands as far behind the start of the slice in the text. -/
theorem Span.getElem?_of_slice {span : Span} {text part : Bytes} (spelled : part = span.slice text)
    {index : Nat} (inside : index < part.length) :
    text[span.start.toNat + index]? = part[index]? := by
  subst spelled
  rw [slice, Bytes.slice, List.length_take] at inside
  rw [slice, Bytes.slice, List.getElem?_take, if_pos (by omega), List.getElem?_drop]

namespace Overlay

/-- What an offset of the output that lies in a piece leads to. -/
def Piece.trace (piece : Piece) (offset : Int) : Int × Bool :=
  match piece.origin with
  | .edit => (piece.source.start, false)
  | .source => (piece.source.start + (offset - piece.output.start), true)

/-- The output offsets that lead to a byte of the source. -/
def ownOffsets (overlay : Overlay) : Set Int :=
  {offset | 0 ≤ offset ∧ offset < overlay.render.length ∧ (overlay.sourceOffset offset).2 = true}

/-- The source offsets that lie in no edited range. -/
def keptOffsets (overlay : Overlay) : Set Int :=
  {place | 0 ≤ place ∧ place < overlay.source.length ∧
    ∀ edit ∈ overlay.edits, edit.span.contains place = false}

namespace Tiled

variable {overlay : Overlay} {piece other : Piece} {offset : Int}

/-- Of two pieces one comes first in both texts. -/
theorem eq_or_apart (tiled : overlay.Tiled) (member : piece ∈ overlay.pieces)
    (otherMember : other ∈ overlay.pieces) :
    piece = other ∨
      (piece.output.stop ≤ other.output.start ∧ piece.source.stop ≤ other.source.start) ∨
      (other.output.stop ≤ piece.output.start ∧ other.source.stop ≤ piece.source.start) := by
  let apart (left right : Piece) : Prop :=
    left.output.stop ≤ right.output.start ∧ left.source.stop ≤ right.source.start
  have ordered : overlay.pieces.Pairwise apart :=
    (List.pairwise_map.mp tiled.outputs.pairwise).and (List.pairwise_map.mp tiled.sources.pairwise)
  apply List.Pairwise.forall_of_forall_of_flip (R := fun left right =>
    left = right ∨ apart left right ∨ apart right left) (l := overlay.pieces)
  · exact fun _ _ => .inl rfl
  · exact ordered.imp fun before => .inr (.inl before)
  · exact ordered.imp fun before => .inr (.inr before)
  · exact member
  · exact otherMember

theorem find?_pieces (tiled : overlay.Tiled) (member : piece ∈ overlay.pieces)
    (inside : piece.output.contains offset = true) :
    overlay.pieces.find? (fun piece => decide (offset < piece.output.stop)) = some piece := by
  rw [Span.contains_iff] at inside
  obtain ⟨front, rest, split⟩ := List.append_of_mem member
  have ordered := List.pairwise_map.mp tiled.outputs.pairwise
  rw [split] at ordered
  refine List.find?_eq_some_iff_append.mpr ⟨decide_eq_true inside.2, front, rest, split, ?_⟩
  intro earlier earlierMember
  have ended := (List.pairwise_append.mp ordered).2.2 earlier earlierMember piece
    List.mem_cons_self
  rw [Bool.not_eq_true', decide_eq_false_iff_not]
  omega

/-- Bisection by the ends of the pieces finds the same piece, although pieces without text end
where the one before them does. -/
theorem getElem?_firstIndex_pieces (tiled : overlay.Tiled) (offset : Int) :
    overlay.pieces[Search.firstIndex overlay.pieces.length fun index =>
        overlay.pieces[index]?.any fun piece => decide (offset < piece.output.stop)]? =
      overlay.pieces.find? fun piece => decide (offset < piece.output.stop) := by
  have ordered : overlay.pieces.Pairwise fun left right =>
      decide (right.output.stop ≤ offset) = true → decide (left.output.stop ≤ offset) = true := by
    refine (List.pairwise_map.mp tiled.outputs.pairwise_stop).imp ?_
    intro left right ordered
    simp only [decide_eq_true_eq]
    exact ordered.trans
  simpa only [← decide_not, not_le] using Search.getElem?_firstIndex ordered

theorem getLast?_pieces (tiled : overlay.Tiled) (nonempty : overlay.source ≠ []) :
    ∃ last, overlay.pieces.getLast? = some last ∧ last.output.stop = overlay.render.length := by
  have positive : 0 < overlay.source.length := List.length_pos_iff.mpr nonempty
  obtain ⟨span, member, -⟩ := tiled.sources.exists_contains (le_refl 0) (by omega)
  have given : overlay.pieces ≠ [] := by
    intro none
    simp [none] at member
  obtain ⟨last, found⟩ := Option.isSome_iff_exists.mp (List.getLast?_isSome.mpr given)
  refine ⟨last, found, tiled.outputs.stop_of_getLast? ?_⟩
  rw [List.getLast?_map, found]
  rfl

theorem sourceOffset_eq (tiled : overlay.Tiled) (nonempty : overlay.source ≠ []) (offset : Int) :
    overlay.sourceOffset offset =
      if offset < 0 ∨ overlay.render.length < offset then (0, false)
      else if offset = overlay.render.length then ((overlay.source.length : Int), true)
      else
        match overlay.pieces.find? fun piece => decide (offset < piece.output.stop) with
        | none => (0, false)
        | some piece => piece.trace offset := by
  obtain ⟨last, found, stop⟩ := tiled.getLast?_pieces nonempty
  simp only [sourceOffset, found, stop, tiled.getElem?_firstIndex_pieces, Bool.or_eq_true,
    decide_eq_true_eq, beq_iff_eq]
  rfl

theorem sourceOffset_of_contains (tiled : overlay.Tiled) (nonempty : overlay.source ≠ [])
    (member : piece ∈ overlay.pieces) (inside : piece.output.contains offset = true) :
    0 ≤ offset ∧ offset < overlay.render.length ∧
      overlay.sourceOffset offset = piece.trace offset := by
  have bounds := tiled.outputs.bounds.2 piece.output (List.mem_map_of_mem member)
  have within := (Span.contains_iff _ _).mp inside
  refine ⟨by omega, by omega, ?_⟩
  rw [tiled.sourceOffset_eq nonempty, if_neg (by omega), if_neg (by omega),
    tiled.find?_pieces member inside]

/-- An offset inside the output lies in a piece and is traced there. -/
theorem exists_trace (tiled : overlay.Tiled) (nonempty : overlay.source ≠ [])
    (lowest : 0 ≤ offset) (highest : offset < overlay.render.length) :
    ∃ piece ∈ overlay.pieces, piece.output.contains offset = true ∧
      overlay.sourceOffset offset = piece.trace offset := by
  obtain ⟨span, member, inside⟩ := tiled.outputs.exists_contains lowest highest
  obtain ⟨piece, pieceMember, rfl⟩ := List.mem_map.mp member
  exact ⟨piece, pieceMember, inside,
    (tiled.sourceOffset_of_contains nonempty pieceMember inside).2.2⟩

theorem mem_edits_iff (tiled : overlay.Tiled) {edit : Edit} :
    edit ∈ overlay.edits ↔
      ∃ piece ∈ overlay.pieces, piece.origin = .edit ∧ piece.source = edit.span ∧
        piece.text = edit.content := by
  rw [← tiled.edited, List.mem_map]
  simp only [List.mem_filter, beq_iff_eq]
  constructor
  · rintro ⟨piece, ⟨member, origin⟩, rfl⟩
    exact ⟨piece, member, origin, rfl, rfl⟩
  · rintro ⟨piece, member, origin, span, content⟩
    exact ⟨piece, ⟨member, origin⟩, by rw [span, content]⟩

/-- No edit touches the kept stretches. -/
theorem not_contains_of_kept (tiled : overlay.Tiled) (member : piece ∈ overlay.pieces)
    (kept : piece.origin = .source) {place : Int} (inside : piece.source.contains place = true)
    {edit : Edit} (edited : edit ∈ overlay.edits) : edit.span.contains place = false := by
  obtain ⟨other, otherMember, origin, span, -⟩ := tiled.mem_edits_iff.mp edited
  rw [← span, Bool.eq_false_iff]
  intro touches
  rw [Span.contains_iff] at inside touches
  rcases tiled.eq_or_apart member otherMember with same | before | behind
  · rw [same, origin] at kept
    cases kept
  · omega
  · omega

end Tiled

namespace Arranged

variable {overlay : Overlay} {piece : Piece} {offset : Int}

/-- An offset in a kept stretch stands as far behind its start in both texts. -/
theorem contains_trace (arranged : overlay.Arranged) (nonempty : overlay.source ≠ [])
    (member : piece ∈ overlay.pieces) (kept : piece.origin = .source) :
    piece.output.contains offset = true ↔
      piece.source.contains (piece.source.start + (offset - piece.output.start)) = true := by
  have sound := arranged.sound nonempty piece member
  have sourceStop := (sound.kept kept).2
  have outputStop := sound.measured
  rw [Span.contains_iff, Span.contains_iff]
  omega

theorem exists_kept_piece (arranged : overlay.Arranged) (nonempty : overlay.source ≠ [])
    (own : offset ∈ overlay.ownOffsets) :
    ∃ piece ∈ overlay.pieces, piece.origin = .source ∧ piece.output.contains offset = true ∧
      (overlay.sourceOffset offset).1 = piece.source.start + (offset - piece.output.start) := by
  obtain ⟨lowest, highest, answered⟩ := own
  obtain ⟨piece, member, inside, traced⟩ :=
    (arranged.tiled nonempty).exists_trace nonempty lowest highest
  rw [traced] at answered ⊢
  cases origin : piece.origin with
  | edit => simp [Piece.trace, origin] at answered
  | source => exact ⟨piece, member, origin, inside, by simp [Piece.trace, origin]⟩

theorem mapsTo_keptOffsets (arranged : overlay.Arranged) (nonempty : overlay.source ≠ []) :
    Set.MapsTo (fun offset => (overlay.sourceOffset offset).1) overlay.ownOffsets
      overlay.keptOffsets := by
  intro offset own
  have tiled := arranged.tiled nonempty
  obtain ⟨piece, member, kept, inside, answer⟩ := arranged.exists_kept_piece nonempty own
  rw [arranged.contains_trace nonempty member kept, ← answer] at inside
  have bounds := tiled.sources.bounds.2 piece.source (List.mem_map_of_mem member)
  have within := (Span.contains_iff _ _).mp inside
  have lands : (overlay.sourceOffset offset).1 ∈ overlay.keptOffsets :=
    ⟨by omega, by omega, fun edit edited => tiled.not_contains_of_kept member kept inside edited⟩
  exact lands

theorem surjOn_keptOffsets (arranged : overlay.Arranged) (nonempty : overlay.source ≠ []) :
    Set.SurjOn (fun offset => (overlay.sourceOffset offset).1) overlay.ownOffsets
      overlay.keptOffsets := by
  rintro place ⟨lowest, highest, free⟩
  have tiled := arranged.tiled nonempty
  obtain ⟨span, spanMember, inside⟩ := tiled.sources.exists_contains lowest highest
  obtain ⟨piece, member, rfl⟩ := List.mem_map.mp spanMember
  have kept : piece.origin = .source := by
    cases origin : piece.origin with
    | source => rfl
    | edit =>
        have edited : ⟨piece.source, piece.text⟩ ∈ overlay.edits :=
          tiled.mem_edits_iff.mpr ⟨piece, member, origin, rfl, rfl⟩
        rw [free _ edited] at inside
        cases inside
  -- The place is reached from as far behind the start of the piece in the output.
  have returns : piece.source.start +
      (piece.output.start + (place - piece.source.start) - piece.output.start) = place := by
    omega
  have landed : piece.output.contains (piece.output.start + (place - piece.source.start)) =
      true := by
    rwa [arranged.contains_trace nonempty member kept, returns]
  obtain ⟨positive, within, traced⟩ := tiled.sourceOffset_of_contains nonempty member landed
  have answer : overlay.sourceOffset (piece.output.start + (place - piece.source.start)) =
      (place, true) := by
    rw [traced, Piece.trace, kept]
    simp only [returns]
  exact ⟨_, ⟨positive, within, by rw [answer]⟩, congrArg Prod.fst answer⟩

theorem strictMonoOn_sourceOffset (arranged : overlay.Arranged)
    (nonempty : overlay.source ≠ []) :
    StrictMonoOn (fun offset => (overlay.sourceOffset offset).1) overlay.ownOffsets := by
  intro left leftOwn right rightOwn ordered
  obtain ⟨first, firstMember, firstKept, firstInside, firstAnswer⟩ :=
    arranged.exists_kept_piece nonempty leftOwn
  obtain ⟨second, secondMember, secondKept, secondInside, secondAnswer⟩ :=
    arranged.exists_kept_piece nonempty rightOwn
  have firstTraced := (arranged.contains_trace nonempty firstMember firstKept).mp firstInside
  have secondTraced := (arranged.contains_trace nonempty secondMember secondKept).mp secondInside
  rw [← firstAnswer] at firstTraced
  rw [← secondAnswer] at secondTraced
  rw [Span.contains_iff] at firstInside secondInside firstTraced secondTraced
  rcases (arranged.tiled nonempty).eq_or_apart firstMember secondMember with
    rfl | before | behind
  · dsimp only
    omega
  · dsimp only
    omega
  · omega

/-- The byte of the output is the one of the source that its offset leads to. -/
theorem getElem?_sourceOffset (arranged : overlay.Arranged) (nonempty : overlay.source ≠ [])
    (own : offset ∈ overlay.ownOffsets) :
    overlay.render[offset.toNat]? = overlay.source[(overlay.sourceOffset offset).1.toNat]? := by
  obtain ⟨piece, member, kept, inside, answer⟩ := arranged.exists_kept_piece nonempty own
  have tiled := arranged.tiled nonempty
  have sound := arranged.sound nonempty piece member
  have measured := sound.measured
  have sourceBounds := tiled.sources.bounds.2 piece.source (List.mem_map_of_mem member)
  have outputBounds := tiled.outputs.bounds.2 piece.output (List.mem_map_of_mem member)
  rw [Span.contains_iff] at inside
  have index : (offset - piece.output.start).toNat < piece.text.length := by omega
  have written := Span.getElem?_of_slice sound.spelled index
  have copied := Span.getElem?_of_slice (sound.kept kept).1 index
  have outputPlace : piece.output.start.toNat + (offset - piece.output.start).toNat =
      offset.toNat := by
    omega
  have sourcePlace : piece.source.start.toNat + (offset - piece.output.start).toNat =
      (overlay.sourceOffset offset).1.toNat := by
    omega
  rw [outputPlace] at written
  rw [sourcePlace] at copied
  rw [written, copied]

end Arranged

/-- Whatever edits were accepted on a source that is not empty, offsets of the output lead back
to it.  Those that lead to a byte of the source lead to the same byte, in order, and to all that
no edit touches.  The others lie in the content of an edit and lead to the start of its range.
The end leads to the end, and what lies outside leads nowhere. -/
theorem sourceOffset_inverts {source : Bytes} {calls : List Edit} {overlay : Overlay}
    (nonempty : source ≠ [])
    (accepted : (ofSource source).overwriteAll calls = .ok overlay) :
    (overlay.source = source ∧ overlay.edits.Perm calls) ∧
    StrictMonoOn (fun offset => (overlay.sourceOffset offset).1) overlay.ownOffsets ∧
    Set.BijOn (fun offset => (overlay.sourceOffset offset).1) overlay.ownOffsets
      overlay.keptOffsets ∧
    (∀ offset ∈ overlay.ownOffsets,
      overlay.render[offset.toNat]? = overlay.source[(overlay.sourceOffset offset).1.toNat]?) ∧
    (∀ offset : Int, 0 ≤ offset → offset < overlay.render.length →
      (overlay.sourceOffset offset).2 = false →
      ∃ edit ∈ overlay.edits, ∃ output : Span,
        ⟨.edit, edit.content, edit.span, output⟩ ∈ overlay.pieces ∧
          output.contains offset = true ∧ overlay.sourceOffset offset = (edit.span.start, false)) ∧
    overlay.sourceOffset overlay.render.length = ((overlay.source.length : Int), true) ∧
    ∀ offset : Int, offset < 0 ∨ overlay.render.length < offset →
      overlay.sourceOffset offset = (0, false) := by
  obtain ⟨arranged, rfl, edits⟩ := arranged_of_overwriteAll accepted
  have tiled := arranged.tiled nonempty
  have ordered := arranged.strictMonoOn_sourceOffset nonempty
  refine ⟨⟨rfl, edits⟩, ordered, ⟨arranged.mapsTo_keptOffsets nonempty, ordered.injOn,
    arranged.surjOn_keptOffsets nonempty⟩,
    fun offset own => arranged.getElem?_sourceOffset nonempty own, ?_, ?_, ?_⟩
  · intro offset lowest highest foreign
    obtain ⟨piece, member, inside, traced⟩ := tiled.exists_trace nonempty lowest highest
    rw [traced] at foreign ⊢
    cases origin : piece.origin with
    | source => simp [Piece.trace, origin] at foreign
    | edit =>
        refine ⟨⟨piece.source, piece.text⟩,
          tiled.mem_edits_iff.mpr ⟨piece, member, origin, rfl, rfl⟩, piece.output, ?_, inside, ?_⟩
        · rwa [← origin]
        · simp [Piece.trace, origin]
  · rw [tiled.sourceOffset_eq nonempty, if_neg (by omega), if_pos rfl]
  · intro offset outside
    rw [tiled.sourceOffset_eq nonempty, if_pos outside]

theorem sourceOffset_inverts_adjacent :
    (ofSource adjacentSource).overwriteAll adjacentCalls = .ok adjacentText ∧
      Set.BijOn (fun offset => (adjacentText.sourceOffset offset).1) adjacentText.ownOffsets
        adjacentText.keptOffsets ∧
      [0, 1, 2].map adjacentText.sourceOffset = [(0, false), (3, true), (4, true)] := by
  have accepted : (ofSource adjacentSource).overwriteAll adjacentCalls = .ok adjacentText := rfl
  obtain ⟨-, -, bijective, -⟩ := sourceOffset_inverts (by decide) accepted
  exact ⟨accepted, bijective, by decide +kernel⟩

end Overlay

end Reroute
