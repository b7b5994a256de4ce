import Mathlib
import Reroute.Transform

/-!
# Occurrences cut a text

The occurrences of a pattern cut a text into kept stretches with the pattern between
them.  Overwriting occurrences from left to right is therefore never refused, and the
pieces of the output are the kept stretches with the replacement between them.
-/

namespace Reroute

/-- A text that starts at a position is cut by spans: a kept stretch, the pattern, and a
text that is cut by the remaining spans. -/
inductive Cut (pattern : Bytes) : Nat → Bytes → List Span → Prop where
  | rest (position : Nat) (text : Bytes) : Cut pattern position text []
  | occurrence {position : Nat} {text : Bytes} {spans : List Span} (kept : Bytes) :
      Cut pattern (position + kept.length + pattern.length) text spans →
      Cut pattern position (kept ++ (pattern ++ text))
        (Span.ofOffsets (position + kept.length) (position + kept.length + pattern.length)
          :: spans)

namespace Cut

theorem cons {pattern : Bytes} {position : Nat} {text : Bytes} {spans : List Span}
    (byte : UInt8) (cut : Cut pattern (position + 1) text spans) :
    Cut pattern position (byte :: text) spans := by
  cases cut with
  | rest => exact .rest position (byte :: text)
  | @occurrence _ text spans kept tail =>
      have moved : position + 1 + kept.length = position + (byte :: kept).length := by
        simp only [List.length_cons]
        omega
      rw [moved] at tail ⊢
      exact .occurrence (byte :: kept) tail

/-- Spans lie behind the position and inside the text. -/
theorem bounds {pattern : Bytes} {position : Nat} {text : Bytes} {spans : List Span}
    (cut : Cut pattern position text spans) :
    ∀ span ∈ spans, (position : Int) ≤ span.start ∧
      span.stop = span.start + pattern.length ∧
      span.stop ≤ (position + text.length : Nat) := by
  induction cut with
  | rest => simp
  | occurrence kept tail induction =>
      intro span member
      rcases List.mem_cons.mp member with rfl | later
      · simp only [Span.ofOffsets, List.length_append]
        omega
      · have bound := induction span later
        simp only [List.length_append]
        omega

/-- No span starts before an earlier one has ended. -/
theorem pairwise {pattern : Bytes} {position : Nat} {text : Bytes} {spans : List Span}
    (cut : Cut pattern position text spans) :
    spans.Pairwise fun left right => left.stop ≤ right.start := by
  induction cut with
  | rest => exact List.Pairwise.nil
  | occurrence kept tail induction =>
      refine List.Pairwise.cons ?_ induction
      intro span member
      exact (tail.bounds span member).1

end Cut

/-! ### The search as a scan, byte by byte -/

theorem findFrom_succ (needle text : Bytes) (offset : Nat) :
    Bytes.findFrom needle (offset + 1) text = (Bytes.findFrom needle offset text).map (· + 1) := by
  induction text generalizing offset with
  | nil =>
      simp only [Bytes.findFrom]
      split <;> rfl
  | cons byte rest induction =>
      simp only [Bytes.findFrom]
      split
      · rfl
      · exact induction (offset + 1)

theorem find?_of_isPrefix {needle text : Bytes} (starts : needle <+: text) :
    Bytes.find? needle text = some 0 := by
  cases text with
  | nil => simp [Bytes.find?, Bytes.findFrom, List.prefix_nil.mp starts]
  | cons byte rest => simp [Bytes.find?, Bytes.findFrom, List.isPrefixOf_iff_prefix.mpr starts]

theorem find?_cons {needle rest : Bytes} {byte : UInt8} (missing : ¬needle <+: byte :: rest) :
    Bytes.find? needle (byte :: rest) = (Bytes.find? needle rest).map (· + 1) := by
  rw [← List.isPrefixOf_iff_prefix] at missing
  rw [Bytes.find?, Bytes.findFrom, if_neg missing]
  exact findFrom_succ needle rest 0

section

variable {pattern : Bytes} (nonempty : pattern ≠ [])
include nonempty

theorem occurrencesFrom_nil (position : Nat) :
    occurrencesFrom pattern nonempty position [] = [] := by
  have none : Bytes.find? pattern [] = none := by
    simpa [Bytes.find?, Bytes.findFrom] using nonempty
  rw [occurrencesFrom]
  split
  · rfl
  · next found => simp [none] at found

theorem occurrencesFrom_of_isPrefix (position : Nat) {text : Bytes} (starts : pattern <+: text) :
    occurrencesFrom pattern nonempty position text =
      Span.ofOffsets position (position + pattern.length) ::
        occurrencesFrom pattern nonempty (position + pattern.length)
          (text.drop pattern.length) := by
  rw [occurrencesFrom]
  split
  · next missing => simp [find?_of_isPrefix starts] at missing
  · next index found =>
      obtain rfl : 0 = index := by simpa [find?_of_isPrefix starts] using found
      rw [Nat.add_zero, Nat.zero_add]

theorem occurrencesFrom_cons (position : Nat) {byte : UInt8} {rest : Bytes}
    (missing : ¬pattern <+: byte :: rest) :
    occurrencesFrom pattern nonempty position (byte :: rest) =
      occurrencesFrom pattern nonempty (position + 1) rest := by
  have next := find?_cons missing
  rw [occurrencesFrom, occurrencesFrom]
  split
  · next none =>
      have silent : Bytes.find? pattern rest = .none := by simpa [next] using none
      split
      · rfl
      · next found => simp [silent] at found
  · next index found =>
      obtain ⟨behind, here, rfl⟩ : ∃ behind, Bytes.find? pattern rest = some behind ∧
          behind + 1 = index := by
        simpa [next] using found
      split
      · next silent => simp [here] at silent
      · next other same =>
          obtain rfl : behind = other := by simpa [here] using same
          have shift : position + (behind + 1) = position + 1 + behind := by omega
          have drop : behind + 1 + pattern.length = behind + pattern.length + 1 := by omega
          rw [shift, drop, List.drop_succ_cons]

/-- Induction along the scan: at the end of the text, at an occurrence, and at a byte where
none starts. -/
theorem scan_induction {motive : Nat → Bytes → Prop}
    (done : ∀ position, motive position [])
    (occurrence : ∀ position byte rest, pattern <+: byte :: rest →
      motive (position + pattern.length) ((byte :: rest).drop pattern.length) →
      motive position (byte :: rest))
    (missing : ∀ position byte rest, ¬pattern <+: byte :: rest →
      motive (position + 1) rest → motive position (byte :: rest))
    (position : Nat) (text : Bytes) : motive position text := by
  induction size : text.length using Nat.strong_induction_on generalizing position text with
  | h length induction =>
      cases text with
      | nil => exact done position
      | cons byte rest =>
          by_cases starts : pattern <+: byte :: rest
          · have positive := List.length_pos_iff.mpr nonempty
            refine occurrence position byte rest starts (induction _ ?_ _ _ rfl)
            rw [List.length_drop, ← size, List.length_cons]
            omega
          · exact missing position byte rest starts (induction _ (by simp [← size]) _ _ rfl)

theorem cut_occurrencesFrom (position : Nat) (text : Bytes) :
    Cut pattern position text (occurrencesFrom pattern nonempty position text) := by
  induction position, text using scan_induction nonempty with
  | done position =>
      rw [occurrencesFrom_nil nonempty]
      exact .rest position []
  | occurrence position byte rest starts induction =>
      rw [occurrencesFrom_of_isPrefix nonempty position starts]
      obtain ⟨tail, equality⟩ := starts
      rw [← equality, List.drop_left] at induction ⊢
      have cut : Cut pattern position ([] ++ (pattern ++ tail)) _ := .occurrence [] induction
      rwa [List.nil_append] at cut
  | missing position byte rest missing induction =>
      rw [occurrencesFrom_cons nonempty position missing]
      exact induction.cons byte

theorem cut_occurrences (text : Bytes) : Cut pattern 0 text (occurrences pattern text) := by
  rw [occurrences, dif_neg nonempty]
  exact cut_occurrencesFrom nonempty 0 text

end

namespace Overlay

/-- An edit that starts behind all edits so far is accepted and put at their end. -/
theorem overwrite_at_end {overlay : Overlay} {span : Span} (content : Bytes)
    (inside : span.within overlay.source.length = true) (proper : span.start < span.stop)
    (earlier : ∀ edit ∈ overlay.edits,
      edit.span.start < edit.span.stop ∧ edit.span.stop ≤ span.start) :
    overlay.overwrite span content =
      .ok { overlay with edits := overlay.edits ++ [⟨span, content⟩] } := by
  have allBefore : ∀ edit ∈ overlay.edits, decide (edit.span.start < span.start) = true := by
    intro edit member
    have bounds := earlier edit member
    exact decide_eq_true (by omega)
  have before : overlay.editsBefore span.start = overlay.edits :=
    List.takeWhile_eq_self_iff.mpr allBefore
  have from_ : overlay.editsFrom span.start = [] :=
    List.dropWhile_eq_nil_iff.mpr allBefore
  have apart : ∀ edit ∈ overlay.edits, edit.span.overlaps span = false := by
    intro edit member
    have bounds := earlier edit member
    simp [Span.overlaps, Int.not_lt.mpr bounds.2]
  have clear : overlay.clash? span = none := by
    rw [clash?, before, from_]
    cases last : overlay.edits.getLast? with
    | none => rfl
    | some edit =>
        simp [Option.filter, apart edit (List.mem_of_getLast? last)]
  have notEmpty : span.isEmpty = false := by
    simp [Span.isEmpty, Int.ne_of_lt proper]
  simp [overwrite, inside, notEmpty, clear, before, from_]

def editsOf (replacement : Bytes) (spans : List Span) : List Edit :=
  spans.map fun span => ⟨span, replacement⟩

theorem overwriteAll_of_cut {pattern : Bytes} (nonempty : pattern ≠ []) (replacement : Bytes)
    {position : Nat} {text : Bytes} {spans : List Span} (cut : Cut pattern position text spans)
    (overlay : Overlay) (size : overlay.source.length = position + text.length)
    (earlier : ∀ edit ∈ overlay.edits,
      edit.span.start < edit.span.stop ∧ edit.span.stop ≤ (position : Int)) :
    overlay.overwriteAll (editsOf replacement spans) =
      .ok { overlay with edits := overlay.edits ++ editsOf replacement spans } := by
  induction cut generalizing overlay with
  | rest => simp [editsOf, overwriteAll]
  | @occurrence position text spans kept tail induction =>
      have positive : 0 < pattern.length := List.length_pos_iff.mpr nonempty
      let span :=
        Span.ofOffsets (position + kept.length) (position + kept.length + pattern.length)
      simp only [List.length_append] at size
      have inside : span.within overlay.source.length = true := by
        simp only [Span.within, span, Span.ofOffsets, Bool.and_eq_true, decide_eq_true_eq]
        omega
      have proper : span.start < span.stop := by
        simp only [span, Span.ofOffsets]
        omega
      have accepted := overwrite_at_end replacement inside proper (by
        intro edit member
        have bounds := earlier edit member
        simp only [span, Span.ofOffsets]
        omega)
      have continued :=
        induction { overlay with edits := overlay.edits ++ [⟨span, replacement⟩] }
          (by simp only; omega) (by
            intro edit member
            rcases List.mem_append.mp member with before | last
            · have bounds := earlier edit before
              omega
            · rw [List.mem_singleton.mp last]
              simp only [span, Span.ofOffsets]
              omega)
      have first : editsOf replacement (span :: spans) =
          ⟨span, replacement⟩ :: editsOf replacement spans := rfl
      rw [first, overwriteAll, accepted]
      simp only
      rw [continued, List.append_assoc, List.singleton_append]

/-- The piece of a kept stretch; an empty stretch has none. -/
def keptPieces (position output : Nat) (kept : Bytes) : List Piece :=
  if kept.isEmpty then []
  else
    [⟨.source, kept, Span.ofOffsets position (position + kept.length),
      Span.ofOffsets output (output + kept.length)⟩]

theorem piecesFrom_rest (text : Bytes) (position output : Nat) :
    piecesFrom text position output [] = keptPieces position output text := rfl

/-- A text that is cut at an edit gives the kept stretch, the content of the edit, and the
pieces of the text behind the edited range. -/
theorem piecesFrom_edit (kept replaced text content : Bytes) (position output : Nat)
    (edits : List Edit) :
    piecesFrom (kept ++ (replaced ++ text)) position output
        (⟨Span.ofOffsets (position + kept.length) (position + kept.length + replaced.length),
            content⟩
          :: edits) =
      keptPieces position output kept
        ++ ⟨.edit, content,
            Span.ofOffsets (position + kept.length) (position + kept.length + replaced.length),
            Span.ofOffsets (output + kept.length) (output + kept.length + content.length)⟩
          :: piecesFrom text (position + kept.length + replaced.length)
              (output + kept.length + content.length) edits := by
  let span :=
    Span.ofOffsets (position + kept.length) (position + kept.length + replaced.length)
  have start : span.start.toNat = position + kept.length := Int.toNat_natCast _
  have stop : span.stop.toNat = position + kept.length + replaced.length := Int.toNat_natCast _
  have width : position + kept.length - position = kept.length := by omega
  have reach : position + kept.length + replaced.length - position =
      (kept ++ replaced).length := by
    rw [List.length_append]
    omega
  have dropped : (kept ++ (replaced ++ text)).drop (kept ++ replaced).length = text := by
    rw [← List.append_assoc, List.drop_left]
  change piecesFrom _ _ _ (⟨span, content⟩ :: edits) = _
  simp only [piecesFrom, start, stop, width, reach, List.take_left, dropped]
  cases kept with
  | nil =>
      rw [if_neg (by simp)]
      rfl
  | cons byte kept =>
      rw [if_pos (by simp only [List.length_cons]; omega)]
      rfl

/-- A text that is cut at an occurrence gives the kept stretch, the replacement, and the
pieces of the text behind the occurrence. -/
theorem piecesFrom_occurrence (kept pattern text replacement : Bytes) (position output : Nat)
    (spans : List Span) :
    piecesFrom (kept ++ (pattern ++ text)) position output
        (editsOf replacement
          (Span.ofOffsets (position + kept.length) (position + kept.length + pattern.length)
            :: spans)) =
      keptPieces position output kept
        ++ ⟨.edit, replacement,
            Span.ofOffsets (position + kept.length) (position + kept.length + pattern.length),
            Span.ofOffsets (output + kept.length)
              (output + kept.length + replacement.length)⟩
          :: piecesFrom text (position + kept.length + pattern.length)
              (output + kept.length + replacement.length) (editsOf replacement spans) :=
  piecesFrom_edit kept pattern text replacement position output (editsOf replacement spans)

theorem flatMap_text_keptPieces (position output : Nat) (kept : Bytes) :
    (keptPieces position output kept).flatMap Piece.text = kept := by
  cases kept with
  | nil => rfl
  | cons byte kept => simp [keptPieces]

theorem pieces_of_cut {pattern code : Bytes} {spans : List Span}
    (cut : Cut pattern 0 code spans) (replacement : Bytes) (nonempty : pattern ≠ []) :
    pieces ⟨code, editsOf replacement spans⟩ =
      piecesFrom code 0 0 (editsOf replacement spans) := by
  rw [pieces]
  split
  · next empty =>
      have noCode : code = [] := by simpa using empty
      cases cut with
      | rest => simp [noCode, editsOf, piecesFrom]
      | occurrence kept tail => simp_all
  · rfl

theorem render_of_cut {pattern code : Bytes} {spans : List Span}
    (cut : Cut pattern 0 code spans) (replacement : Bytes) (nonempty : pattern ≠ []) :
    render ⟨code, editsOf replacement spans⟩ =
      (piecesFrom code 0 0 (editsOf replacement spans)).flatMap Piece.text := by
  rw [render, pieces_of_cut cut replacement nonempty]
  split
  · rfl
  · next same =>
      cases spans with
      | nil => rw [show editsOf replacement [] = [] from rfl, piecesFrom_rest,
          flatMap_text_keptPieces]
      | cons span spans => simp [hasChanged, editsOf] at same

end Overlay

namespace Rule

theorem edit_occurrences (rule : Rule) (nonempty : rule.pattern ≠ []) (code : Bytes) :
    rule.edit code (occurrences rule.pattern code) =
      .ok ⟨code, Overlay.editsOf rule.replacement (occurrences rule.pattern code)⟩ := by
  have accepted :=
    Overlay.overwriteAll_of_cut nonempty rule.replacement (cut_occurrences nonempty code)
      (Overlay.ofSource code) (Nat.zero_add _).symm (by simp [Overlay.ofSource])
  simpa [edit, Overlay.editsOf, Overlay.ofSource] using accepted

/-- What a rule that changes code makes of it. -/
theorem transform_eq_changed {rule : Rule} (nonempty : rule.pattern ≠ [])
    {options : TransformOptions} {code output : Bytes} {map : SourceMap} {spans : List Span}
    (changed : rule.transform options code = .ok (.changed output map spans)) :
    spans = occurrences rule.pattern code ∧ spans ≠ [] ∧
      output = Overlay.render ⟨code, Overlay.editsOf rule.replacement spans⟩ ∧
      map = Overlay.map ⟨code, Overlay.editsOf rule.replacement spans⟩
        { source := options.sourceName
          file := options.file
          includeContent := options.includeContent
          everyCharacter := true } := by
  simp only [transform, edit_occurrences rule nonempty code] at changed
  split at changed
  · cases changed
  · next found =>
      cases changed
      refine ⟨rfl, ?_, rfl, rfl⟩
      simpa using found

end Rule

end Reroute
