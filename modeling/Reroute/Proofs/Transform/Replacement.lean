import Mathlib
import Reroute.Proofs.Rule.Keywords

/-!
# A transform is literal replacement

The plainest way to replace a pattern is to go through a text from left to right: where the
rest starts with the pattern, the replacement is written and the pattern is passed over, and
otherwise one byte is copied.  A transform searches for all occurrences first, overwrites
them in an overlay and renders that.  It comes to the same, for patterns that overlap
themselves and for occurrences side by side as well, and no overwrite is ever refused.
-/

namespace Reroute

/-- Going through a text from left to right: the position it starts at, the text, what is
written for it, and the ranges that were replaced. -/
inductive Replaces (pattern replacement : Bytes) : Nat → Bytes → Bytes → List Span → Prop where
  | done (position : Nat) : Replaces pattern replacement position [] [] []
  | replace {position : Nat} {byte : UInt8} {rest output : Bytes} {spans : List Span} :
      pattern <+: byte :: rest →
      Replaces pattern replacement (position + pattern.length)
        ((byte :: rest).drop pattern.length) output spans →
      Replaces pattern replacement position (byte :: rest) (replacement ++ output)
        (Span.ofOffsets position (position + pattern.length) :: spans)
  | copy {position : Nat} {byte : UInt8} {rest output : Bytes} {spans : List Span} :
      ¬pattern <+: byte :: rest →
      Replaces pattern replacement (position + 1) rest output spans →
      Replaces pattern replacement position (byte :: rest) (byte :: output) spans

namespace Replaces

variable {pattern replacement : Bytes} {position : Nat} {text output other : Bytes}
  {spans ranges : List Span}

/-- There is one way to go through a text. -/
theorem unique (left : Replaces pattern replacement position text output spans)
    (right : Replaces pattern replacement position text other ranges) :
    output = other ∧ spans = ranges := by
  induction left generalizing other ranges with
  | done =>
      cases right
      exact ⟨rfl, rfl⟩
  | replace starts _ induction =>
      cases right with
      | replace _ later =>
          obtain ⟨rfl, rfl⟩ := induction later
          exact ⟨rfl, rfl⟩
      | copy missing _ => exact absurd starts missing
  | copy missing _ induction =>
      cases right with
      | replace starts _ => exact absurd starts missing
      | copy _ later =>
          obtain ⟨rfl, rfl⟩ := induction later
          exact ⟨rfl, rfl⟩

/-- Where nothing was replaced, the pattern does not occur. -/
theorem not_infix (nonempty : pattern ≠ [])
    (scanned : Replaces pattern replacement position text output []) : ¬pattern <:+: text := by
  generalize none : ([] : List Span) = found at scanned
  induction scanned with
  | done => exact fun occurs => nonempty (List.infix_nil.mp occurs)
  | replace => cases none
  | copy missing _ induction =>
      intro occurs
      rcases List.infix_cons_iff.mp occurs with here | later
      · exact missing here
      · exact induction none later

end Replaces

namespace Overlay

/-- A byte in front of a text that is cut is written in front of what the text gives. -/
theorem flatMap_text_piecesFrom_cons {pattern text : Bytes} {position : Nat}
    {spans : List Span} (cut : Cut pattern (position + 1) text spans) (byte : UInt8)
    (replacement : Bytes) (output : Nat) :
    (piecesFrom (byte :: text) position output (editsOf replacement spans)).flatMap
        Piece.text =
      byte :: (piecesFrom text (position + 1) (output + 1) (editsOf replacement spans)).flatMap
        Piece.text := by
  cases cut with
  | rest =>
      rw [show editsOf replacement [] = [] from rfl, piecesFrom_rest, piecesFrom_rest,
        flatMap_text_keptPieces, flatMap_text_keptPieces]
  | @occurrence _ text spans kept tail =>
      have moved (start : Nat) : start + 1 + kept.length = start + (byte :: kept).length := by
        simp only [List.length_cons]
        omega
      rw [piecesFrom_occurrence, moved, moved, ← List.cons_append, piecesFrom_occurrence]
      simp only [List.flatMap_append, List.flatMap_cons, flatMap_text_keptPieces,
        List.cons_append]

/-- Overwriting the occurrences of a pattern comes to going through the text. -/
theorem replaces_occurrencesFrom {pattern : Bytes} (nonempty : pattern ≠ [])
    (replacement : Bytes) (position output : Nat) (text : Bytes) :
    Replaces pattern replacement position text
      ((piecesFrom text position output
        (editsOf replacement (occurrencesFrom pattern nonempty position text))).flatMap Piece.text)
      (occurrencesFrom pattern nonempty position text) := by
  induction position, text using scan_induction nonempty generalizing output with
  | done position =>
      rw [occurrencesFrom_nil nonempty]
      exact .done position
  | occurrence position byte rest starts induction =>
      rw [occurrencesFrom_of_isPrefix nonempty position starts]
      obtain ⟨tail, equality⟩ := id starts
      have behind : (byte :: rest).drop pattern.length = tail := by
        rw [← equality, List.drop_left]
      rw [behind] at induction ⊢
      have pieces := piecesFrom_occurrence [] pattern tail replacement position output
        (occurrencesFrom pattern nonempty (position + pattern.length) tail)
      simp only [List.length_nil, Nat.add_zero, List.nil_append, equality] at pieces
      rw [pieces]
      refine .replace starts ?_
      rw [behind]
      exact induction (output + replacement.length)
  | missing position byte rest missing induction =>
      rw [occurrencesFrom_cons nonempty position missing,
        flatMap_text_piecesFrom_cons (cut_occurrencesFrom nonempty (position + 1) rest)]
      exact .copy missing (induction (output + 1))

theorem replaces_render {pattern : Bytes} (nonempty : pattern ≠ []) (replacement code : Bytes) :
    Replaces pattern replacement 0 code
      (render ⟨code, editsOf replacement (occurrences pattern code)⟩)
      (occurrences pattern code) := by
  rw [render_of_cut (cut_occurrences nonempty code) replacement nonempty, occurrences,
    dif_neg nonempty]
  exact replaces_occurrencesFrom nonempty replacement 0 0 code

end Overlay

/-- A pattern is found exactly if it occurs. -/
theorem occurrences_eq_nil_iff {pattern : Bytes} (nonempty : pattern ≠ []) (code : Bytes) :
    occurrences pattern code = [] ↔ ¬pattern <:+: code := by
  constructor
  · intro none
    have scanned := Overlay.replaces_render nonempty [] code
    rw [none] at scanned
    exact scanned.not_infix nonempty
  · exact occurrences_eq_nil

namespace Rule

/-- Where the pattern occurs, the overlay with all occurrences overwritten is rendered. -/
theorem transform_of_infix (rule : Rule) (nonempty : rule.pattern ≠ [])
    (options : TransformOptions) {code : Bytes} (found : rule.pattern <:+: code) :
    ∃ map, rule.transform options code =
      .ok (.changed
        (Overlay.render
          ⟨code, Overlay.editsOf rule.replacement (occurrences rule.pattern code)⟩)
        map (occurrences rule.pattern code)) := by
  have some : occurrences rule.pattern code ≠ [] :=
    fun none => (occurrences_eq_nil_iff nonempty code).mp none found
  rw [transform, if_neg (by simpa using some), edit_occurrences rule nonempty code]
  exact ⟨_, rfl⟩

/-- A transform by a rule with a pattern is never refused.  It changes code exactly if the
pattern occurs in it, and then the code and the ranges are those of going through the code
from left to right, with every range behind the one before it. -/
theorem transform_replaces_all (rule : Rule) (nonempty : rule.pattern ≠ [])
    (options : TransformOptions) (code : Bytes) :
    ∃ outcome, rule.transform options code = .ok outcome ∧
      (outcome.isChanged = true ↔ rule.pattern <:+: code) ∧
      ∀ output map spans, outcome = .changed output map spans →
        (∀ written ranges,
          Replaces rule.pattern rule.replacement 0 code written ranges ↔
            written = output ∧ ranges = spans) ∧
        spans.Pairwise fun left right => left.stop ≤ right.start := by
  by_cases found : rule.pattern <:+: code
  · obtain ⟨map, transformed⟩ := transform_of_infix rule nonempty options found
    refine ⟨_, transformed, by simp [Outcome.isChanged, found], ?_⟩
    rintro output map spans ⟨⟩
    refine ⟨?_, (cut_occurrences nonempty code).pairwise⟩
    intro written ranges
    have scanned := Overlay.replaces_render nonempty rule.replacement code
    constructor
    · intro other
      exact other.unique scanned
    · rintro ⟨rfl, rfl⟩
      exact scanned
  · refine ⟨.unchanged, ?_, by simp [Outcome.isChanged, found], nofun⟩
    rw [transform, (occurrences_eq_nil_iff nonempty code).mpr found]
    rfl

/-- A pattern that overlaps itself. -/
def doubled : Rule :=
  { (default : Rule) with pattern := utf8 "aa", replacement := utf8 "b" }

/-- Of three letters in a row the first two are replaced, and of four both pairs. -/
theorem transform_replaces_all_doubled :
    ∃ map, doubled.transform default (utf8 "aaaxaaaa") =
        .ok (.changed (utf8 "baxbb") map [⟨0, 2⟩, ⟨4, 6⟩, ⟨6, 8⟩]) ∧
      Replaces (utf8 "aa") (utf8 "b") 0 (utf8 "aaaxaaaa") (utf8 "baxbb")
        [⟨0, 2⟩, ⟨4, 6⟩, ⟨6, 8⟩] := by
  obtain ⟨outcome, transformed, -, exactly⟩ :=
    transform_replaces_all doubled (by decide) default (utf8 "aaaxaaaa")
  obtain ⟨map, computed⟩ : ∃ map, doubled.transform default (utf8 "aaaxaaaa") =
      .ok (.changed (utf8 "baxbb") map [⟨0, 2⟩, ⟨4, 6⟩, ⟨6, 8⟩]) := by
    obtain ⟨map, found⟩ := transform_of_infix doubled (by decide) default
      (show doubled.pattern <:+: utf8 "aaaxaaaa" by decide)
    have rendered : Overlay.render ⟨utf8 "aaaxaaaa",
        Overlay.editsOf doubled.replacement (occurrences doubled.pattern (utf8 "aaaxaaaa"))⟩ =
          utf8 "baxbb" := by
      decide +kernel
    have spans : occurrences doubled.pattern (utf8 "aaaxaaaa") = [⟨0, 2⟩, ⟨4, 6⟩, ⟨6, 8⟩] := by
      decide +kernel
    exact ⟨map, by rw [found, rendered, spans]⟩
  rw [computed] at transformed
  obtain rfl := Except.ok.inj transformed
  exact ⟨map, computed, ((exactly _ _ _ rfl).1 _ _).mpr ⟨rfl, rfl⟩⟩

end Rule

end Reroute
