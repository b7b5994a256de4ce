import Mathlib
import Reroute.Proofs.Overlay.Tiling
import Reroute.Proofs.Transform.Replacement

/-!
# Records describe what a transform does

The records of a content are made in one walk that is shared by all of them: where it stands
after one span is where it goes on from to the next.  The walk always knows the place it stands
at as if it had been counted from the start of the content, so the places in a record depend on
its own span alone.  Putting the replacements of the records in place of their ranges makes the
code that the transform makes.
-/

namespace Reroute

theorem LineColumn.ofOffset_add (text : Bytes) (front step : Nat) :
    ofOffset text (front + step : Nat) =
      (ofOffset text front).advanceAll ((text.drop front).take step) := by
  unfold ofOffset advanceAll
  rw [Int.toNat_natCast, Int.toNat_natCast, List.take_add, List.foldl_append]

namespace Walk

variable {text : Bytes} {walk : Walk}

/-- The walk stands in the text, and knows the place it stands at. -/
structure Stands (text : Bytes) (walk : Walk) : Prop where
  inside : walk.offset ≤ text.length
  place : walk.place = .ofOffset text walk.offset
  rest : walk.rest = text.drop walk.offset

theorem stands_start (text : Bytes) : Stands text (start text) :=
  ⟨Nat.zero_le _, rfl, rfl⟩

/-- Going on to an offset that has not been passed. -/
theorem Stands.goTo (stands : Stands text walk) {offset : Int} (ahead : walk.offset ≤ offset)
    (inside : offset ≤ text.length) :
    Stands text (walk.goTo offset) ∧ (walk.goTo offset).offset = offset := by
  obtain ⟨step, rfl⟩ := Int.le.dest ahead
  have taken : ((text.drop walk.offset).take step).length = step := by
    rw [List.length_take, List.length_drop]
    omega
  have moved : walk.goTo (walk.offset + step) =
      ⟨walk.offset + step, .ofOffset text (walk.offset + step : Nat),
        text.drop (walk.offset + step)⟩ := by
    have width : ((walk.offset : Int) + step).toNat - walk.offset = step := by omega
    unfold Walk.goTo
    simp only [width, stands.rest, stands.place, taken, LineColumn.ofOffset_add, List.drop_drop]
  rw [moved]
  constructor
  · constructor
    · dsimp only
      omega
    · rfl
    · rfl
  · exact Nat.cast_add _ _

end Walk

/-- The record tells what a rule does with a span of the content of a chunk. -/
structure Describes (rule : Rule) (chunk : ChunkId) (content : Bytes) (span : Span)
    (record : Substitution) : Prop where
  chunk : record.chunk = chunk
  ruleId : record.ruleId = rule.id
  offset : record.offset = span
  start : record.start = .ofOffset content span.start
  stop : record.stop = .ofOffset content span.stop
  matched : record.matched = span.slice content
  replacement : record.replacement = rule.replacement

/-- A walk records spans that lie ahead of it, one behind the other. -/
theorem exists_describes (rule : Rule) (chunk : ChunkId) {content : Bytes} {spans : List Span}
    {walk : Walk} (stands : walk.Stands content)
    (ahead : ∀ span ∈ spans, walk.offset ≤ span.start)
    (fits : ∀ span ∈ spans, span.Fits content.length)
    (apart : spans.Pairwise fun left right => left.stop ≤ right.start) :
    ∃ records, substitutionsFrom rule chunk content walk spans = some records ∧
      List.Forall₂ (Describes rule chunk content) spans records := by
  induction spans generalizing walk with
  | nil => exact ⟨[], rfl, .nil⟩
  | cons span spans induction =>
      have own := fits span List.mem_cons_self
      obtain ⟨inside, -⟩ := (Span.fits_iff span content.length).mp own
      obtain ⟨atStart, started⟩ :=
        stands.goTo (ahead span List.mem_cons_self) (own.proper.le.trans own.highest)
      obtain ⟨atStop, stopped⟩ := atStart.goTo (started.trans_le own.proper.le) own.highest
      obtain ⟨records, made, described⟩ := induction atStop
        (by
          intro later member
          rw [stopped]
          exact List.rel_of_pairwise_cons apart member)
        (fun later member => fits later (List.mem_cons_of_mem span member)) apart.of_cons
      refine ⟨_, by rw [substitutionsFrom, if_pos inside, made], ?_⟩
      apply List.Forall₂.cons _ described
      have startPlace := atStart.place
      have stopPlace := atStop.place
      rw [started] at startPlace
      rw [stopped] at stopPlace
      exact ⟨rfl, rfl, rfl, startPlace, stopPlace, rfl, rfl⟩

theorem Cut.fits {pattern : Bytes} (nonempty : pattern ≠ []) {text : Bytes} {spans : List Span}
    (cut : Cut pattern 0 text spans) : ∀ span ∈ spans, span.Fits text.length := by
  intro span member
  have bounds := cut.bounds span member
  have positive : 0 < pattern.length := List.length_pos_iff.mpr nonempty
  exact ⟨by omega, by omega, by omega⟩

/-- Put the replacement of a record in place of its range. -/
def Substitution.splice (record : Substitution) (text : Bytes) : Bytes :=
  Edit.splice ⟨record.offset, record.replacement⟩ text

theorem foldr_splice_of_describes {rule : Rule} {chunk : ChunkId} {content : Bytes}
    {spans : List Span} {records : List Substitution}
    (described : List.Forall₂ (Describes rule chunk content) spans records) (text : Bytes) :
    records.foldr Substitution.splice text =
      (Overlay.editsOf rule.replacement spans).foldr Edit.splice text := by
  induction described with
  | nil => rfl
  | cons first _ induction =>
      rw [List.foldr_cons, induction, Substitution.splice, first.offset, first.replacement]
      rfl

theorem places_of_describes {rule : Rule} {chunk : ChunkId} {content : Bytes}
    {spans : List Span} {records : List Substitution}
    (described : List.Forall₂ (Describes rule chunk content) spans records) :
    records.map Substitution.start = spans.map (fun span => .ofOffset content span.start) ∧
      records.map Substitution.stop = spans.map fun span => .ofOffset content span.stop := by
  induction described with
  | nil => exact ⟨rfl, rfl⟩
  | cons first _ induction =>
      simp only [List.map_cons, first.start, first.stop, induction.1, induction.2, and_self]

/-- The code that an outcome carries; there is none if nothing changed. -/
def Outcome.code : Outcome → Bytes
  | .unchanged => []
  | .changed code _ _ => code

namespace Rule

/-- Where the pattern occurs, its occurrences are spliced out. -/
theorem transform_eq_spliced (rule : Rule) (nonempty : rule.pattern ≠ [])
    (options : TransformOptions) {code : Bytes} (found : rule.pattern <:+: code) :
    ∃ map, rule.transform options code =
      .ok (.changed
        ((Overlay.editsOf rule.replacement (occurrences rule.pattern code)).foldr Edit.splice code)
        map (occurrences rule.pattern code)) := by
  obtain ⟨map, transformed⟩ := rule.transform_of_infix nonempty options found
  have filled : code ≠ [] := by
    rintro rfl
    exact nonempty (List.infix_nil.mp found)
  obtain ⟨arranged, -⟩ := Overlay.arranged_of_overwriteAll (rule.edit_occurrences nonempty code)
  have spliced := (arranged.tiled filled).spliced
  dsimp only at spliced
  rw [spliced] at transformed
  exact ⟨map, transformed⟩

/-- The records of the occurrences of a rule describe them one by one, each with the places that
its own offsets have, and together they describe what the transform does. -/
theorem records_describe_change (rule : Rule) (nonempty : rule.pattern ≠ []) (chunk : ChunkId)
    (options : TransformOptions) (content : Bytes) :
    ∃ records outcome,
      substitutions rule chunk content (occurrences rule.pattern content) = some records ∧
      List.Forall₂ (Describes rule chunk content) (occurrences rule.pattern content) records ∧
      rule.transform options content = .ok outcome ∧
      (records = [] ↔ outcome = .unchanged) ∧
      (outcome ≠ .unchanged → records.foldr Substitution.splice content = outcome.code) := by
  have cut := cut_occurrences nonempty content
  obtain ⟨records, made, described⟩ := exists_describes rule chunk (Walk.stands_start content)
    (fun span member => (cut.bounds span member).1) (cut.fits nonempty) cut.pairwise
  have none : records = [] ↔ occurrences rule.pattern content = [] := by
    rw [← List.length_eq_zero_iff, ← described.length_eq, List.length_eq_zero_iff]
  rw [occurrences_eq_nil_iff nonempty] at none
  by_cases found : rule.pattern <:+: content
  · obtain ⟨map, transformed⟩ := rule.transform_eq_spliced nonempty options found
    refine ⟨records, _, made, described, transformed, ?_, ?_⟩
    · simp [none, found]
    · intro _
      exact foldr_splice_of_describes described content
  · refine ⟨records, .unchanged, made, described, ?_, ?_, ?_⟩
    · rw [transform, (occurrences_eq_nil_iff nonempty content).mpr found]
      rfl
    · simp [none, found]
    · exact absurd rfl

/-- A rule whose pattern ends a line. -/
def lineEnd : Rule :=
  { (default : Rule) with pattern := utf8 "a\n", replacement := utf8 ";" }

/-- Two occurrences side by side and one at the end, each with a line break in it. -/
theorem records_describe_change_lineEnds :
    ∃ records map,
      substitutions lineEnd (ChunkId.ofContent []) (utf8 "a\na\nxa\n") [⟨0, 2⟩, ⟨2, 4⟩, ⟨5, 7⟩] =
        some records ∧
      records.map Substitution.start = [⟨1, 1⟩, ⟨2, 1⟩, ⟨3, 2⟩] ∧
      records.map Substitution.stop = [⟨2, 1⟩, ⟨3, 1⟩, ⟨4, 1⟩] ∧
      lineEnd.transform default (utf8 "a\na\nxa\n") =
        .ok (.changed (utf8 ";;x;") map [⟨0, 2⟩, ⟨2, 4⟩, ⟨5, 7⟩]) ∧
      records.foldr Substitution.splice (utf8 "a\na\nxa\n") = utf8 ";;x;" := by
  have spans : occurrences lineEnd.pattern (utf8 "a\na\nxa\n") = [⟨0, 2⟩, ⟨2, 4⟩, ⟨5, 7⟩] := by
    decide +kernel
  obtain ⟨records, outcome, made, described, transformed, -, spliced⟩ :=
    records_describe_change lineEnd (by decide) (ChunkId.ofContent []) default
      (utf8 "a\na\nxa\n")
  obtain ⟨map, computed⟩ := lineEnd.transform_eq_spliced (by decide) default
    (show lineEnd.pattern <:+: utf8 "a\na\nxa\n" by decide)
  rw [computed] at transformed
  obtain rfl := Except.ok.inj transformed
  have code : (Overlay.editsOf lineEnd.replacement
      (occurrences lineEnd.pattern (utf8 "a\na\nxa\n"))).foldr Edit.splice
        (utf8 "a\na\nxa\n") = utf8 ";;x;" := by
    rw [spans]
    decide
  rw [code] at computed spliced
  rw [spans] at made described computed
  obtain ⟨starts, stops⟩ := places_of_describes described
  refine ⟨records, map, made, ?_, ?_, computed, spliced nofun⟩
  · rw [starts]
    decide
  · rw [stops]
    decide

/-- Without an occurrence there is no record and no code, although nothing was taken from the
content. -/
theorem unchanged_code_empty :
    ∃ records outcome,
      substitutions builtin (ChunkId.ofContent (utf8 "x")) (utf8 "x")
        (occurrences builtin.pattern (utf8 "x")) = some records ∧
      builtin.transform default (utf8 "x") = .ok outcome ∧
      records.foldr Substitution.splice (utf8 "x") = utf8 "x" ∧ outcome.code = [] := by
  exact ⟨[], .unchanged, by decide +kernel, by decide +kernel, rfl, rfl⟩

end Rule

end Reroute
