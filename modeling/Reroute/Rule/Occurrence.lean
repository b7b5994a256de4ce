import Reroute.ChunkId
import Reroute.Position
import Reroute.Rule.Basic
import Reroute.Span

/-!
# Occurrences and their records

The occurrences of a rule are found from left to right and do not overlap: the search
goes on behind each one.  A substitution records one replaced occurrence for reports and
for the store, with its place counted in lines and byte columns.

Records for a list of spans are made in one walk over the text.  The walk never goes
back, so a span that starts before the end of an earlier one is reported at the place the
walk has reached.
-/

namespace Reroute

/-- Search from an offset on; `text` is the text from there.  The search goes on behind the
first occurrence. -/
def occurrencesFrom (pattern : Bytes) (nonempty : pattern ≠ []) (offset : Nat) (text : Bytes) :
    List Span :=
  match _ : Bytes.find? pattern text with
  | none => []
  | some index =>
      let start := offset + index
      let stop := start + pattern.length
      Span.ofOffsets start stop
        :: occurrencesFrom pattern nonempty stop (text.drop (index + pattern.length))
termination_by text.length
decreasing_by
  have bound := Bytes.length_le_of_find? ‹Bytes.find? pattern text = some index›
  have positive := List.length_pos_iff.mpr nonempty
  rw [List.length_drop]
  omega

/-- The non-overlapping occurrences of a pattern, from left to right.  The empty pattern
has none. -/
def occurrences (pattern text : Bytes) : List Span :=
  if nonempty : pattern = [] then [] else occurrencesFrom pattern nonempty 0 text

/-- One replaced occurrence. -/
structure Substitution where
  chunk : ChunkId
  ruleId : Bytes
  offset : Span
  start : LineColumn
  stop : LineColumn
  matched : Bytes
  replacement : Bytes
  deriving DecidableEq, Repr

namespace Substitution

def placeValue (place : LineColumn) : Json.Value :=
  .object
    [(utf8 "line", Json.Value.integer place.line),
      (utf8 "column", Json.Value.integer place.column)]

/-- A record as a JSON value. -/
def value (record : Substitution) : Json.Value :=
  .object
    [(utf8 "chunk_id", .string record.chunk.hex), (utf8 "rule_id", .string record.ruleId),
      (utf8 "location",
        .object
          [(utf8 "offset",
              .object
                [(utf8 "start", Json.Value.integer record.offset.start),
                  (utf8 "end", Json.Value.integer record.offset.stop)]),
            (utf8 "source",
              .object
                [(utf8 "start", placeValue record.start),
                  (utf8 "end", placeValue record.stop)])]),
      (utf8 "original", .string record.matched),
      (utf8 "replacement", .string record.replacement)]

end Substitution

/-- A walk over a text: the offset reached, its place, and the text from there. -/
structure Walk where
  offset : Nat
  place : LineColumn
  rest : Bytes

namespace Walk

def start (text : Bytes) : Walk :=
  ⟨0, .start, text⟩

/-- Walk on to an offset, or stay when it has been passed. -/
def goTo (walk : Walk) (offset : Int) : Walk :=
  let step := walk.rest.take (offset.toNat - walk.offset)
  ⟨walk.offset + step.length, walk.place.advanceAll step, walk.rest.drop step.length⟩

end Walk

/-- Record the spans of a text one after the other, unless one is not a range of it. -/
def substitutionsFrom (rule : Rule) (chunk : ChunkId) (text : Bytes) (walk : Walk) :
    List Span → Option (List Substitution)
  | [] => some []
  | span :: spans =>
      let atStart := walk.goTo span.start
      let atStop := atStart.goTo span.stop
      if span.within text.length then
        match substitutionsFrom rule chunk text atStop spans with
        | some records =>
            some
              (⟨chunk, rule.id, span, atStart.place, atStop.place, span.slice text,
                rule.replacement⟩ :: records)
        | none => none
      else none

/-- Record the spans of a text. -/
def substitutions (rule : Rule) (chunk : ChunkId) (text : Bytes) (spans : List Span) :
    Option (List Substitution) :=
  substitutionsFrom rule chunk text (.start text) spans

end Reroute
