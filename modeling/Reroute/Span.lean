import Reroute.Text.Numeral

/-!
# Spans

Half-open byte ranges.  A span may be given with any two ends, so whether it is empty,
reversed or inside a text is asked of it and not built into the type.
-/

namespace Reroute

/-- The bytes from `start` up to, not including, `stop`. -/
structure Span where
  start : Int
  stop : Int
  deriving DecidableEq, Repr, Inhabited

namespace Span

/-- The number of bytes covered, as a signed 64-bit word. -/
def length (span : Span) : Int :=
  (span.stop - span.start).bmod Numeral.wordCount

/-- The span covers no byte. -/
def isEmpty (span : Span) : Bool :=
  span.start == span.stop

/-- Two spans share a byte.  An empty span shares none. -/
def overlaps (left right : Span) : Bool :=
  !left.isEmpty && !right.isEmpty
    && decide (left.start < right.stop) && decide (right.start < left.stop)

/-- The offset lies in the span. -/
def contains (span : Span) (offset : Int) : Bool :=
  decide (span.start ≤ offset) && decide (offset < span.stop)

/-- The span is a range of a text of the given length. -/
def within (span : Span) (length : Int) : Bool :=
  decide (0 ≤ span.start) && decide (span.start ≤ span.stop) && decide (span.stop ≤ length)

/-- The span of a text between two offsets. -/
def ofOffsets (start stop : Nat) : Span :=
  ⟨start, stop⟩

/-- The part of a text a span covers. -/
def slice (span : Span) (text : Bytes) : Bytes :=
  text.slice span.start.toNat span.stop.toNat

/-- A span as messages show it. -/
def render (span : Span) : Bytes :=
  utf8 "[" ++ Numeral.ofInt span.start ++ utf8 "," ++ Numeral.ofInt span.stop ++ utf8 ")"

end Span

end Reroute
