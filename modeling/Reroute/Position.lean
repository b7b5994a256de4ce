import Reroute.Search
import Reroute.Text.Rune

/-!
# Positions

Two ways to name a place in a text.  Reports count lines and byte columns from one;
source maps count lines and UTF-16 columns from zero.  A line index answers the second
kind of question for any number of offsets into one text.
-/

namespace Reroute

/-- A line and a byte column, both counted from one. -/
structure LineColumn where
  line : Int
  column : Int
  deriving DecidableEq, Repr, Inhabited

namespace LineColumn

/-- The place at the start of a text. -/
def start : LineColumn :=
  ⟨1, 1⟩

/-- The place after one more byte. -/
def advance (place : LineColumn) (byte : UInt8) : LineColumn :=
  if byte == Bytes.newline then ⟨place.line + 1, 1⟩ else ⟨place.line, place.column + 1⟩

/-- The place after a stretch of text. -/
def advanceAll (place : LineColumn) (text : Bytes) : LineColumn :=
  text.foldl advance place

/-- The place of an offset; offsets past the end name the end, negative ones the start. -/
def ofOffset (text : Bytes) (offset : Int) : LineColumn :=
  start.advanceAll (text.take offset.toNat)

end LineColumn

/-- A line and a column in UTF-16 code units, both counted from zero. -/
structure Point where
  line : Nat
  column : Nat
  deriving DecidableEq, Repr, Inhabited

/-- A text with the offsets at which its lines start. -/
structure LineIndex where
  content : Bytes
  starts : Array Nat
  deriving Repr

namespace LineIndex

/-- One step of indexing: a newline at `offset` starts a line behind it. -/
def note (state : Nat × Array Nat) (byte : UInt8) : Nat × Array Nat :=
  if byte == Bytes.newline then (state.1 + 1, state.2.push (state.1 + 1))
  else (state.1 + 1, state.2)

/-- Index the line starts of a text.  An empty text has one line. -/
def ofContent (content : Bytes) : LineIndex :=
  ⟨content, (content.foldl note (0, #[0])).2⟩

def lines (index : LineIndex) : Nat :=
  index.starts.size

/-- The offset at which a line starts. -/
def lineStart? (index : LineIndex) (line : Int) : Option Nat :=
  if line < 0 then none else index.starts[line.toNat]?

/-- An offset brought into the text. -/
def clamp (index : LineIndex) (offset : Int) : Nat :=
  min offset.toNat index.content.length

/-- The last line that starts at or before an offset. -/
def lineOf (index : LineIndex) (offset : Nat) : Nat :=
  Search.firstIndex index.starts.size (fun line => decide (index.starts.getD line 0 > offset)) - 1

/-- The line and column of an offset; offsets outside the text name its ends. -/
def point (index : LineIndex) (offset : Int) : Point :=
  let inside := index.clamp offset
  let line := index.lineOf inside
  ⟨line, (index.content.slice (index.starts.getD line 0) inside).utf16Length⟩

end LineIndex

end Reroute
