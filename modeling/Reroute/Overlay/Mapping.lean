import Reroute.Overlay.Basic
import Reroute.Position
import Reroute.SourceMap.Document

/-!
# The map of an edited text

The map of an overlay describes its output in terms of its source.  A pen walks the
output rune by rune and keeps the generated line and column.  Text of the source is
marked character by character, or only where a piece or a line starts; the content of an
edit is marked where it starts and where each of its lines starts, always with the start
of the range it replaced.
-/

namespace Reroute.Overlay

/-- How a map is made. -/
structure MapOptions where
  /-- The name of the source. -/
  source : Bytes
  /-- The name of the generated file. -/
  file : Bytes
  /-- Embed the text of the source. -/
  includeContent : Bool
  /-- Mark every character of unchanged text. -/
  everyCharacter : Bool
  deriving DecidableEq, Repr

/-- A place in the output, and the segments marked so far. -/
structure Pen where
  builder : Builder
  line : Nat
  column : Nat

namespace Pen

def start : Pen :=
  ⟨.empty, 0, 0⟩

/-- Tie the pen's place to a point of the source. -/
def mark (pen : Pen) (point : Point) : Pen :=
  { pen with
    builder :=
      pen.builder.add pen.line
        { generatedColumn := Int64.ofNat pen.column
          sourceIndex := 0
          sourceLine := Int64.ofNat point.line
          sourceColumn := Int64.ofNat point.column
          nameIndex := Segment.noName } }

/-- Move to the start of the next line. -/
def nextLine (pen : Pen) : Pen :=
  { pen with line := pen.line + 1, column := 0 }

def move (pen : Pen) (rune : Rune) : Pen :=
  { pen with column := pen.column + rune.units }

/-- Walk text of the source.  `fresh` says that a mark is due in any case. -/
def walkSource (everyCharacter : Bool) (pen : Pen) (point : Point) (fresh : Bool) :
    List Rune → Pen
  | [] => pen
  | rune :: runes =>
      if rune == .char '\n' then
        walkSource everyCharacter pen.nextLine ⟨point.line + 1, 0⟩ true runes
      else
        let marked := if everyCharacter || fresh then pen.mark point else pen
        walkSource everyCharacter (marked.move rune)
          ⟨point.line, point.column + rune.units⟩ false runes

def walkEdit (pen : Pen) (point : Point) (fresh : Bool) : List Rune → Pen
  | [] => pen
  | rune :: runes =>
      if rune == .char '\n' then walkEdit pen.nextLine point true runes
      else
        let marked := if fresh then pen.mark point else pen
        walkEdit (marked.move rune) point false runes

def walk (index : LineIndex) (everyCharacter : Bool) (pen : Pen) (piece : Piece) : Pen :=
  let point := index.point piece.source.start
  match piece.origin with
  | .source => pen.walkSource everyCharacter point true piece.text.runes
  | .edit => pen.walkEdit point true piece.text.runes

end Pen

/-- The mappings from the output to the source. -/
def mappings (overlay : Overlay) (everyCharacter : Bool) : Mappings :=
  let index := LineIndex.ofContent overlay.source
  (overlay.pieces.foldl (Pen.walk index everyCharacter) .start).builder.mappings

/-- The map from the output to the source. -/
def map (overlay : Overlay) (options : MapOptions) : SourceMap :=
  { version := SourceMap.revision
    file := options.file
    sourceRoot := []
    sources := some [options.source]
    sourcesContent := if options.includeContent then [some overlay.source] else []
    names := some []
    mappings := Mappings.encode (overlay.mappings options.everyCharacter) }

end Reroute.Overlay
