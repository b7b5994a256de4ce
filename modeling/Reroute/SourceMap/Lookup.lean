import Reroute.Search
import Reroute.SourceMap.Document

/-!
# Looking up positions

A generated position resolves through the closest segment at or before it on its line.
The segment is found by bisection, so on a line whose columns are not in order the
answer is whatever segment the probes lead to.
-/

namespace Reroute

/-- Mappings arranged for look-ups. -/
abbrev MappingTable := Array (Array Segment)

/-- Arrange mappings for look-ups. -/
def Mappings.table (lines : Mappings) : MappingTable :=
  (lines.map List.toArray).toArray

/-- The segment of a line that covers a column. -/
def MappingTable.lookup? (table : MappingTable) (line column : Int64) : Option Segment :=
  if line < 0 then none
  else
    match table[line.toNatClampNeg]? with
    | none => none
    | some segments =>
        let index :=
          Search.firstIndex segments.size fun i =>
            decide ((segments.getD i default).generatedColumn > column)
        if index = 0 then none else segments[index - 1]?

/-- The element a signed index selects. -/
def pick? {α : Type} (items : List α) (index : Int64) : Option α :=
  if index < 0 then none else items[index.toNatClampNeg]?

/-- A place in a source, counted from zero. -/
structure SourcePosition where
  source : Bytes
  line : Int64
  column : Int64
  name : Bytes
  deriving DecidableEq, Repr, Inhabited

namespace SourceMap

/-- A source as the document's root makes it: rooted paths and addresses stay as
they are. -/
def qualify (sourceRoot source : Bytes) : Bytes :=
  if sourceRoot.isEmpty || (utf8 "/").isPrefixOf source || Bytes.contains (utf8 "://") source
  then source
  else (Bytes.cutTail? (utf8 "/") sourceRoot).getD sourceRoot ++ utf8 "/" ++ source

/-- The place a segment names, when the document lists its source. -/
def positionOf? (map : SourceMap) (segment : Segment) : Option SourcePosition :=
  (pick? map.sourceList segment.sourceIndex).map fun source =>
    { source := qualify map.sourceRoot source
      line := segment.sourceLine
      column := segment.sourceColumn
      name := (pick? map.nameList segment.nameIndex).getD [] }

/-- Resolve a generated line and column. -/
def resolve (map : SourceMap) (line column : Int64) :
    Except Mappings.Error (Option SourcePosition) :=
  match map.decode with
  | .error error => .error error
  | .ok lines => .ok ((lines.table.lookup? line column).bind map.positionOf?)

end SourceMap

end Reroute
