import Reroute.SourceMap.Lookup

/-!
# Composing maps

A chunk arrives with the map of the stage that produced it, its parent map.  The map of
an edit describes the edited code in terms of the chunk; composing the two describes it
in terms of the parent's sources.  Every segment of the edit's map resolves through the
closest parent segment at or before it, and segments the parent does not cover are
dropped.  Names are collected in the order of their first use, without repetition.

Not every number can be written down.  Composing never ends where the writing of the composed
mappings does not.
-/

namespace Reroute.SourceMap

/-- Why two maps cannot be composed.  Where it is `endless`, no answer ever comes. -/
inductive CompositionError where
  | parent (error : SourceMap.Error)
  | parentMappings (error : Mappings.Error)
  | mappings (error : Mappings.Error)
  | endless
  deriving DecidableEq, Repr

def CompositionError.message : CompositionError → Bytes
  | .parent error => utf8 "parsing upstream map: " ++ error.message
  | .parentMappings error => utf8 "decoding upstream mappings: " ++ error.message
  | .mappings error => utf8 "decoding delta mappings: " ++ error.message
  | .endless => []

/-- The index of a name in a table, with the table extended where it lacks the name. -/
def intern (names : List Bytes) (name : Bytes) : Nat × List Bytes :=
  match names.idxOf? name with
  | some index => (index, names)
  | none => (names.length, names ++ [name])

/-- The name of a composed segment: the parent's, or else the edit's own. -/
def composedName? (delta parent : SourceMap) (segment target : Segment) : Option Bytes :=
  match pick? parent.nameList target.nameIndex with
  | some name => some name
  | none => pick? delta.nameList segment.nameIndex

/-- A segment carried through to the parent's sources, with the names used so far. -/
def composeSegment (delta parent : SourceMap) (table : MappingTable)
    (names : List Bytes) (segment : Segment) : Option (Segment × List Bytes) :=
  match table.lookup? segment.sourceLine segment.sourceColumn with
  | none => none
  | some target =>
      match pick? parent.sourceList target.sourceIndex with
      | none => none
      | some _ =>
          let (nameIndex, extended) :=
            match composedName? delta parent segment target with
            | some name =>
                let (index, extended) := intern names name
                (Int64.ofNat index, extended)
            | none => (Segment.noName, names)
          some
            ({ generatedColumn := segment.generatedColumn
               sourceIndex := target.sourceIndex
               sourceLine := target.sourceLine
               sourceColumn := target.sourceColumn
               nameIndex },
              extended)

/-- Carry the segments of one generated line through. -/
def composeLine (delta parent : SourceMap) (table : MappingTable) (line : Nat)
    (state : Builder × List Bytes) (segments : List Segment) : Builder × List Bytes :=
  segments.foldl
    (fun (builder, names) segment =>
      match composeSegment delta parent table names segment with
      | some (composed, extended) => (builder.add line composed, extended)
      | none => (builder, names))
    state

/-- Carry all generated lines through. -/
def composeLines (delta parent : SourceMap) (table : MappingTable) (lines : Mappings) :
    Builder × List Bytes :=
  (lines.foldl
    (fun (line, state) segments =>
      (line + 1, composeLine delta parent table line state segments))
    (0, (Builder.empty, []))).2

/-- Describe `delta`'s generated code in terms of the sources of a parent document. -/
def compose (delta : SourceMap) (document : Bytes) : Except CompositionError SourceMap :=
  match SourceMap.parse document with
  | .error error => .error (.parent error)
  | .ok parent =>
      match parent.decode with
      | .error error => .error (.parentMappings error)
      | .ok parentLines =>
          match delta.decode with
          | .error error => .error (.mappings error)
          | .ok lines =>
              let (builder, names) := composeLines delta parent parentLines.table lines
              match Mappings.encode? builder.mappings with
              | none => .error .endless
              | some written =>
                  .ok
                    { version := revision
                      file := delta.file
                      sourceRoot := parent.sourceRoot
                      sources := parent.sources
                      sourcesContent := parent.sourcesContent
                      names := some names
                      mappings := written }

end Reroute.SourceMap
