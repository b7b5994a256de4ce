import Reroute.CommandLine.Failure
import Reroute.SourceMap.Lookup

/-!
# Resolving positions

A position in a generated chunk, its line counted from one and its column from zero, is
resolved to a position in a source.  The map is the one that the chunk's comment embeds or
names, and otherwise the file beside the chunk.  A comment with an address of the web, or
one that names a file that cannot be read, counts for nothing.
-/

namespace Reroute.CommandLine

/-- A map document, and the path it was read from or a word that says it was embedded. -/
structure NamedMap where
  document : Bytes
  name : Bytes
  deriving DecidableEq, Repr

/-- The map beside a chunk. -/
def mapBeside (files : Files) (path suffix : Bytes) : Except Failure NamedMap :=
  match files.read (path ++ suffix) with
  | .ok document => .ok ⟨document, path ++ suffix⟩
  | .error _ => .error (.noMap path)

/-- The map file that a comment names. -/
def mapNamed? (files : Files) (path address : Bytes) : Option NamedMap :=
  if Bytes.contains (utf8 "://") address then none
  else
    let place := Path.join [Path.directory path, address]
    match files.read place with
    | .ok document => some ⟨document, place⟩
    | .error _ => none

/-- The map of the chunk at a path. -/
def findMap (files : Files) (path suffix : Bytes) : Except Failure NamedMap :=
  match files.read path with
  | .error _ => .error (.chunk path)
  | .ok code =>
      match Comment.url? code with
      | none => mapBeside files path suffix
      | some address =>
          if DataUrl.isDataUrl address then
            match DataUrl.decode address with
            | .ok document => .ok ⟨document, utf8 "inline"⟩
            | .error error => .error (.dataUrl path error)
          else
            match mapNamed? files path address with
            | some found => .ok found
            | none => mapBeside files path suffix

/-- How a position is asked for. -/
structure ResolveCall where
  path : Bytes
  line : Bytes
  column : Bytes
  configPath : Bytes
  format : Bytes
  deriving DecidableEq, Repr

/-- A resolved position, its line counted from one, and the name of the map. -/
structure Resolved where
  position : SourcePosition
  mapName : Bytes
  deriving DecidableEq, Repr

namespace Resolved

/-- The line, counted from one. -/
def line (resolved : Resolved) : Int :=
  (resolved.position.line + 1).toInt

def column (resolved : Resolved) : Int :=
  resolved.position.column.toInt

/-- A position as a JSON value; the name is left out when empty. -/
def value (resolved : Resolved) : Json.Value :=
  .object
    ([(utf8 "source", .string resolved.position.source),
      (utf8 "line", Json.Value.integer resolved.line),
      (utf8 "column", Json.Value.integer resolved.column)]
      ++ SourceMap.optionalMember "name" resolved.position.name
      ++ [(utf8 "map", .string resolved.mapName)])

def text (resolved : Resolved) : Bytes :=
  resolved.position.source ++ utf8 ":" ++ Numeral.ofInt resolved.line ++ utf8 ":"
    ++ Numeral.ofInt resolved.column ++ utf8 "\n"
    ++ if resolved.position.name.isEmpty then []
      else utf8 "Name: " ++ resolved.position.name ++ utf8 "\n"

end Resolved

namespace ResolveCall

def ofArguments (path line column : Bytes) (arguments : Arguments) : ResolveCall :=
  ⟨path, line, column, arguments.text "config" [], arguments.text "format" (utf8 "human")⟩

/-- The line and column of a call. -/
def place (call : ResolveCall) : Except Failure (Int × Int) :=
  match (Numeral.readWord? call.line).filter (1 ≤ ·) with
  | none => .error (.line call.line)
  | some line =>
      match (Numeral.readWord? call.column).filter (0 ≤ ·) with
      | none => .error (.column call.column)
      | some column => .ok (line, column)

/-- Resolve a place through a map. -/
def lookUp (call : ResolveCall) (line column : Int) (map : NamedMap) :
    Except Failure Resolved :=
  match SourceMap.parse map.document with
  | .error error => .error (.map map.name error)
  | .ok document =>
      match document.resolve (Int64.ofInt (line - 1)) (Int64.ofInt column) with
      | .error error => .error (.mappings map.name error)
      | .ok none => .error (.noMapping call.path line column)
      | .ok (some position) => .ok ⟨position, map.name⟩

/-- The resolved position of a call. -/
def resolved (call : ResolveCall) (files : Files) : Except Failure Resolved :=
  match call.place with
  | .error failure => .error failure
  | .ok (line, column) =>
      match Config.load files call.configPath with
      | .error error => .error (.config error)
      | .ok config =>
          match findMap files call.path config.mapSuffix with
          | .error failure => .error failure
          | .ok map => call.lookUp line column map

/-- Resolve a position and show it. -/
def run (call : ResolveCall) (files : Files) : Except Failure Bytes :=
  match call.resolved files with
  | .error failure => .error failure
  | .ok resolved =>
      if call.format == utf8 "json" then .ok resolved.value.document
      else if call.format == utf8 "human" then .ok resolved.text
      else .error (.format call.format)

end ResolveCall

end Reroute.CommandLine
