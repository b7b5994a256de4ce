import Reroute.Files.Tree
import Reroute.Json.Reader
import Reroute.Text.Base64

/-!
# The text of a store file

A store file is a fixed header with a JSON document behind it.  The document has one
member a table, and every row is an array of its columns.  Chunks are named by their
digits; texts need not be valid UTF-8 and are written in base 64.
-/

namespace Reroute

namespace Column

/-- A column that names a chunk. -/
def chunk (id : ChunkId) : Json.Value :=
  .string id.hex

/-- Read a column that names a chunk. -/
def chunk? : Json.Value → Option ChunkId
  | .string digits => (ChunkId.parse digits).toOption
  | _ => none

/-- A column that holds a text. -/
def text (content : Bytes) : Json.Value :=
  .string (Base64.encode content)

/-- Read a column that holds a text. -/
def text? : Json.Value → Option Bytes
  | .string encoded => Base64.decode? encoded
  | _ => none

/-- A column that holds a text or nothing. -/
def optionalText : Option Bytes → Json.Value
  | some content => text content
  | none => .null

/-- Read a column that holds a text or nothing. -/
def optionalText? : Json.Value → Option (Option Bytes)
  | .null => some none
  | column => (text? column).map some

/-- Read a column that holds a number. -/
def integer? : Json.Value → Option Int
  | .number numeral => Numeral.readWord? numeral
  | _ => none

/-- Read a column that holds a truth value. -/
def bool? : Json.Value → Option Bool
  | .bool value => some value
  | _ => none

end Column

def ChunkSize.row (size : ChunkSize) : Json.Value :=
  .array [Column.chunk size.id, .integer size.size]

/-- Read the row of a chunk's size. -/
def ChunkSize.ofRow? : Json.Value → Option ChunkSize
  | .array [id, size] => do
      return ⟨← Column.chunk? id, ← Column.integer? size⟩
  | _ => none

def Place.row (place : Place) : Json.Value :=
  .array
    [Column.chunk place.chunk, .string place.provenance.label,
      Column.text place.provenance.path]

def Place.ofRow? : Json.Value → Option Place
  | .array [chunk, .string label, path] => do
      let chunk ← Column.chunk? chunk
      let path ← Column.text? path
      if label == (Provenance.file path).label then return ⟨chunk, .file path⟩
      else return ⟨chunk, .hook path⟩
  | _ => none

/-- The row of a replaced occurrence. -/
def Substitution.row (record : Substitution) : Json.Value :=
  .array
    [Column.chunk record.chunk, Column.text record.ruleId,
      .integer record.offset.start, .integer record.offset.stop,
      .integer record.start.line, .integer record.start.column,
      .integer record.stop.line, .integer record.stop.column,
      Column.text record.matched, Column.text record.replacement]

/-- Read the row of a replaced occurrence. -/
def Substitution.ofRow? : Json.Value → Option Substitution
  | .array
      [chunk, ruleId, start, stop, startLine, startColumn, stopLine, stopColumn, matched,
        replacement] => do
      return {
        chunk := ← Column.chunk? chunk
        ruleId := ← Column.text? ruleId
        offset := ⟨← Column.integer? start, ← Column.integer? stop⟩
        start := ⟨← Column.integer? startLine, ← Column.integer? startColumn⟩
        stop := ⟨← Column.integer? stopLine, ← Column.integer? stopColumn⟩
        matched := ← Column.text? matched
        replacement := ← Column.text? replacement }
  | _ => none

def StoredResult.row (result : StoredResult) : Json.Value :=
  .array
    [Column.chunk result.chunk, Column.text result.key, .bool result.changed,
      Column.text result.code, Column.optionalText result.map]

def StoredResult.ofRow? : Json.Value → Option StoredResult
  | .array [chunk, key, changed, code, map] => do
      return ⟨← Column.chunk? chunk, ← Column.text? key, ← Column.bool? changed,
        ← Column.text? code, ← Column.optionalText? map⟩
  | _ => none

namespace Tables

/-- Tables as a JSON value. -/
def value (tables : Tables) : Json.Value :=
  .object
    [(utf8 "version", .integer tables.version),
      (utf8 "chunks", .array (tables.chunks.map ChunkSize.row)),
      (utf8 "places", .array (tables.places.map Place.row)),
      (utf8 "substitutions", .array (tables.substitutions.map Substitution.row)),
      (utf8 "results", .array (tables.results.map StoredResult.row))]

/-- Read tables from a JSON value. -/
def ofValue? : Json.Value → Option Tables
  | .object
      [(_, version), (_, .array chunks), (_, .array places), (_, .array substitutions),
        (_, .array results)] => do
      return ⟨← Column.integer? version, ← chunks.mapM ChunkSize.ofRow?,
        ← places.mapM Place.ofRow?, ← substitutions.mapM Substitution.ofRow?,
        ← results.mapM StoredResult.ofRow?⟩
  | _ => none

def document (tables : Tables) : Bytes :=
  Entry.databaseHeader ++ tables.value.compact

def ofDocument? (content : Bytes) : Option Tables :=
  ((Bytes.cutHead? Entry.databaseHeader content).bind Json.parse?).bind ofValue?

end Tables

namespace Entry

/-- The entry that a file with the given content is: a store file, or another file. -/
def ofContent (content : Bytes) : Entry :=
  match Tables.ofDocument? content with
  | some tables => .database tables
  | none => .file content

/-- The content to write for an entry that is a file. -/
def written? : Entry → Option Bytes
  | .file content => some content
  | .database tables => some tables.document
  | _ => none

end Entry

end Reroute
