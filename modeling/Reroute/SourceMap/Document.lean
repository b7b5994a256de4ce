import Reroute.Json.Field
import Reroute.SourceMap.Mappings
import Reroute.Text.Base64

/-!
# Source maps

A revision 3 map document: its fields, its JSON text, and the data address that embeds
it in code.  Reading accepts only plain documents of revision 3; one that is split into
sections is refused.
-/

namespace Reroute

/-- A map document.  An absent list is written as `null`. -/
structure SourceMap where
  version : Int
  file : Bytes
  sourceRoot : Bytes
  sources : Option (List Bytes)
  sourcesContent : List (Option Bytes)
  names : Option (List Bytes)
  mappings : Bytes
  deriving DecidableEq, Repr, Inhabited

namespace SourceMap

/-- The revision that documents are read and written in. -/
def revision : Int := 3

def sourceList (map : SourceMap) : List Bytes :=
  map.sources.getD []

def nameList (map : SourceMap) : List Bytes :=
  map.names.getD []

def decode (map : SourceMap) : Except Mappings.Error Mappings :=
  Mappings.decode map.mappings

/-- A list of texts as a JSON value; an absent one is `null`. -/
def textsValue : Option (List Bytes) → Json.Value
  | some texts => .array (texts.map .string)
  | none => .null

/-- A text that may be absent as a JSON value. -/
def optionalTextValue : Option Bytes → Json.Value
  | some text => .string text
  | none => .null

/-- A member that is left out when its text is empty. -/
def optionalMember (name : String) (text : Bytes) : List (Bytes × Json.Value) :=
  if text.isEmpty then [] else [(utf8 name, .string text)]

def value (map : SourceMap) : Json.Value :=
  .object
    ([(utf8 "version", Json.Value.integer map.version)]
      ++ optionalMember "file" map.file
      ++ optionalMember "sourceRoot" map.sourceRoot
      ++ [(utf8 "sources", textsValue map.sources)]
      ++ (if map.sourcesContent.isEmpty then []
        else
          [(utf8 "sourcesContent", .array (map.sourcesContent.map optionalTextValue))])
      ++ [(utf8 "names", textsValue map.names), (utf8 "mappings", .string map.mappings)])

def json (map : SourceMap) : Bytes :=
  map.value.compact

/-- What the data address of a document starts with. -/
def addressHead : Bytes :=
  utf8 "data:application/json;charset=utf-8;base64,"

def dataUrl (map : SourceMap) : Bytes :=
  addressHead ++ Base64.encode map.json

/-- Why a text is not a map document. -/
inductive Error where
  | malformed
  | indexed
  | version (found : Int)
  deriving DecidableEq, Repr

def Error.message : Error → Bytes
  | .malformed => utf8 "parsing source map: <json>"
  | .indexed => utf8 "indexed source maps are not supported"
  | .version found => utf8 "unsupported source map version " ++ Numeral.ofInt found

/-- The fields of a document while its members are taken in order. -/
structure Draft where
  version : Int
  file : Bytes
  sourceRoot : Bytes
  sources : Json.Cells Bytes
  sourcesContent : Json.Cells (Option Bytes)
  names : Json.Cells Bytes
  mappings : Bytes

namespace Draft

def empty : Draft :=
  ⟨0, [], [], .empty, .empty, .empty, []⟩

def take (draft : Draft) (name : Bytes) (value : Json.Value) : Option Draft :=
  if Json.selects name "version" then
    (Json.fillWord draft.version value).map fun version => { draft with version }
  else if Json.selects name "file" then
    (Json.fillText draft.file value).map fun file => { draft with file }
  else if Json.selects name "sourceRoot" then
    (Json.fillText draft.sourceRoot value).map fun sourceRoot => { draft with sourceRoot }
  else if Json.selects name "sources" then
    (Json.fillList [] Json.fillText draft.sources value).map
      fun sources => { draft with sources }
  else if Json.selects name "sourcesContent" then
    (Json.fillList none Json.fillOptionalText draft.sourcesContent value).map
      fun sourcesContent => { draft with sourcesContent }
  else if Json.selects name "names" then
    (Json.fillList [] Json.fillText draft.names value).map fun names => { draft with names }
  else if Json.selects name "mappings" then
    (Json.fillText draft.mappings value).map fun mappings => { draft with mappings }
  else some draft

/-- Take members in order. -/
def takeAll (draft : Draft) : List (Bytes × Json.Value) → Option Draft
  | [] => some draft
  | (name, value) :: members =>
      match draft.take name value with
      | some next => next.takeAll members
      | none => none

/-- The document that was read.  Lists that no member named are empty. -/
def finish (draft : Draft) : SourceMap :=
  { version := draft.version
    file := draft.file
    sourceRoot := draft.sourceRoot
    sources := some (draft.sources.shown.getD [])
    sourcesContent := draft.sourcesContent.shown.getD []
    names := some (draft.names.shown.getD [])
    mappings := draft.mappings }

end Draft

/-- The members of a value that can be a document; `null` has none. -/
def membersOf? : Json.Value → Option (List (Bytes × Json.Value))
  | .object members => some members
  | .null => some []
  | _ => none

/-- Read a document. -/
def parse (text : Bytes) : Except Error SourceMap :=
  match (Json.parse? text).bind membersOf? with
  | none => .error .malformed
  | some members =>
      if members.any fun (name, _) => Json.selects name "sections" then .error .indexed
      else
        match Draft.empty.takeAll members with
        | none => .error .malformed
        | some draft =>
            if draft.version == revision then .ok draft.finish
            else .error (.version draft.version)

end SourceMap

end Reroute
