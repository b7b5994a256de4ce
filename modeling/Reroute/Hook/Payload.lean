import Reroute.Json.Field
import Reroute.Pipeline.Basic

/-!
# What a bundler sends

A bundler sends the code of a chunk, its file name and its map.  The map is a JSON object
or a string that holds one; it is kept as written, because the parent map is read from
its text.
-/

namespace Reroute.Hook

/-- A chunk as sent.  `map` is the text of its map member, empty if there is none. -/
structure Payload where
  code : Bytes
  fileName : Bytes
  map : Bytes
  deriving DecidableEq, Repr, Inhabited

namespace Payload

/-- The parent map that the text of a map member stands for, or nothing if the text is a
malformed string.  White space, `null` and the empty string stand for no map. -/
def parentMap? (text : Bytes) : Option Bytes :=
  let raw := text.trim
  if raw.isEmpty || raw == utf8 "null" then some []
  else if raw.head? == some 34 then
    match Json.parse? raw with
    | some (.string document) => some document
    | _ => none
  else some raw

/-- A map that could not be read. -/
structure MapError where
  fileName : Bytes
  deriving DecidableEq, Repr

def MapError.message (error : MapError) : Bytes :=
  utf8 "reading map for " ++ error.fileName ++ utf8 ": <json>"

/-- The chunk that was sent. -/
def chunk (payload : Payload) : Except MapError Chunk :=
  match parentMap? payload.map with
  | none => .error ⟨payload.fileName⟩
  | some map =>
      .ok ⟨payload.fileName, payload.code, map, some (.hook payload.fileName)⟩

/-- The chunks that were sent, unless one has a map that cannot be read. -/
def chunks : List Payload → Except MapError (List Chunk)
  | [] => .ok []
  | payload :: payloads =>
      match payload.chunk with
      | .error error => .error error
      | .ok chunk =>
          match chunks payloads with
          | .error error => .error error
          | .ok rest => .ok (chunk :: rest)

/-- Take one member, given by its name and its text. -/
def take (payload : Payload) (name text : Bytes) : Option Payload :=
  if Json.selects name "code" then
    ((Json.parse? text).bind (Json.fillText payload.code)).map fun code =>
      { payload with code }
  else if Json.selects name "fileName" then
    ((Json.parse? text).bind (Json.fillText payload.fileName)).map fun fileName =>
      { payload with fileName }
  else if Json.selects name "map" then some { payload with map := text }
  else some payload

/-- Take members in order. -/
def takeAll (payload : Payload) : List (Bytes × Bytes) → Option Payload
  | [] => some payload
  | (name, text) :: members =>
      match payload.take name text with
      | some next => next.takeAll members
      | none => none

/-- Fill a chunk from the text of a value; `null` leaves it as it is. -/
def fill (payload : Payload) (text : Bytes) : Option Payload :=
  match Json.parse? text with
  | some (.object _) => payload.takeAll (Json.rawMembers text)
  | some .null => some payload
  | _ => none

def read? (text : Bytes) : Option Payload :=
  fill default text

end Payload

namespace Batch

/-- Take one member of a batch, given by its name and its text. -/
def take (payloads : Json.Cells Payload) (name text : Bytes) :
    Option (Json.Cells Payload) :=
  if Json.selects name "chunks" then
    match Json.parse? text with
    | some (.array _) =>
        Json.fillItems default Payload.fill payloads (Json.rawItems text)
    | some .null => some .empty
    | _ => none
  else some payloads

/-- Take members in order. -/
def takeAll (payloads : Json.Cells Payload) :
    List (Bytes × Bytes) → Option (Json.Cells Payload)
  | [] => some payloads
  | (name, text) :: members =>
      match take payloads name text with
      | some next => takeAll next members
      | none => none

/-- Read the chunks of a batch. -/
def read? (text : Bytes) : Option (List Payload) :=
  match Json.parse? text with
  | some (.object _) =>
      (takeAll .empty (Json.rawMembers text)).map fun payloads => payloads.shown.getD []
  | some .null => some []
  | _ => none

end Batch

end Reroute.Hook
