import Reroute.Hook.Payload

/-!
# Requests and responses

The server reads a stream of JSON values, each a request, and writes one response a line.
A request has a type and a payload.  Reading the stream stops at its end or at the first
value that is not a request.
-/

namespace Reroute.Hook

/-- A request.  The payload is kept as written and is empty if there is none. -/
structure Request where
  kind : Bytes
  payload : Bytes
  deriving DecidableEq, Repr, Inhabited

namespace Request

/-- Take one member, given by its name and its text. -/
def take (request : Request) (name text : Bytes) : Option Request :=
  if Json.selects name "type" then
    ((Json.parse? text).bind (Json.fillText request.kind)).map fun kind =>
      { request with kind }
  else if Json.selects name "payload" then some { request with payload := text }
  else some request

/-- Take members in order. -/
def takeAll (request : Request) : List (Bytes × Bytes) → Option Request
  | [] => some request
  | (name, text) :: members =>
      match request.take name text with
      | some next => next.takeAll members
      | none => none

/-- The request that a value with the given text is. -/
def ofValue? (value : Json.Value) (text : Bytes) : Option Request :=
  match value with
  | .object _ => takeAll default (Json.rawMembers text)
  | .null => some default
  | _ => none

end Request

/-- What a stream holds: requests, and possibly something that is not one behind them. -/
structure Stream where
  requests : List Request
  malformed : Bool
  deriving DecidableEq, Repr

namespace Stream

/-- Put a request in front of a stream. -/
def push (request : Request) (stream : Stream) : Stream :=
  { stream with requests := request :: stream.requests }

/-- What stands at the start of a text. -/
inductive Head where
  | nothing
  | malformed
  | request (request : Request) (rest : Bytes)
  deriving DecidableEq, Repr

/-- Look at the start of a text. -/
def head (text : Bytes) : Head :=
  let start := Json.skipBlanks text
  if start.isEmpty then .nothing
  else
    match Json.read? start with
    | none => .malformed
    | some (value, rest) =>
        match Request.ofValue? value (start.take (start.length - rest.length)) with
        | none => .malformed
        | some request => .request request rest

/-- Read at most `fuel` requests. -/
def readFrom : Nat → Bytes → Stream
  | 0, _ => ⟨[], false⟩
  | fuel + 1, text =>
      match head text with
      | .nothing => ⟨[], false⟩
      | .malformed => ⟨[], true⟩
      | .request request rest => (readFrom fuel rest).push request

/-- Read a stream.  Every request takes at least one byte. -/
def read (text : Bytes) : Stream :=
  readFrom (text.length + 1) text

end Stream

/-- A changed chunk, with the text of its map. -/
structure Rendered where
  code : Bytes
  map : Bytes
  deriving DecidableEq, Repr

/-- What a result means to a bundler: nothing if the chunk stays as it is. -/
def Rendered.ofResult (result : ChunkResult) : Option Rendered :=
  if result.changed then some ⟨result.code, result.map.getD (utf8 "null")⟩ else none

/-- What the server writes. -/
inductive Response where
  | ready (mode : Mode) (ruleId : Bytes)
  | chunk (rendered : Option Rendered)
  | batch (rendered : List (Option Rendered))
  | failure (kind : Bytes) (message : Bytes)
  deriving DecidableEq, Repr

namespace Response

def version : Bytes :=
  utf8 "1.0.0"

/-- A member of an object, given by its name and the text of its value. -/
def member (name : String) (text : Bytes) : Bytes :=
  Json.quote (utf8 name) ++ 58 :: text

/-- An object, given by the texts of its members. -/
def object (members : List Bytes) : Bytes :=
  123 :: Bytes.join [44] members ++ [125]

/-- The text of a changed chunk. -/
def renderedText : Option Rendered → Bytes
  | none => utf8 "null"
  | some rendered =>
      object [member "code" (Json.quote rendered.code), member "map" rendered.map]

def success (kind : String) (data : Bytes) : Bytes :=
  object
    [member "success" (utf8 "true"), member "type" (Json.quote (utf8 kind)),
      member "data" data]

/-- The text of a response, without the newline that ends it. -/
def text : Response → Bytes
  | .ready mode ruleId =>
      success "ready"
        (object
          [member "version" (Json.quote version), member "mode" (Json.quote mode.label),
            member "rule" (Json.quote ruleId)])
  | .chunk rendered => success "render_chunk" (renderedText rendered)
  | .batch rendered =>
      success "render_batch"
        (object
          [member "results" (91 :: Bytes.join [44] (rendered.map renderedText) ++ [93])])
  | .failure kind message =>
      object
        [member "success" (utf8 "false"), member "type" (Json.quote kind),
          member "error" (Json.quote message)]

end Response

end Reroute.Hook
