import Reroute.Digest.Sha1
import Reroute.Json.Reader
import Reroute.Text.Quoted

/-!
# Chunk identifiers

A chunk is named by the digest of its content behind a header that states its length,
as version control systems name file contents.  Identifiers are exchanged as forty
hexadecimal digits: in documents, in database columns and on the command line.
-/

namespace Reroute

/-- The digest that names a chunk. -/
abbrev ChunkId := Digest

namespace ChunkId

def ofContent (content : Bytes) : ChunkId :=
  sha1 (utf8 "blob " ++ Numeral.ofNat content.length ++ 0 :: content)

/-- The identifier as a JSON string. -/
def json (id : ChunkId) : Bytes :=
  Json.quote id.hex

/-- A value found in a database column. -/
inductive Column where
  | null
  | text (content : Bytes)
  | blob (content : Bytes)
  | integer
  | boolean
  | real
  deriving DecidableEq, Repr

/-- Why something is not a chunk identifier. -/
inductive Error where
  | length (found : Nat)
  | digit (byte : UInt8)
  | notText
  | nullColumn
  | column (kind : String)
  deriving DecidableEq, Repr

def Error.message : Error → Bytes
  | .length found =>
      utf8 "invalid chunk ID length: expected 40, got " ++ Numeral.ofNat found
  | .digit byte =>
      utf8 "invalid hex string: encoding/hex: invalid byte: " ++ Quoted.codePoint byte
  | .notText => utf8 "<json>"
  | .nullColumn => utf8 "cannot scan nil into ChunkID"
  | .column kind => utf8 "cannot scan type " ++ utf8 kind ++ utf8 " into ChunkID"

/-- Read hexadecimal digits, most significant first, onto a number. -/
def readDigits (total : Nat) : Bytes → Except Error Nat
  | [] => .ok total
  | byte :: rest =>
      match Numeral.hexDigit? byte with
      | some value => readDigits (total * 16 + value) rest
      | none => .error (.digit byte)

/-- Read forty hexadecimal digits of either case. -/
def parse (text : Bytes) : Except Error ChunkId :=
  if text.length != 40 then .error (.length text.length)
  else
    match readDigits 0 text with
    | .ok value => .ok ⟨BitVec.ofNat 160 value⟩
    | .error error => .error error

/-- Read an identifier from a JSON document.  A `null` counts as the empty text. -/
def ofJson (document : Bytes) : Except Error ChunkId :=
  match Json.parse? document with
  | some (.string text) => parse text
  | some .null => parse []
  | _ => .error .notText

/-- Read an identifier from a database column. -/
def ofColumn : Column → Except Error ChunkId
  | .null => .error .nullColumn
  | .text content => parse content
  | .blob content => parse content
  | .integer => .error (.column "int64")
  | .boolean => .error (.column "bool")
  | .real => .error (.column "float64")

end ChunkId

end Reroute
