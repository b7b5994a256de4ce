import Reroute.Text.Base64
import Reroute.Text.Blank
import Reroute.Text.Percent
import Reroute.Text.Quoted

/-!
# The comment that links code to its map

Generated code names its map in a comment on its last non-blank line.  The comment can
be found, replaced, and removed together with the blank space at the end of the code.
The name is the path of a map file or a data address that holds the whole document.
-/

namespace Reroute.Comment

/-- The two spellings a comment starts with. -/
def heads : List Bytes :=
  [utf8 "//# sourceMappingURL=", utf8 "//@ sourceMappingURL="]

/-- The comment that names an address. -/
def render (url : Bytes) : Bytes :=
  utf8 "//# sourceMappingURL=" ++ url

/-- Remove the blank space at the end of code. -/
def trimEnd (code : Bytes) : Bytes :=
  Bytes.trimTail Bytes.isLayout code

/-- The code up to its last line, and the last line. -/
def splitLastLine (code : Bytes) : Bytes × Bytes :=
  let line := (code.reverse.takeWhile (· != Bytes.newline)).reverse
  (code.take (code.length - line.length), line)

/-- The address named by a line that is a comment. -/
def addressOf? (line : Bytes) : Option Bytes :=
  heads.findSome? fun head =>
    match Bytes.cutHead? head line with
    | some rest =>
        if rest.isEmpty || rest.any (fun byte => byte == 0x20 || byte == 0x09) then none
        else some rest
    | none => none

/-- The code in front of the line of a trailing comment, and the address it names. -/
def find? (code : Bytes) : Option (Bytes × Bytes) :=
  let (before, line) := splitLastLine (trimEnd code)
  (addressOf? line.trim).map fun address => (before, address)

/-- The address that a trailing comment names. -/
def url? (code : Bytes) : Option Bytes :=
  (find? code).map Prod.snd

/-- The code without the line of its trailing comment. -/
def withoutLine (code : Bytes) : Bytes :=
  match find? code with
  | some (before, _) => before
  | none => code

/-- End code that is not empty with a newline. -/
def endLine (code : Bytes) : Bytes :=
  if code.isEmpty || code.getLast? == some Bytes.newline then code
  else code ++ [Bytes.newline]

/-- Make a comment that names the address the last line of the code. -/
def set (code url : Bytes) : Bytes :=
  endLine (withoutLine code) ++ render url ++ [Bytes.newline]

/-- Remove a trailing comment and the blank space at the end. -/
def strip (code : Bytes) : Bytes :=
  trimEnd (withoutLine code)

end Reroute.Comment

namespace Reroute.DataUrl

/-- The scheme that marks an address as holding its document. -/
def scheme : Bytes :=
  utf8 "data:"

/-- The address holds its document. -/
def isDataUrl (address : Bytes) : Bool :=
  scheme.isPrefixOf address

/-- Why an address holds no document. -/
inductive Error where
  | notDataUrl
  | malformed
  | payload
  | escape (text : Bytes)
  deriving DecidableEq, Repr

def Error.message : Error → Bytes
  | .notDataUrl => utf8 "not a data URL"
  | .malformed => utf8 "malformed data URL"
  | .payload => utf8 "decoding data URL: <base64>"
  | .escape text => utf8 "decoding data URL: invalid URL escape " ++ Quoted.text text

/-- The document an address holds, written in base64 or with percent escapes. -/
def decode (address : Bytes) : Except Error Bytes :=
  match Bytes.cutHead? scheme address with
  | none => .error .notDataUrl
  | some rest =>
      match Bytes.cutAt? 44 rest with
      | none => .error .malformed
      | some (header, payload) =>
          if (utf8 ";base64").isSuffixOf header then
            match Base64.decode? payload with
            | some data => .ok data
            | none => .error .payload
          else
            match Percent.decode payload with
            | .ok data => .ok data
            | .error text => .error (.escape text)

end Reroute.DataUrl
