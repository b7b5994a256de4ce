import Reroute.Bytes

/-!
# The characters of a YAML text

A YAML text is UTF-8, or UTF-16 when it starts with a byte order mark that says so.  It
consists of printable characters, tabs and line breaks; any other character, and any
byte that belongs to none, cannot be read.

A text is read in blocks, and only as far as it is needed.  A block holds the characters
that the next 512 bytes complete, together with the bytes the block before left over.
Something unreadable is noticed when its block is read, so it does not matter if it comes
after everything that is needed.
-/

namespace Reroute.Yaml

/-- How the characters of a text are encoded. -/
inductive Encoding where
  | utf8
  | utf16 (bigEndian : Bool)
  deriving DecidableEq

/-- The first character of a text: its code and the bytes after it, too few bytes to
tell, or bytes that encode none. -/
inductive Scanned where
  | code (value : Nat) (rest : Bytes)
  | incomplete
  | invalid

/-- How many bytes a character has whose first byte is given; zero if no character
starts with it. -/
def leadWidth (lead : UInt8) : Nat :=
  let code := lead.toNat
  if code < 0x80 then 1
  else if code < 0xC0 then 0
  else if code < 0xE0 then 2
  else if code < 0xF0 then 3
  else if code < 0xF8 then 4
  else 0

/-- The byte continues a character. -/
def isContinuation (byte : UInt8) : Bool :=
  0x80 ≤ byte.toNat && byte.toNat < 0xC0

/-- The least code that takes the given number of bytes. -/
def leastOfWidth : Nat → Nat
  | 2 => 0x80
  | 3 => 0x800
  | 4 => 0x10000
  | _ => 0

/-- Read the first character of a UTF-8 text. -/
def scanUtf8 : Bytes → Scanned
  | [] => .incomplete
  | lead :: rest =>
      let width := leadWidth lead
      let trail := rest.take (width - 1)
      if width = 0 then .invalid
      else if trail.length < width - 1 then .incomplete
      else if !trail.all isContinuation then .invalid
      else
        let head := if width = 1 then lead.toNat else lead.toNat % (1 <<< (7 - width))
        let value := trail.foldl (fun total byte => total * 64 + byte.toNat % 64) head
        if value < leastOfWidth width || (0xD800 ≤ value && value < 0xE000)
            || 0x10FFFF < value then .invalid
        else .code value (rest.drop (width - 1))

/-- The 16-bit unit that two bytes stand for. -/
def unitOf (bigEndian : Bool) (first second : UInt8) : Nat :=
  if bigEndian then first.toNat * 256 + second.toNat
  else second.toNat * 256 + first.toNat

/-- Read the first character of a UTF-16 text; every surrogate has to be paired. -/
def scanUtf16 (bigEndian : Bool) : Bytes → Scanned
  | first :: second :: rest =>
      let unit := unitOf bigEndian first second
      if 0xDC00 ≤ unit && unit < 0xE000 then .invalid
      else if 0xD800 ≤ unit && unit < 0xDC00 then
        match rest with
        | third :: fourth :: rest =>
            let low := unitOf bigEndian third fourth
            if 0xDC00 ≤ low && low < 0xE000 then
              .code (0x10000 + (unit - 0xD800) * 0x400 + (low - 0xDC00)) rest
            else .invalid
        | _ => .incomplete
      else .code unit rest
  | _ => .incomplete

/-- Read the first character of a text. -/
def Encoding.scan : Encoding → Bytes → Scanned
  | .utf8 => scanUtf8
  | .utf16 bigEndian => scanUtf16 bigEndian

/-- The encoding of a text, and the text without the mark that tells it. -/
def Encoding.detect : Bytes → Encoding × Bytes
  | 0xFF :: 0xFE :: rest => (.utf16 false, rest)
  | 0xFE :: 0xFF :: rest => (.utf16 true, rest)
  | 0xEF :: 0xBB :: 0xBF :: rest => (.utf8, rest)
  | text => (.utf8, text)

/-- The character with this code may stand in a YAML text. -/
def isAllowed (code : Nat) : Bool :=
  code == 0x09 || code == 0x0A || code == 0x0D || (0x20 ≤ code && code ≤ 0x7E)
    || code == 0x85 || (0xA0 ≤ code && code ≤ 0xD7FF)
    || (0xE000 ≤ code && code ≤ 0xFFFD) || 0x10000 ≤ code

/-- The characters that some bytes complete, and the bytes left over; none if something
among them cannot be read. -/
def decodeBlock (encoding : Encoding) : Nat → List Char → Bytes → Option (List Char × Bytes)
  | 0, _, _ => none
  | fuel + 1, done, raw =>
      if raw.isEmpty then some (done.reverse, [])
      else
        match encoding.scan raw with
        | .incomplete => some (done.reverse, raw)
        | .invalid => none
        | .code value rest =>
            if isAllowed value then
              decodeBlock encoding fuel (Char.ofNat value :: done) rest
            else none

/-- How many bytes are read at a time. -/
def blockSize : Nat := 512

/-- A text as the blocks it is read in, and whether anything after them can be read. -/
structure Source where
  blocks : List (List Char)
  readable : Bool

/-- Read blocks, the first of which starts with the bytes at hand. -/
def Source.readBlocks (encoding : Encoding) : Nat → Bytes → Bytes → Source
  | 0, _, _ => ⟨[], false⟩
  | fuel + 1, raw, later =>
      match decodeBlock encoding (raw.length + 1) [] raw with
      | none => ⟨[], false⟩
      | some (characters, left) =>
          if later.isEmpty then ⟨[characters], left.isEmpty⟩
          else
            let count := blockSize - left.length
            let next := readBlocks encoding fuel (left ++ later.take count) (later.drop count)
            { next with blocks := characters :: next.blocks }

def Source.ofBytes (text : Bytes) : Source :=
  let (encoding, raw) := Encoding.detect (text.take blockSize)
  readBlocks encoding (text.length + 1) raw (text.drop blockSize)

end Reroute.Yaml
