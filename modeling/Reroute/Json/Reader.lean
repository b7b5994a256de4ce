import Reroute.Json.Value
import Reroute.Text.Blank

/-!
# Reading JSON

A reader for one value at the start of a text, on which the reading of whole documents,
of streams of values, and of the raw text of members is built.  Strings are read
leniently: unpaired surrogate escapes and stray bytes become U+FFFD.  Everything else
follows the grammar strictly, and values may nest at most ten thousand deep.
-/

namespace Reroute.Json

/-- How deep arrays and objects may nest. -/
def maxDepth : Nat := 10000

/-- Pass over blanks. -/
def skipBlanks (text : Bytes) : Bytes :=
  text.dropWhile Bytes.isLayout

/-- The value of four hexadecimal digits. -/
def codeUnit? (a b c d : UInt8) : Option Nat :=
  match Numeral.hexDigit? a, Numeral.hexDigit? b, Numeral.hexDigit? c,
      Numeral.hexDigit? d with
  | some w, some x, some y, some z => some (((w * 16 + x) * 16 + y) * 16 + z)
  | _, _, _, _ => none

/-- The unit is the first half of a surrogate pair. -/
def isHighSurrogate (unit : Nat) : Bool :=
  0xD800 ≤ unit && unit < 0xDC00

/-- The unit is the second half of a surrogate pair. -/
def isLowSurrogate (unit : Nat) : Bool :=
  0xDC00 ≤ unit && unit < 0xE000

/-- The encoding of a code point, reversed, in front of a text. -/
def pushCode (code : Nat) (done : Bytes) : Bytes :=
  (String.utf8EncodeChar (Char.ofNat code)).reverse ++ done

/-- The byte a one-letter escape stands for. -/
def unescape? (letter : UInt8) : Option UInt8 :=
  match letter with
  | 34 => some 34
  | 92 => some 92
  | 47 => some 47
  | 98 => some 8
  | 102 => some 12
  | 110 => some 10
  | 114 => some 13
  | 116 => some 9
  | _ => none

/-- Replace every stray byte by U+FFFD. -/
def sanitize (text : Bytes) : Bytes :=
  Bytes.ofChars (Bytes.chars text)

/-- The code point that an escape stands for, and the number of bytes it takes behind
its backslash and letter.  Two escapes that form a surrogate pair are taken together. -/
def unicodeEscape? (text : Bytes) : Option (Nat × Nat) :=
  match text with
  | a :: b :: c :: d :: rest =>
      match codeUnit? a b c d with
      | none => none
      | some unit =>
          if isHighSurrogate unit then
            match rest with
            | 92 :: 117 :: e :: f :: g :: h :: _ =>
                match codeUnit? e f g h with
                | some second =>
                    if isLowSurrogate second then
                      some ((unit - 0xD800) * 1024 + (second - 0xDC00) + 0x10000, 10)
                    else some (0xFFFD, 4)
                | none => some (0xFFFD, 4)
            | _ => some (0xFFFD, 4)
          else if isLowSurrogate unit then some (0xFFFD, 4)
          else some (unit, 4)
  | _ => none

/-- Read the rest of a string literal, up to its closing quote. -/
def readString (done : Bytes) : Bytes → Option (Bytes × Bytes)
  | [] => none
  | 34 :: rest => some (sanitize done.reverse, rest)
  | 92 :: 117 :: rest =>
      match unicodeEscape? rest with
      | some (code, width) => readString (pushCode code done) (rest.drop width)
      | none => none
  | 92 :: letter :: rest =>
      match unescape? letter with
      | some byte => readString (byte :: done) rest
      | none => none
  | byte :: rest => if byte.toNat < 0x20 then none else readString (byte :: done) rest
termination_by text => text.length
decreasing_by all_goals (simp only [List.length_drop, List.length_cons]; omega)

/-- The digits at the start of a text and what follows them. -/
def spanDigits (text : Bytes) : Bytes × Bytes :=
  (text.takeWhile Numeral.isDigit, text.dropWhile Numeral.isDigit)

/-- Read an integer part: a lone zero, or digits that do not start with one. -/
def readWhole (text : Bytes) : Option (Bytes × Bytes) :=
  match text with
  | 48 :: rest => some ([48], rest)
  | _ =>
      let (digits, rest) := spanDigits text
      if digits.isEmpty then none else some (digits, rest)

def readFraction (text : Bytes) : Option (Bytes × Bytes) :=
  match text with
  | 46 :: after =>
      let (digits, rest) := spanDigits after
      if digits.isEmpty then none else some (46 :: digits, rest)
  | _ => some ([], text)

def readExponent (text : Bytes) : Option (Bytes × Bytes) :=
  match text with
  | mark :: after =>
      if mark == 101 || mark == 69 then
        let (sign, body) :=
          match after with
          | 43 :: body => ([43], body)
          | 45 :: body => ([45], body)
          | _ => (([] : Bytes), after)
        let (digits, rest) := spanDigits body
        if digits.isEmpty then none else some (mark :: sign ++ digits, rest)
      else some ([], text)
  | [] => some ([], text)

def readNumber (text : Bytes) : Option (Bytes × Bytes) := do
  let (sign, body) :=
    match text with
    | 45 :: body => ([45], body)
    | _ => (([] : Bytes), text)
  let (whole, afterWhole) ← readWhole body
  let (fraction, afterFraction) ← readFraction afterWhole
  let (exponent, rest) ← readExponent afterFraction
  return (sign ++ whole ++ fraction ++ exponent, rest)

mutual

/-- Read the value at the start of a text, passing over blanks in front of it.  The fuel
bounds the number of nested and successive steps; `depth` counts the open containers. -/
def readValue (fuel depth : Nat) (text : Bytes) : Option (Value × Bytes) :=
  match fuel with
  | 0 => none
  | fuel + 1 =>
      match skipBlanks text with
      | [] => none
      | 34 :: rest =>
          match readString [] rest with
          | some (content, after) => some (.string content, after)
          | none => none
      | 91 :: rest =>
          if depth < maxDepth then
            match skipBlanks rest with
            | 93 :: after => some (.array [], after)
            | _ => readItems fuel (depth + 1) [] rest
          else none
      | 123 :: rest =>
          if depth < maxDepth then
            match skipBlanks rest with
            | 125 :: after => some (.object [], after)
            | _ => readMembers fuel (depth + 1) [] rest
          else none
      | 110 :: 117 :: 108 :: 108 :: rest => some (.null, rest)
      | 116 :: 114 :: 117 :: 101 :: rest => some (.bool true, rest)
      | 102 :: 97 :: 108 :: 115 :: 101 :: rest => some (.bool false, rest)
      | other =>
          match readNumber other with
          | some (numeral, after) => some (.number numeral, after)
          | none => none

/-- Read the items of an array behind those already read, latest first. -/
def readItems (fuel depth : Nat) (done : List Value) (text : Bytes) :
    Option (Value × Bytes) :=
  match fuel with
  | 0 => none
  | fuel + 1 =>
      match readValue fuel depth text with
      | none => none
      | some (item, after) =>
          match skipBlanks after with
          | 44 :: rest => readItems fuel depth (item :: done) rest
          | 93 :: rest => some (.array (item :: done).reverse, rest)
          | _ => none

/-- Read the members of an object behind those already read, latest first. -/
def readMembers (fuel depth : Nat) (done : List (Bytes × Value)) (text : Bytes) :
    Option (Value × Bytes) :=
  match fuel with
  | 0 => none
  | fuel + 1 =>
      match skipBlanks text with
      | 34 :: afterQuote =>
          match readString [] afterQuote with
          | none => none
          | some (name, afterName) =>
              match skipBlanks afterName with
              | 58 :: afterColon =>
                  match readValue fuel depth afterColon with
                  | none => none
                  | some (value, after) =>
                      match skipBlanks after with
                      | 44 :: rest => readMembers fuel depth ((name, value) :: done) rest
                      | 125 :: rest =>
                          some (.object ((name, value) :: done).reverse, rest)
                      | _ => none
              | _ => none
      | _ => none

end

/-- Steps that suffice for a text: every step reads at least one byte. -/
def enoughFuel (text : Bytes) : Nat :=
  2 * text.length + 2

/-- Read the value at the start of a text and return what follows it. -/
def read? (text : Bytes) : Option (Value × Bytes) :=
  readValue (enoughFuel text) 0 text

/-- Read a document: one value with nothing but blanks around it. -/
def parse? (text : Bytes) : Option Value :=
  match read? text with
  | some (value, rest) => if (skipBlanks rest).isEmpty then some value else none
  | none => none

/-- The raw texts of the items of an array, from behind its opening bracket. -/
def rawItemsFrom (fuel : Nat) (done : List Bytes) (text : Bytes) : List Bytes :=
  match fuel with
  | 0 => done.reverse
  | fuel + 1 =>
      let start := skipBlanks text
      match read? start with
      | none => done.reverse
      | some (_, after) =>
          let raw := start.take (start.length - after.length)
          match skipBlanks after with
          | 44 :: rest => rawItemsFrom fuel (raw :: done) rest
          | _ => (raw :: done).reverse

/-- The names and raw texts of the members of an object, from behind its opening brace. -/
def rawMembersFrom (fuel : Nat) (done : List (Bytes × Bytes)) (text : Bytes) :
    List (Bytes × Bytes) :=
  match fuel with
  | 0 => done.reverse
  | fuel + 1 =>
      match skipBlanks text with
      | 34 :: afterQuote =>
          match readString [] afterQuote with
          | none => done.reverse
          | some (name, afterName) =>
              let start := skipBlanks ((skipBlanks afterName).drop 1)
              match read? start with
              | none => done.reverse
              | some (_, after) =>
                  let raw := start.take (start.length - after.length)
                  match skipBlanks after with
                  | 44 :: rest => rawMembersFrom fuel ((name, raw) :: done) rest
                  | _ => ((name, raw) :: done).reverse
      | _ => done.reverse

/-- The raw texts of the items of a document that is an array. -/
def rawItems (text : Bytes) : List Bytes :=
  match skipBlanks text with
  | 91 :: rest => rawItemsFrom rest.length [] rest
  | _ => []

/-- The names and raw texts of the members of a document that is an object. -/
def rawMembers (text : Bytes) : List (Bytes × Bytes) :=
  match skipBlanks text with
  | 123 :: rest => rawMembersFrom rest.length [] rest
  | _ => []

end Reroute.Json
