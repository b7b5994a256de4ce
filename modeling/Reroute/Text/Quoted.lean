import Reroute.Text.Numeral
import Reroute.Text.Printable
import Reroute.Text.Rune

/-!
# Quoted text

Messages show names between double quotes, and single characters between single
quotes.  Inside, the quote and the backslash are escaped, printable characters stand
for themselves, the common controls have a letter, and everything else is written by
its code.  A stray byte is written by its value, so the quoted form is valid UTF-8 and
tells any two texts apart.
-/

namespace Reroute.Quoted

/-- The letter that follows the backslash for a common control character. -/
def controlLetter? (code : Nat) : Option UInt8 :=
  match code with
  | 7 => some 97
  | 8 => some 98
  | 9 => some 116
  | 10 => some 110
  | 11 => some 118
  | 12 => some 102
  | 13 => some 114
  | _ => none

/-- One character inside quotes of the given kind. -/
def escape (quote : Char) (character : Char) : Bytes :=
  let code := character.toNat
  if character == quote || character == '\\' then
    92 :: String.utf8EncodeChar character
  else if Text.isPrintable character then String.utf8EncodeChar character
  else
    match controlLetter? code with
    | some letter => [92, letter]
    | none =>
        if code < 0x20 || code == 0x7F then
          utf8 "\\x" ++ Numeral.hexPadded Numeral.digit 2 code
        else if code < 0x10000 then
          utf8 "\\u" ++ Numeral.hexPadded Numeral.digit 4 code
        else utf8 "\\U" ++ Numeral.hexPadded Numeral.digit 8 code

/-- One rune inside quotes of the given kind. -/
def escapeRune (quote : Char) : Rune → Bytes
  | .char character => escape quote character
  | .stray byte => utf8 "\\x" ++ Numeral.hexPadded Numeral.digit 2 byte.toNat

/-- A text between double quotes. -/
def text (content : Bytes) : Bytes :=
  34 :: (Bytes.runes content).flatMap (escapeRune '"') ++ [34]

/-- A byte, read as a character of the first 256, between single quotes. -/
def byte (value : UInt8) : Bytes :=
  39 :: escape '\'' (Char.ofNat value.toNat) ++ [39]

/-- A byte by its code point, followed by the character itself when it is printable. -/
def codePoint (value : UInt8) : Bytes :=
  let character := Char.ofNat value.toNat
  let code := utf8 "U+" ++ Numeral.hexPadded Numeral.upperDigit 4 value.toNat
  if Text.isPrintable character then
    code ++ utf8 " '" ++ String.utf8EncodeChar character ++ [39]
  else code

end Reroute.Quoted
