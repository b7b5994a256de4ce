import Reroute.Text.Rune

/-!
# White space

The characters that count as white space at the ends of a text: the ASCII ones, the
next-line control, the no-break space and the Unicode space and line separators.
-/

namespace Reroute.Text

/-- The character is white space. -/
def isBlank (character : Char) : Bool :=
  let code := character.toNat
  (9 ≤ code && code ≤ 13) || code == 0x20 || code == 0x85 || code == 0xA0
    || code == 0x1680 || (0x2000 ≤ code && code ≤ 0x200A) || code == 0x2028
    || code == 0x2029 || code == 0x202F || code == 0x205F || code == 0x3000

/-- The rune is a white-space character. -/
def isBlankRune : Rune → Bool
  | .char value => isBlank value
  | .stray _ => false

end Reroute.Text

namespace Reroute.Bytes

/-- Remove white space from both ends of a text. -/
def trim (text : Bytes) : Bytes :=
  let kept := (runes text).dropWhile Text.isBlankRune
  ((kept.reverse.dropWhile Text.isBlankRune).reverse).flatMap Rune.bytes

/-- A blank of code layout: space, tab, carriage return or newline. -/
def isLayout (byte : UInt8) : Bool :=
  byte == 0x20 || byte == 0x09 || byte == 0x0D || byte == 0x0A

end Reroute.Bytes
