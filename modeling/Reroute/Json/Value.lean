import Reroute.Text.Numeral
import Reroute.Text.Rune

/-!
# JSON values and their text

Values keep object members in document order, repeated names included, and numbers as
the numerals they were written with.  The text form has no blanks, or is laid out with
two blanks per level.  Inside strings the markup characters `<`, `>` and `&` and the two
line separators are written by their code, so that the text can be embedded in a page.
-/

namespace Reroute.Json

/-- A JSON value. -/
inductive Value where
  | null
  | bool (value : Bool)
  | number (numeral : Bytes)
  | string (text : Bytes)
  | array (items : List Value)
  | object (members : List (Bytes × Value))
  deriving Inhabited, Repr

namespace Value

/-- The number an integer is written as. -/
def integer (value : Int) : Value :=
  .number (Numeral.ofInt value)

end Value

/-- The letter that follows the backslash for a control character that has one. -/
def shortEscape? (code : Nat) : Option UInt8 :=
  match code with
  | 8 => some 98
  | 9 => some 116
  | 10 => some 110
  | 12 => some 102
  | 13 => some 114
  | _ => none

/-- The characters that are written by their code although a string may hold them. -/
def isMarkup (code : Nat) : Bool :=
  code == 0x3C || code == 0x3E || code == 0x26 || code == 0x2028 || code == 0x2029

/-- One rune of a string.  A stray byte is written as the replacement character. -/
def escapeRune : Rune → Bytes
  | .stray _ => utf8 "\\ufffd"
  | .char character =>
      let code := character.toNat
      if code == 34 || code == 92 then [92, code.toUInt8]
      else
        match shortEscape? code with
        | some letter => [92, letter]
        | none =>
            if code < 0x20 || isMarkup code then
              utf8 "\\u" ++ Numeral.hexPadded Numeral.digit 4 code
            else String.utf8EncodeChar character

/-- A string literal. -/
def quote (text : Bytes) : Bytes :=
  34 :: (Bytes.runes text).flatMap escapeRune ++ [34]

mutual

/-- The text of a value, without blanks. -/
def Value.compact : Value → Bytes
  | .null => utf8 "null"
  | .bool true => utf8 "true"
  | .bool false => utf8 "false"
  | .number numeral => numeral
  | .string text => quote text
  | .array items => 91 :: Value.compactItems items ++ [93]
  | .object members => 123 :: Value.compactMembers members ++ [125]

/-- Items separated by commas. -/
def Value.compactItems : List Value → Bytes
  | [] => []
  | [item] => item.compact
  | item :: items => item.compact ++ 44 :: Value.compactItems items

/-- Members separated by commas. -/
def Value.compactMembers : List (Bytes × Value) → Bytes
  | [] => []
  | [(name, value)] => quote name ++ 58 :: value.compact
  | (name, value) :: members =>
      quote name ++ 58 :: value.compact ++ 44 :: Value.compactMembers members

end

/-- A line break followed by the blanks of a nesting level. -/
def lineBreak (level : Nat) : Bytes :=
  10 :: List.replicate (2 * level) 32

mutual

/-- The text of a value laid out over lines, starting at a nesting level. -/
def Value.indented (level : Nat) : Value → Bytes
  | .array [] => utf8 "[]"
  | .array items =>
      91 :: Value.indentedItems (level + 1) items ++ lineBreak level ++ [93]
  | .object [] => [123, 125]
  | .object members =>
      123 :: Value.indentedMembers (level + 1) members ++ lineBreak level ++ [125]
  | .null => utf8 "null"
  | .bool true => utf8 "true"
  | .bool false => utf8 "false"
  | .number numeral => numeral
  | .string text => quote text

/-- Items, each on a line of its own. -/
def Value.indentedItems (level : Nat) : List Value → Bytes
  | [] => []
  | [item] => lineBreak level ++ item.indented level
  | item :: items =>
      lineBreak level ++ item.indented level ++ 44 :: Value.indentedItems level items

/-- Members, each on a line of its own. -/
def Value.indentedMembers (level : Nat) : List (Bytes × Value) → Bytes
  | [] => []
  | [(name, value)] =>
      lineBreak level ++ quote name ++ utf8 ": " ++ value.indented level
  | (name, value) :: members =>
      lineBreak level ++ quote name ++ utf8 ": " ++ value.indented level
        ++ 44 :: Value.indentedMembers level members

end

/-- A value laid out over lines, ended by a newline. -/
def Value.document (value : Value) : Bytes :=
  value.indented 0 ++ [10]

end Reroute.Json
