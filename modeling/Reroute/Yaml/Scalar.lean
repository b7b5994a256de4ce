import Reroute.Text.Base64
import Reroute.Yaml.Moment
import Reroute.Yaml.Node
import Reroute.Yaml.Real

/-!
# The meaning of scalars

A plain scalar means null, a truth value, a number, a moment or, failing those, its own
text.  Quoted and block scalars mean their text.  A standard tag overrides this: `!!str`
makes any scalar a text, `!!binary` decodes it, and the tags of the other kinds have to
agree with what the text means.  Under any other tag a scalar is a text.

Integers may be written in base two, eight, ten or sixteen and with underscores.
-/

namespace Reroute.Yaml

/-- What a scalar means. -/
inductive Meaning where
  | null
  | flag (value : Bool)
  | whole (value : Int)
  | real (value : Real)
  | moment (value : Moment)
  | text (content : Bytes)
  deriving DecidableEq, Repr

/-- The digits of a numeral in a base, if all are valid and there is at least one. -/
def readDigits? (base : Nat) (digits : Bytes) : Option Nat :=
  if digits.isEmpty then none
  else
    digits.foldl
      (fun total byte =>
        match total, Numeral.hexDigit? byte with
        | some total, some value => if value < base then some (total * base + value) else none
        | _, _ => none)
      (some 0)

/-- A numeral without sign, in the base that its first characters give: two, eight or
sixteen after `0b`, `0o` or `0x`, eight after another zero, and ten otherwise. -/
def readNumeral? (text : Bytes) : Option Nat :=
  match text with
  | 48 :: mark :: digits =>
      if mark == 98 || mark == 66 then readDigits? 2 digits
      else if mark == 111 || mark == 79 then readDigits? 8 digits
      else if mark == 120 || mark == 88 then readDigits? 16 digits
      else readDigits? 8 (mark :: digits)
  | _ => readDigits? 10 text

/-- Apply a reader of numerals behind an optional sign. -/
def readSigned? (read : Bytes → Option Nat) (text : Bytes) : Option Int :=
  match text with
  | 45 :: digits => (read digits).map fun value => -(value : Int)
  | 43 :: digits => (read digits).map Int.ofNat
  | _ => (read text).map Int.ofNat

/-- The numeral has no sign. -/
def isUnsigned (text : Bytes) : Bool :=
  text.head? != some 45 && text.head? != some 43

/-- An integer: a signed word, or an unsigned numeral that fits an unsigned one.  A sign
may also stand behind the marks of base two and eight. -/
def readWhole? (text : Bytes) : Option Int :=
  match readSigned? readNumeral? text with
  | some value =>
      if Numeral.fitsWord value then some value
      else if isUnsigned text && value < Numeral.wordCount then some value
      else none
  | none =>
      let marked :=
        match text with
        | 48 :: 98 :: digits => readSigned? (readDigits? 2) digits
        | 48 :: 111 :: digits => readSigned? (readDigits? 8) digits
        | _ => none
      marked.filter Numeral.fitsWord

/-- The scalars that are listed with their meaning. -/
def listed? (text : Bytes) : Option Meaning :=
  let is (words : List String) : Bool := words.any fun word => utf8 word == text
  if is ["", "~", "null", "Null", "NULL"] then some .null
  else if is ["true", "True", "TRUE"] then some (.flag true)
  else if is ["false", "False", "FALSE"] then some (.flag false)
  else if is [".nan", ".NaN", ".NAN"] then some (.real .nan)
  else if is [".inf", ".Inf", ".INF", "+.inf", "+.Inf", "+.INF"] then
    some (.real (.infinite false))
  else if is ["-.inf", "-.Inf", "-.INF"] then some (.real (.infinite true))
  else none

/-- The number that a text starting with a digit or a sign means. -/
def readNumber? (text : Bytes) : Option Meaning :=
  let plain := text.filter (· != 95)
  match readWhole? plain with
  | some value => some (.whole value)
  | none => (Real.read? plain).map .real

/-- The meaning of a text on its own, which is a moment only if that is wanted. -/
def Meaning.ofText (moments : Bool) (text : Bytes) : Meaning :=
  match listed? text with
  | some meaning => meaning
  | none =>
      match text with
      | [] => .null
      | first :: _ =>
          if first == 46 then
            match Real.readSeparated? text with
            | some value => .real value
            | none => .text text
          else if Numeral.isDigit first || first == 43 || first == 45 then
            match if moments then Moment.read? text else none with
            | some found => .moment found
            | none => (readNumber? text).getD (.text text)
          else .text text

/-- The tags that scalars are understood by. -/
inductive Tag.Standard where
  | null
  | bool
  | int
  | float
  | timestamp
  | str
  | binary
  | merge
  deriving DecidableEq, Repr

namespace Tag

def Standard.name : Standard → String
  | .null => "null"
  | .bool => "bool"
  | .int => "int"
  | .float => "float"
  | .timestamp => "timestamp"
  | .str => "str"
  | .binary => "binary"
  | .merge => "merge"

/-- The tag is a standard one, in its long or its short form. -/
def Standard.matches (standard : Standard) (tag : Bytes) : Bool :=
  tag == utf8 "tag:yaml.org,2002:" ++ utf8 standard.name
    || tag == utf8 "!!" ++ utf8 standard.name

/-- The tags that a scalar may have to agree with. -/
def standards : List Standard :=
  [.null, .bool, .int, .float, .timestamp, .str, .binary, .merge]

/-- The standard tag that is meant. -/
def standard? (tag : Bytes) : Option Standard :=
  standards.find? (·.matches tag)

/-- A tag that says something: an exclamation mark alone does not. -/
def given (tag : Option Bytes) : Option Bytes :=
  tag.filter (· != utf8 "!")

end Tag

/-- The tag that a meaning would have. -/
def Meaning.tag : Meaning → Tag.Standard
  | .null => .null
  | .flag _ => .bool
  | .whole _ => .int
  | .real _ => .float
  | .moment _ => .timestamp
  | .text _ => .str

/-- The meaning of a text under a tag that it has to agree with.  An integer that fits a
word agrees with the tag of real numbers. -/
def Meaning.underTag? (tag : Tag.Standard) (text : Bytes) : Option Meaning :=
  let meaning := Meaning.ofText (tag == .timestamp) text
  if meaning.tag == tag then some meaning
  else
    match meaning with
    | .whole value =>
        if tag == .float && Numeral.fitsWord value then some (.real (.ofInt value)) else none
    | _ => none

/-- The key that merges other mappings into its own. -/
def mergeKey : Bytes :=
  utf8 "<<"

/-- The meaning of a scalar, unless its tag contradicts its text. -/
def Meaning.ofScalar? (tag : Option Bytes) (plain : Bool) (text : Bytes) : Option Meaning :=
  match Tag.given tag with
  | none => if plain then some (Meaning.ofText true text) else some (.text text)
  | some tag =>
      match Tag.standard? tag with
      | none => some (.text text)
      | some .str => some (.text text)
      | some .merge => some (.text text)
      | some .binary => (Base64.decode? text).map .text
      | some standard => Meaning.underTag? standard text

def Meaning.isSameKey : Meaning → Meaning → Bool
  | .real left, .real right => left.isEqual right
  | .moment left, .moment right => left.isSameKey right
  | left, right => left == right

end Reroute.Yaml
