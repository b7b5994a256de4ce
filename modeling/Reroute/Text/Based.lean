import Reroute.Text.Numeral

/-!
# Integers in several bases

Integers with an optional sign, in base two, eight or sixteen behind `0b`, `0o` or `0x`,
in base eight behind another zero, and in base ten otherwise.  Underscores may stand
between digits.  The digits are read from left to right, and reading stops as soon as the
number is too large, so a numeral that is too large and malformed further on counts as too
large.
-/

namespace Reroute.Based

/-- Why a text is not an integer. -/
inductive Error where
  | malformed
  | outOfRange
  deriving DecidableEq, Repr

def Error.message : Error → Bytes
  | .malformed => utf8 "invalid syntax"
  | .outOfRange => utf8 "value out of range"

/-- The value of a digit or letter. -/
def digitValue? (byte : UInt8) : Option Nat :=
  let code := byte.toNat
  if 48 ≤ code && code ≤ 57 then some (code - 48)
  else if 97 ≤ code && code ≤ 122 then some (code - 87)
  else if 65 ≤ code && code ≤ 90 then some (code - 55)
  else none

/-- Read digits and underscores onto a number that fits an unsigned 64-bit word. -/
def readDigits (base total : Nat) : Bytes → Except Error Nat
  | [] => .ok total
  | byte :: rest =>
      if byte == 95 then readDigits base total rest
      else
        match digitValue? byte with
        | none => .error .malformed
        | some value =>
            if base ≤ value then .error .malformed
            else if Numeral.wordCount ≤ total * base + value then .error .outOfRange
            else readDigits base (total * base + value) rest

/-- The base of a numeral without sign, and its digits. -/
def split (text : Bytes) : Nat × Bytes :=
  match text with
  | 48 :: mark :: digit :: digits =>
      if mark == 98 || mark == 66 then (2, digit :: digits)
      else if mark == 111 || mark == 79 then (8, digit :: digits)
      else if mark == 120 || mark == 88 then (16, digit :: digits)
      else (8, mark :: digit :: digits)
  | 48 :: rest => (8, rest)
  | _ => (10, text)

/-- Every underscore stands between two digits; the mark of a base counts as a digit. -/
def underscoresBetween (afterDigit : Bool) : Bytes → Bool
  | [] => true
  | [byte] => byte != 95
  | byte :: rest =>
      if byte == 95 then
        afterDigit && rest.head? != some 95 && underscoresBetween false rest
      else underscoresBetween true rest

/-- Read a numeral without sign. -/
def readUnsigned (text : Bytes) : Except Error Nat :=
  if text.isEmpty then .error .malformed
  else
    let (base, digits) := split text
    match readDigits base 0 digits with
    | .error error => .error error
    | .ok value =>
        if underscoresBetween (base != 10) digits then .ok value else .error .malformed

/-- An integer that has to fit a signed 64-bit word. -/
def fit (value : Int) : Except Error Int :=
  if Numeral.fitsWord value then .ok value else .error .outOfRange

/-- Read an integer that fits a signed 64-bit word. -/
def read (text : Bytes) : Except Error Int :=
  match text with
  | 45 :: rest => (readUnsigned rest).bind fun value => fit (-(value : Int))
  | 43 :: rest => (readUnsigned rest).bind fun value => fit value
  | _ => (readUnsigned text).bind fun value => fit value

end Reroute.Based
