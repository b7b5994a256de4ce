import Reroute.Bytes

/-!
# Numerals

Decimal and hexadecimal numerals as byte texts, and the word range that numerals read
from documents have to fall in.
-/

namespace Reroute.Numeral

/-- The digit characters up to base sixteen, in lower case. -/
def digit (value : Nat) : UInt8 :=
  if value < 10 then (48 + value).toUInt8 else (87 + value).toUInt8

/-- The upper-case form of a digit. -/
def upperDigit (value : Nat) : UInt8 :=
  if value < 10 then (48 + value).toUInt8 else (55 + value).toUInt8

/-- Digits of a number in a base, least significant first; zero has none. -/
def digitsOf (base : Nat) (value : Nat) : List Nat :=
  if 2 ≤ base ∧ 0 < value then
    value % base :: digitsOf base (value / base)
  else []
termination_by value
decreasing_by exact Nat.div_lt_self (by omega) (by omega)

/-- The decimal numeral of a natural number. -/
def ofNat (value : Nat) : Bytes :=
  if value = 0 then [48]
  else ((digitsOf 10 value).map digit).reverse

/-- The decimal numeral of an integer. -/
def ofInt (value : Int) : Bytes :=
  if value < 0 then 45 :: ofNat value.natAbs else ofNat value.natAbs

/-- A hexadecimal numeral of at least `width` digits. -/
def hexPadded (render : Nat → UInt8) (width value : Nat) : Bytes :=
  let digits := (digitsOf 16 value).map render
  List.replicate (width - digits.length) 48 ++ digits.reverse

/-- The value of a hexadecimal digit of either case. -/
def hexDigit? (byte : UInt8) : Option Nat :=
  let code := byte.toNat
  if 48 ≤ code && code ≤ 57 then some (code - 48)
  else if 97 ≤ code && code ≤ 102 then some (code - 87)
  else if 65 ≤ code && code ≤ 70 then some (code - 55)
  else none

/-- The byte is a decimal digit. -/
def isDigit (byte : UInt8) : Bool :=
  48 ≤ byte.toNat && byte.toNat ≤ 57

/-- The value of a text of decimal digits, of which there is at least one. -/
def readNat? (text : Bytes) : Option Nat :=
  if !text.isEmpty && text.all isDigit then
    some (text.foldl (fun total byte => total * 10 + (byte.toNat - 48)) 0)
  else none

/-- How many 64-bit words there are. -/
def wordCount : Nat := 18446744073709551616

/-- The least number above the signed 64-bit words. -/
def wordBound : Nat := 9223372036854775808

/-- The integer fits a signed 64-bit word. -/
def fitsWord (value : Int) : Bool :=
  -(wordBound : Int) ≤ value && value < (wordBound : Int)

/-- Read a decimal integer with an optional sign. -/
def readInt? (text : Bytes) : Option Int :=
  match text with
  | 45 :: rest => (readNat? rest).map fun value => -(value : Int)
  | 43 :: rest => (readNat? rest).map Int.ofNat
  | _ => (readNat? text).map Int.ofNat

/-- Read a decimal integer that fits a signed 64-bit word. -/
def readWord? (text : Bytes) : Option Int :=
  (readInt? text).filter fitsWord

end Reroute.Numeral
