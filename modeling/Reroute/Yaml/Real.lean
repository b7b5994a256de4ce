import Reroute.Text.Numeral

/-!
# Real numbers

A real number of a document is the double-precision number nearest to the decimal that is
written, with ties to the even one.  Every finite one is a whole number of units, the unit
being the least positive double, so rounding and comparing need only natural numbers.
-/

namespace Reroute.Yaml

/-- A double-precision number.  A finite one counts units of `2 ^ -1074`. -/
inductive Real where
  | nan
  | infinite (negative : Bool)
  | finite (negative : Bool) (units : Nat)
  deriving DecidableEq, Repr

/-- A decimal fraction: its digits as an integer, how many there are from the first that
is not zero, and the power of ten they count. -/
structure Decimal where
  digits : Nat
  length : Nat
  exponent : Int

namespace Decimal

/-- A decimal from its digits and the power of ten they count. -/
def ofDigits (digits : Bytes) (exponent : Int) : Decimal :=
  let significant := digits.dropWhile (· == 48)
  { digits := significant.foldl (fun total byte => total * 10 + (byte.toNat - 48)) 0
    length := significant.length
    exponent := exponent }

/-- Exponents are not read further than this. -/
def largestExponent : Nat := 10000

/-- The value of the digits of an exponent.  Digits that come after a value as large as
`largestExponent` do not count. -/
def exponentValue (digits : Bytes) : Nat :=
  digits.foldl
    (fun total byte =>
      if total < largestExponent then total * 10 + (byte.toNat - 48) else total)
    0

/-- Read the exponent of a decimal, which has to be the rest of the text. -/
def readExponent? (text : Bytes) : Option Int :=
  match text with
  | [] => some 0
  | mark :: rest =>
      let digits (text : Bytes) : Option Nat :=
        if text.isEmpty || !text.all Numeral.isDigit then none else some (exponentValue text)
      if mark == 101 || mark == 69 then
        match rest with
        | 45 :: rest => (digits rest).map fun value => -(value : Int)
        | 43 :: rest => (digits rest).map Int.ofNat
        | _ => (digits rest).map Int.ofNat
      else none

/-- Read a decimal without sign: digits with at most one point among them, and at least
one digit before an optional exponent. -/
def read? (text : Bytes) : Option Decimal :=
  let whole := text.takeWhile Numeral.isDigit
  let rest := text.drop whole.length
  let (fraction, rest) :=
    match rest with
    | 46 :: after =>
        let fraction := after.takeWhile Numeral.isDigit
        (fraction, after.drop fraction.length)
    | _ => ([], rest)
  if whole.isEmpty && fraction.isEmpty then none
  else
    (readExponent? rest).map fun exponent =>
      ofDigits (whole ++ fraction) (exponent - fraction.length)

end Decimal

namespace Real

/-- How many times one is halved to get the unit. -/
def unitScale : Nat := 1074

/-- The number of binary digits of a double. -/
def precision : Nat := 53

/-- The least number of units that is too large for a double. -/
def unitLimit : Nat :=
  1 <<< (1024 + unitScale)

/-- Divide and round to the nearest integer, ties to the even one. -/
def roundedQuotient (numerator denominator : Nat) : Nat :=
  let quotient := numerator / denominator
  let twice := 2 * (numerator % denominator)
  if denominator < twice || (twice == denominator && quotient % 2 == 1) then quotient + 1
  else quotient

/-- The units of the double nearest to a quotient; none if it is too large. -/
def roundUnits? (numerator denominator : Nat) : Option Nat :=
  let scaled := numerator <<< unitScale
  let shift := (scaled / denominator).log2 + 1 - precision
  let units := roundedQuotient scaled (denominator <<< shift) <<< shift
  if units < unitLimit then some units else none

/-- The double nearest to a decimal, unless it is too large. -/
def ofDecimal? (negative : Bool) (decimal : Decimal) : Option Real :=
  let magnitude : Int := decimal.length + decimal.exponent
  if decimal.digits = 0 || magnitude < -330 then some (.finite negative 0)
  else if 310 < magnitude then none
  else
    let numerator := decimal.digits * Nat.pow 10 decimal.exponent.toNat
    let denominator := Nat.pow 10 (-decimal.exponent).toNat
    (roundUnits? numerator denominator).map (.finite negative)

/-- Read a decimal with an optional sign; none if it is too large for a double. -/
def read? (text : Bytes) : Option Real :=
  let (negative, digits) :=
    match text with
    | 45 :: digits => (true, digits)
    | 43 :: digits => (false, digits)
    | _ => (false, text)
  (Decimal.read? digits).bind (ofDecimal? negative)

/-- The underscores of a text stand between digits. -/
def separatesDigits : (afterDigit : Bool) → Bytes → Bool
  | _, [] => true
  | afterDigit, byte :: rest =>
      if byte == 95 then
        afterDigit && rest.head?.any Numeral.isDigit && separatesDigits false rest
      else separatesDigits (Numeral.isDigit byte) rest

/-- Read a decimal whose digits may be separated by underscores. -/
def readSeparated? (text : Bytes) : Option Real :=
  if separatesDigits false text then read? (text.filter (· != 95)) else none

/-- The double nearest to an integer. -/
def ofInt (value : Int) : Real :=
  match roundUnits? value.natAbs 1 with
  | some units => .finite (value < 0) units
  | none => .infinite (value < 0)

/-- The integer part as a word.  Numbers above the range of words have none, and the
first one past it and those below it become the least word. -/
def toWord? : Real → Option Int
  | .nan => none
  | .infinite negative => if negative then some (-(Numeral.wordBound : Int)) else none
  | .finite negative units =>
      let magnitude := units >>> unitScale
      if negative then some (-(min magnitude Numeral.wordBound : Nat) : Int)
      else if units ≤ Numeral.wordBound <<< unitScale then
        if magnitude = Numeral.wordBound then some (-(Numeral.wordBound : Int))
        else some magnitude
      else none

/-- The numbers compare equal: a number that is none differs from itself, and zero has
no sign. -/
def isEqual : Real → Real → Bool
  | .infinite left, .infinite right => left == right
  | .finite left units, .finite right others =>
      units == others && (left == right || units == 0)
  | _, _ => false

end Real

end Reroute.Yaml
