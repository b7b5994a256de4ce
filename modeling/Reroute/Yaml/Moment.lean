import Reroute.Text.Numeral

/-!
# Moments

A scalar may be a date or a time of a day.  A date is a year of four digits, a month and a
day; the time after it has hours, minutes and seconds, which may have a fraction.  Between
a `T` and the time zone the time is that of the zone; after a blank there is no zone.
-/

namespace Reroute.Yaml

/-- A moment: a date, a time of that day with its nanoseconds, and by how many minutes the
clock is ahead of the standard one. -/
structure Moment where
  year : Nat
  month : Nat
  day : Nat
  hour : Nat
  minute : Nat
  second : Nat
  fraction : Nat
  offset : Int
  deriving DecidableEq, Repr

namespace Moment

/-- The year has a leap day. -/
def isLeap (year : Nat) : Bool :=
  year % 4 == 0 && (year % 100 != 0 || year % 400 == 0)

/-- How many days a month has. -/
def daysIn (year month : Nat) : Nat :=
  if month == 2 then if isLeap year then 29 else 28
  else if month == 4 || month == 6 || month == 9 || month == 11 then 30
  else 31

/-- Read a number of one or two digits. -/
def readPair? (text : Bytes) : Option (Nat × Bytes) :=
  let digits := (text.take 2).takeWhile Numeral.isDigit
  (Numeral.readNat? digits).map fun value => (value, text.drop digits.length)

/-- Read a number of exactly two digits. -/
def readFixed? (text : Bytes) : Option (Nat × Bytes) :=
  (Numeral.readNat? (text.take 2)).bind fun value =>
    if 2 ≤ text.length then some (value, text.drop 2) else none

/-- Pass over a byte. -/
def pass? (byte : UInt8) : Bytes → Option Bytes
  | [] => none
  | first :: rest => if first == byte then some rest else none

def readDate? (text : Bytes) : Option (Moment × Bytes) := do
  let digits := text.takeWhile Numeral.isDigit
  if digits.length != 4 then none
  else
    let year ← Numeral.readNat? digits
    let rest ← pass? 45 (text.drop 4)
    let (month, rest) ← readPair? rest
    let rest ← pass? 45 rest
    let (day, rest) ← readPair? rest
    if 1 ≤ month && month ≤ 12 && 1 ≤ day && day ≤ daysIn year month then
      return ({ year, month, day, hour := 0, minute := 0, second := 0, fraction := 0,
                offset := 0 }, rest)
    else none

/-- Read the fraction of a second after a point or a comma, in nanoseconds; further
digits do not count. -/
def readFraction (text : Bytes) : Nat × Bytes :=
  match text with
  | mark :: rest =>
      let digits := rest.takeWhile Numeral.isDigit
      if (mark == 46 || mark == 44) && !digits.isEmpty then
        let counted := digits.take 9
        ((Numeral.readNat? (counted ++ List.replicate (9 - counted.length) 48)).getD 0,
          rest.drop digits.length)
      else (0, text)
  | [] => (0, text)

def readTime? (date : Moment) (text : Bytes) : Option (Moment × Bytes) := do
  let (hour, rest) ← readPair? text
  let rest ← pass? 58 rest
  let (minute, rest) ← readPair? rest
  let rest ← pass? 58 rest
  let (second, rest) ← readPair? rest
  let (fraction, rest) := readFraction rest
  if hour < 24 && minute < 60 && second < 60 then
    return ({ date with hour, minute, second, fraction }, rest)
  else none

/-- Read a time zone: the standard one, or how far the clock is ahead of it. -/
def readZone? (text : Bytes) : Option (Int × Bytes) := do
  match text with
  | 90 :: rest => return (0, rest)
  | sign :: rest =>
      let (hours, rest) ← readFixed? rest
      let rest ← pass? 58 rest
      let (minutes, rest) ← readFixed? rest
      if 24 < hours || 60 < minutes then none
      else
        let offset : Int := (hours * 60 + minutes : Nat)
        if sign == 43 then return (offset, rest)
        else if sign == 45 then return (-offset, rest)
        else none
  | [] => none

def read? (text : Bytes) : Option Moment := do
  let (date, rest) ← readDate? text
  match rest with
  | [] => return date
  | mark :: after =>
      let (moment, rest) ←
        if mark == 84 || mark == 116 then do
          let (moment, rest) ← readTime? date after
          let (offset, rest) ← readZone? rest
          pure ({ moment with offset }, rest)
        else if mark == 32 then readTime? date (after.dropWhile (· == 32))
        else none
      if rest.isEmpty then return moment else none

/-- The moments are the same as keys.  Time zones other than those of whole hours from
twelve behind to fourteen ahead are told apart even from themselves. -/
def isSameKey (left right : Moment) : Bool :=
  left == right && left.offset % 60 == 0 && -720 ≤ left.offset && left.offset ≤ 840

end Moment

end Reroute.Yaml
