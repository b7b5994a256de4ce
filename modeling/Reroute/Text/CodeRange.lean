import Reroute.Text.Numeral

/-!
# Ranges of character codes

Properties of characters are listed as ranges of their codes, written in hexadecimal:
`41-5A 61-7A AA` are the letters of the alphabet and one more.  `100-12E/2` means every
second code from the first to the last.
-/

namespace Reroute.Text

/-- The value of hexadecimal digits. -/
def readCode (digits : List Char) : Nat :=
  digits.foldl
    (fun total digit => total * 16 + (Numeral.hexDigit? digit.toNat.toUInt8).getD 0) 0

/-- Every second code from the first to the last. -/
def alternate (first last : Nat) : List (Nat × Nat) :=
  (List.range ((last - first) / 2 + 1)).map fun index => (first + 2 * index, first + 2 * index)

def readRanges (word : List Char) : List (Nat × Nat) :=
  let first := word.takeWhile Char.isAlphanum
  match word.drop first.length with
  | [] => [(readCode first, readCode first)]
  | _ :: rest =>
      let last := rest.takeWhile Char.isAlphanum
      if last.length < rest.length then alternate (readCode first) (readCode last)
      else [(readCode first, readCode last)]

/-- The ranges of a line, whose words are divided by spaces. -/
def readLine (line : String) : List (Nat × Nat) :=
  (line.toList.splitBy fun _ next => next != ' ').flatMap fun word =>
    readRanges (word.filter (· != ' '))

/-- A table of ranges by name. -/
abbrev RangeTable := List (String × List String)

/-- The ranges that a table lists under a name that satisfies a test. -/
def RangeTable.find? (table : RangeTable) (test : String → Bool) :
    Option (List (Nat × Nat)) :=
  (List.find? (fun entry : String × List String => test entry.1) table).map fun entry =>
    entry.2.flatMap readLine

end Reroute.Text
