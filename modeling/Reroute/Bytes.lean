/-!
# Byte texts

Chunks, maps, names and messages are all sequences of bytes: code that a bundler
emits need not be valid UTF-8, and offsets into it count bytes.  This module fixes
that representation and the few searches, cuts and comparisons the rest of the
library is written with.
-/

namespace Reroute

/-- A text, as the bytes it consists of. -/
abbrev Bytes := List UInt8

/-- The UTF-8 encoding of a text. -/
def utf8 (text : String) : Bytes :=
  text.toList.flatMap String.utf8EncodeChar

instance : Coe String Bytes :=
  ⟨utf8⟩

namespace Bytes

def newline : UInt8 := 10

def slash : UInt8 := 47

def dot : UInt8 := 46

/-- The bytes from `start` up to, not including, `stop`. -/
def slice (text : Bytes) (start stop : Nat) : Bytes :=
  (text.drop start).take (stop - start)

/-- What follows `head` in a text that starts with it. -/
def cutHead? (head text : Bytes) : Option Bytes :=
  if head.isPrefixOf text then some (text.drop head.length) else none

/-- What precedes `tail` in a text that ends with it. -/
def cutTail? (tail text : Bytes) : Option Bytes :=
  if tail.isSuffixOf text then some (text.take (text.length - tail.length)) else none

/-- Scan for `needle`, counting the bytes passed over. -/
def findFrom (needle : Bytes) (offset : Nat) : Bytes → Option Nat
  | [] => if needle.isEmpty then some offset else none
  | byte :: rest =>
      if needle.isPrefixOf (byte :: rest) then some offset
      else findFrom needle (offset + 1) rest

/-- The offset of the first occurrence of `needle`. -/
def find? (needle text : Bytes) : Option Nat :=
  findFrom needle 0 text

theorem length_le_of_findFrom {needle text : Bytes} {offset index : Nat}
    (found : findFrom needle offset text = some index) :
    index + needle.length ≤ offset + text.length := by
  induction text generalizing offset with
  | nil =>
      unfold findFrom at found
      split at found
      · next empty =>
          cases found
          simp [List.isEmpty_iff.mp empty]
      · cases found
  | cons byte rest induction =>
      unfold findFrom at found
      split at found
      · next occurs =>
          cases found
          have bound := (List.isPrefixOf_iff_prefix.mp occurs).length_le
          omega
      · have bound := induction found
        rw [List.length_cons]
        omega

/-- An occurrence lies in the text. -/
theorem length_le_of_find? {needle text : Bytes} {index : Nat}
    (found : find? needle text = some index) : index + needle.length ≤ text.length := by
  have bound := length_le_of_findFrom found
  omega

/-- `needle` occurs somewhere in `text`. -/
def contains (needle text : Bytes) : Bool :=
  (find? needle text).isSome

/-- Cut a text at the first occurrence of a byte, which belongs to neither part. -/
def cutAt? (separator : UInt8) (text : Bytes) : Option (Bytes × Bytes) :=
  match text.dropWhile (· != separator) with
  | [] => none
  | _ :: after => some (text.takeWhile (· != separator), after)

/-- Split a text at every occurrence of a byte; there is always one part more
than there are separators. -/
def splitOn (separator : UInt8) (text : Bytes) : List Bytes :=
  let (current, parts) :=
    text.foldr
      (fun byte (current, parts) =>
        if byte == separator then ([], current :: parts)
        else (byte :: current, parts))
      (([], []) : Bytes × List Bytes)
  current :: parts

/-- Put a separator between every two neighbouring parts. -/
def join (separator : Bytes) (parts : List Bytes) : Bytes :=
  (parts.intersperse separator).flatten

/-- Drop the longest tail whose bytes all satisfy `drop`. -/
def trimTail (drop : UInt8 → Bool) (text : Bytes) : Bytes :=
  (text.reverse.dropWhile drop).reverse

/-- Lexicographic comparison of byte texts. -/
def before (left right : Bytes) : Bool :=
  decide (left < right)

/-- Lexicographic comparison that also holds of equal texts. -/
def notAfter (left right : Bytes) : Bool :=
  !before right left

def sort (texts : List Bytes) : List Bytes :=
  texts.mergeSort notAfter

end Bytes

end Reroute
