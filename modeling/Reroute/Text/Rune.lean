import Reroute.Bytes

/-!
# Reading bytes as UTF-8

A text is read as a sequence of runes.  A rune is a character, when the bytes at hand
are a shortest-form encoding of one, and otherwise a single stray byte.  Reading
therefore never fails, and it always consumes at least one byte.

Source maps measure columns in UTF-16 code units.  A character counts one or two of
them and a stray byte counts one.
-/

namespace Reroute

/-- One step of reading a text: a character, or a byte that belongs to none. -/
inductive Rune where
  | char (value : Char)
  | stray (byte : UInt8)
  deriving DecidableEq, Repr

namespace Rune

/-- The number of bytes a rune was read from. -/
def size : Rune → Nat
  | .char value => value.utf8Size
  | .stray _ => 1

/-- The bytes a rune was read from. -/
def bytes : Rune → Bytes
  | .char value => String.utf8EncodeChar value
  | .stray byte => [byte]

/-- The width of a rune in UTF-16 code units. -/
def units : Rune → Nat
  | .char value => if value.toNat < 0x10000 then 1 else 2
  | .stray _ => 1

/-- The character a rune is shown as: a stray byte becomes U+FFFD. -/
def shown : Rune → Char
  | .char value => value
  | .stray _ => Char.ofNat 0xFFFD

/-- The byte can only stand behind the first byte of a character. -/
def continues (byte : UInt8) : Bool :=
  0x80 ≤ byte.toNat && byte.toNat ≤ 0xBF

/-- The six payload bits of a continuation byte. -/
def payload (byte : UInt8) : Nat :=
  byte.toNat % 64

/-- The character that `first` starts, with the number of bytes of `rest` that
belong to it.  Overlong forms, surrogates and values past U+10FFFF start none. -/
def character? (first : UInt8) (rest : Bytes) : Option (Char × Nat) :=
  let lead := first.toNat
  if lead < 0x80 then some (Char.ofNat lead, 0)
  else if lead < 0xC2 then none
  else if lead < 0xE0 then
    match rest with
    | second :: _ =>
        if continues second then
          some (Char.ofNat (lead % 32 * 64 + payload second), 1)
        else none
    | _ => none
  else if lead < 0xF0 then
    match rest with
    | second :: third :: _ =>
        let least := if lead == 0xE0 then 0xA0 else 0x80
        let greatest := if lead == 0xED then 0x9F else 0xBF
        if least ≤ second.toNat && second.toNat ≤ greatest && continues third then
          some (Char.ofNat
            ((lead % 16 * 64 + payload second) * 64 + payload third), 2)
        else none
    | _ => none
  else if lead < 0xF5 then
    match rest with
    | second :: third :: fourth :: _ =>
        let least := if lead == 0xF0 then 0x90 else 0x80
        let greatest := if lead == 0xF4 then 0x8F else 0xBF
        if least ≤ second.toNat && second.toNat ≤ greatest
            && continues third && continues fourth then
          some (Char.ofNat
            (((lead % 8 * 64 + payload second) * 64 + payload third) * 64
              + payload fourth), 3)
        else none
    | _ => none
  else none

/-- The rune at the start of a text, and the text after it. -/
def next (first : UInt8) (rest : Bytes) : Rune × Bytes :=
  match character? first rest with
  | some (value, width) => (.char value, rest.drop width)
  | none => (.stray first, rest)

/-- Reading a rune leaves a text no longer than what followed its first byte. -/
theorem next_length_le (first : UInt8) (rest : Bytes) :
    (next first rest).2.length ≤ rest.length := by
  unfold next
  split <;> simp

/-- Read the runes of a text in front of those already read, latest first. -/
def readAll (text : Bytes) (done : List Rune) : List Rune :=
  match text with
  | [] => done.reverse
  | first :: rest => readAll (next first rest).2 ((next first rest).1 :: done)
termination_by text.length
decreasing_by
  have := next_length_le first rest
  simp only [List.length_cons]
  omega

end Rune

namespace Bytes

/-- The runes of a text, in order. -/
def runes (text : Bytes) : List Rune :=
  Rune.readAll text []

/-- The length of a text in UTF-16 code units. -/
def utf16Length (text : Bytes) : Nat :=
  (runes text).foldl (fun total rune => total + rune.units) 0

/-- The characters of a text, with U+FFFD in place of every stray byte. -/
def chars (text : Bytes) : List Char :=
  (runes text).map Rune.shown

/-- Every byte of the text belongs to a character. -/
def validUtf8 (text : Bytes) : Bool :=
  (runes text).all fun
    | .char _ => true
    | .stray _ => false

/-- The UTF-8 encoding of a list of characters. -/
def ofChars (characters : List Char) : Bytes :=
  characters.flatMap String.utf8EncodeChar

end Bytes

end Reroute
