import Reroute.Yaml.Source

/-!
# Places in a YAML text

A cursor is a place in a text.  It counts lines and columns, because indentation is what
gives a YAML text its structure, and it knows how much of the text has been read: a
scanner asks for as many characters as it wants to look at before it looks at them.

Behind the end of the text there is nothing to look at.  Asking for more there always
succeeds, one place at a time.
-/

namespace Reroute.Yaml

/-- A space or a tab. -/
def isBlank (character : Char) : Bool :=
  character == ' ' || character == '\t'

/-- A line break: line feed, carriage return, next line, or a Unicode separator. -/
def isBreak (character : Char) : Bool :=
  let code := character.toNat
  code == 0x0A || code == 0x0D || code == 0x85 || code == 0x2028 || code == 0x2029

/-- What a line break is read as: the separators stand for themselves and every other
break is a line feed. -/
def breakText (character : Char) : Char :=
  if character.toNat == 0x2028 || character.toNat == 0x2029 then character else '\n'

/-- A character of an anchor, a tag handle or a directive name. -/
def isNameCharacter (character : Char) : Bool :=
  character.isAlphanum || character == '_' || character == '-'

def byteOrderMark : Char := Char.ofNat 0xFEFF

/-- A place in a text.

`breaks` counts the line breaks since the last character that is not blank.  `loaded` is
the place up to which the text has been read, `pending` holds the ends of the blocks that
have not, and `readable` says whether there is nothing unreadable behind them.  `marked`
says that the block in memory starts with a byte order mark. -/
structure Cursor where
  rest : List Char
  index : Nat
  line : Nat
  column : Nat
  breaks : Nat
  size : Nat
  loaded : Nat
  pending : List Nat
  readable : Bool
  marked : Bool
  deriving Inhabited

namespace Cursor

/-- The places where blocks end. -/
def blockEnds (start : Nat) : List (List Char) → List Nat
  | [] => []
  | block :: blocks =>
      let stop := start + block.length
      stop :: blockEnds stop blocks

def start (source : Source) : Cursor :=
  let text := source.blocks.flatten
  { rest := text
    index := 0
    line := 0
    column := 0
    breaks := 0
    size := text.length
    loaded := 0
    pending := blockEnds 0 source.blocks
    readable := source.readable
    marked := false }

/-- A bound on the number of steps from here to the end of the text. -/
def fuel (cursor : Cursor) : Nat :=
  cursor.size - cursor.index + 2

/-- The character at the cursor; there is none at the end. -/
def peek (cursor : Cursor) : Option Char :=
  cursor.rest.head?

/-- The character some places after the cursor. -/
def peekAt (cursor : Cursor) (distance : Nat) : Option Char :=
  cursor.rest[distance]?

/-- The cursor stands before the given character. -/
def isAt (cursor : Cursor) (character : Char) : Bool :=
  cursor.peek == some character

/-- Read blocks until `count` characters are there. -/
def readMore (count : Nat) : List Nat → Cursor → Option Cursor
  | [], cursor =>
      if cursor.readable then some { cursor with loaded := cursor.loaded + 1, pending := [] }
      else none
  | stop :: later, cursor =>
      let cursor := { cursor with loaded := stop, pending := later }
      if cursor.index + count ≤ stop then some cursor else readMore count later cursor

/-- Make `count` characters available, unless that takes reading something unreadable.
What lies before the cursor is then forgotten. -/
def load (count : Nat) (cursor : Cursor) : Option Cursor :=
  if cursor.index + count ≤ cursor.loaded then some cursor
  else
    readMore count cursor.pending
      { cursor with marked := cursor.peek == some byteOrderMark }

/-- Pass over one character. -/
def skip (cursor : Cursor) : Cursor :=
  { cursor with
    rest := cursor.rest.drop 1
    index := cursor.index + 1
    column := cursor.column + 1
    breaks := if cursor.peek.any isBlank then cursor.breaks else 0 }

/-- Pass over some characters. -/
def skipMany : Nat → Cursor → Cursor
  | 0, cursor => cursor
  | count + 1, cursor => skipMany count cursor.skip

/-- Pass over a line break. -/
def skipLine (cursor : Cursor) : Cursor :=
  let after (rest : List Char) (width : Nat) : Cursor :=
    { cursor with
      rest := rest
      index := cursor.index + width
      line := cursor.line + 1
      column := 0
      breaks := cursor.breaks + 1 }
  match cursor.rest with
  | '\r' :: '\n' :: rest => after rest 2
  | character :: rest => if isBreak character then after rest 1 else cursor
  | [] => cursor

/-- What the line break at the cursor is read as; nothing at the end of the text. -/
def lineText (cursor : Cursor) : List Char :=
  match cursor.peek with
  | some character => if isBreak character then [breakText character] else []
  | none => []

/-- Pass over the characters that satisfy a test, reading on after each. -/
def skipRun (test : Char → Bool) : Nat → Cursor → Option Cursor
  | 0, cursor => some cursor
  | fuel + 1, cursor =>
      if cursor.peek.any test then
        match cursor.skip.load 1 with
        | none => none
        | some cursor => skipRun test fuel cursor
      else some cursor

/-- Pass over the characters that satisfy a test. -/
def skipWhile (test : Char → Bool) (cursor : Cursor) : Option Cursor :=
  match cursor.load 1 with
  | none => none
  | some cursor => skipRun test cursor.fuel cursor

/-- Take the characters that satisfy a test, latest first, in front of those already
taken. -/
def takeRun (test : Char → Bool) : Nat → List Char → Cursor → Option (List Char × Cursor)
  | 0, taken, cursor => some (taken, cursor)
  | fuel + 1, taken, cursor =>
      match cursor.peek with
      | none => some (taken, cursor)
      | some character =>
          if test character then
            match cursor.skip.load 1 with
            | none => none
            | some cursor => takeRun test fuel (character :: taken) cursor
          else some (taken, cursor)

/-- Take the characters that satisfy a test. -/
def takeWhile (test : Char → Bool) (cursor : Cursor) : Option (List Char × Cursor) := do
  let cursor ← cursor.load 1
  let (taken, cursor) ← takeRun test cursor.fuel [] cursor
  return (taken.reverse, cursor)

end Cursor

/-- Nothing, a blank or a line break: what separates words. -/
def endsWord : Option Char → Bool
  | none => true
  | some character => isBlank character || isBreak character

/-- The end of the text or of the line. -/
def endsLine : Option Char → Bool
  | none => true
  | some character => isBreak character

namespace Cursor

/-- A line made of three equal marks, which bounds a document. -/
def isAtMarker (cursor : Cursor) (mark : Char) : Bool :=
  cursor.column == 0 && cursor.peek == some mark && cursor.peekAt 1 == some mark
    && cursor.peekAt 2 == some mark && endsWord (cursor.peekAt 3)

/-- The cursor stands before a mark that starts or ends a document. -/
def isAtBoundary (cursor : Cursor) : Bool :=
  cursor.isAtMarker '-' || cursor.isAtMarker '.'

/-- Pass over the rest of the line. -/
def skipToBreak (cursor : Cursor) : Option Cursor :=
  cursor.skipWhile fun character => !isBreak character

/-- Pass over the line break at the cursor. -/
def passBreak (cursor : Cursor) : Option Cursor :=
  if cursor.peek.any isBreak then (cursor.load 2).map skipLine else some cursor

end Cursor

end Reroute.Yaml
