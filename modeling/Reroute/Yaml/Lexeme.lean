import Reroute.Text.Numeral
import Reroute.Text.Rune
import Reroute.Yaml.Cursor

/-!
# Lexemes

The parts of a YAML text that carry a value: plain, quoted and block scalars, anchors,
tags and directives.  Each reader starts at the first character of its lexeme and gives
the value with the cursor after it, or nothing when the lexeme is malformed or cannot be
read.

Scalars are folded as they are read.  A single line break between words becomes a space,
and of several line breaks the first is dropped.
-/

namespace Reroute.Yaml

/-- What separates two words of a scalar: blanks on one line, or line breaks. -/
structure Gap where
  blanks : List Char
  broken : Bool
  first : List Char
  later : List Char
  deriving Inhabited

namespace Gap

/-- No separation. -/
def empty : Gap :=
  ⟨[], false, [], []⟩

/-- The text a gap is folded to. -/
def text (gap : Gap) : List Char :=
  if gap.broken then
    if gap.first == ['\n'] then
      if gap.later.isEmpty then [' '] else gap.later
    else gap.first ++ gap.later
  else gap.blanks

/-- Read a gap.  After a line break, a tab in a column below `least` is refused. -/
def scan (least : Nat) : Nat → Gap → Cursor → Option (Gap × Cursor)
  | 0, gap, cursor => some (gap, cursor)
  | fuel + 1, gap, cursor =>
      match cursor.peek with
      | none => some (gap, cursor)
      | some character =>
          if isBlank character then
            if gap.broken && character == '\t' && cursor.column < least then none
            else
              let gap :=
                if gap.broken then gap
                else { gap with blanks := gap.blanks ++ [character] }
              match cursor.skip.load 1 with
              | none => none
              | some cursor => scan least fuel gap cursor
          else if isBreak character then
            let gap :=
              if gap.broken then { gap with later := gap.later ++ cursor.lineText }
              else { gap with blanks := [], first := cursor.lineText, broken := true }
            match cursor.passBreak.bind (Cursor.load 1) with
            | none => none
            | some cursor => scan least fuel gap cursor
          else some (gap, cursor)

end Gap

/-- A plain scalar: its text, the cursor after it and the blanks that follow it, and
whether those contain a line break. -/
structure Plain where
  text : List Char
  after : Cursor
  broken : Bool

namespace Plain

/-- The character ends a plain scalar, given the one after it. -/
def isEnd (inFlow : Bool) (character : Char) (next : Option Char) : Bool :=
  (character == ':' && endsWord next)
    || (inFlow && [',', '?', '[', ']', '{', '}'].contains character)

/-- Read the characters of one word, latest first, in front of those already read. -/
def scanWord (inFlow : Bool) : Nat → List Char → Cursor → Option (List Char × Cursor)
  | 0, taken, cursor => some (taken, cursor)
  | fuel + 1, taken, cursor =>
      match cursor.peek with
      | none => some (taken, cursor)
      | some character =>
          if endsWord (some character) || isEnd inFlow character (cursor.peekAt 1) then
            some (taken, cursor)
          else
            match cursor.skip.load 2 with
            | none => none
            | some cursor => scanWord inFlow fuel (character :: taken) cursor

/-- Read the words of a plain scalar that is indented by at least `least` columns; its
text is collected latest character first. -/
def scanWords (inFlow : Bool) (least : Nat) : Nat → Plain → Gap → Option Plain
  | 0, plain, _ => some plain
  | fuel + 1, plain, gap => do
      let cursor ← plain.after.load 4
      if cursor.isAtBoundary || cursor.isAt '#' then some { plain with after := cursor }
      else
        let (taken, after) ← scanWord inFlow cursor.fuel [] cursor
        let plain :=
          if taken.isEmpty then { plain with after := after }
          else ⟨taken ++ (gap.text.reverse ++ plain.text), after, false⟩
        if after.peek.isNone || !endsWord after.peek then some plain
        else
          let cursor ← after.load 1
          let (gap, cursor) ← Gap.scan least cursor.fuel .empty cursor
          let plain := { plain with after := cursor, broken := gap.broken }
          if !inFlow && cursor.column < least then some plain
          else scanWords inFlow least fuel plain gap

/-- Read a plain scalar. -/
def scan (inFlow : Bool) (least : Nat) (cursor : Cursor) : Option Plain :=
  (scanWords inFlow least cursor.fuel ⟨[], cursor, false⟩ .empty).map fun plain =>
    { plain with text := plain.text.reverse }

end Plain

namespace Quote

/-- The character that a one-letter escape stands for. -/
def escaped? (letter : Char) : Option Char :=
  match letter with
  | '0' => some (Char.ofNat 0)
  | 'a' => some (Char.ofNat 7)
  | 'b' => some (Char.ofNat 8)
  | 't' => some '\t'
  | '\t' => some '\t'
  | 'n' => some '\n'
  | 'v' => some (Char.ofNat 11)
  | 'f' => some (Char.ofNat 12)
  | 'r' => some '\r'
  | 'e' => some (Char.ofNat 27)
  | ' ' => some ' '
  | '"' => some '"'
  | '\'' => some '\''
  | '\\' => some '\\'
  | 'N' => some (Char.ofNat 0x85)
  | '_' => some (Char.ofNat 0xA0)
  | 'L' => some (Char.ofNat 0x2028)
  | 'P' => some (Char.ofNat 0x2029)
  | _ => none

/-- The number of hexadecimal digits after the letter of a numeric escape. -/
def escapeWidth? (letter : Char) : Option Nat :=
  match letter with
  | 'x' => some 2
  | 'u' => some 4
  | 'U' => some 8
  | _ => none

/-- The value of hexadecimal digits. -/
def hexadecimal? (digits : List Char) : Option Nat :=
  digits.foldl
    (fun total character =>
      match total, Numeral.hexDigit? character.toNat.toUInt8 with
      | some total, some value =>
          if character.toNat < 128 then some (total * 16 + value) else none
      | _, _ => none)
    (some 0)

/-- The character an escape of the given width stands for. -/
def numbered? (width : Nat) (digits : List Char) : Option Char :=
  if digits.length < width then none
  else
    match hexadecimal? digits with
    | none => none
    | some code =>
        if (0xD800 ≤ code && code ≤ 0xDFFF) || 0x10FFFF < code then none
        else some (Char.ofNat code)

/-- Read an escape sequence after its backslash, with the characters it needs. -/
def scanEscape (letter : Char) (cursor : Cursor) : Option (Char × Cursor) :=
  let after := cursor.skipMany 2
  match escaped? letter, escapeWidth? letter with
  | some value, _ => some (value, after)
  | none, some width => do
      let after ← after.load width
      let value ← numbered? width (after.rest.take width)
      return (value, after.skipMany width)
  | none, none => none

/-- Read the characters of one word.  The last part of the result says that the word
ended with an escaped line break. -/
def scanWord (quote : Char) : Nat → List Char → Cursor → Option (List Char × Cursor × Bool)
  | 0, text, cursor => some (text, cursor, false)
  | fuel + 1, text, cursor =>
      match cursor.rest with
      | [] => some (text, cursor, false)
      | character :: rest =>
          let continueWith (text : List Char) (cursor : Cursor) :=
            match cursor.load 2 with
            | none => none
            | some cursor => scanWord quote fuel text cursor
          if endsWord (some character) then some (text, cursor, false)
          else if character == quote then
            if quote == '\'' && rest.head? == some quote then
              continueWith (quote :: text) (cursor.skipMany 2)
            else some (text, cursor, false)
          else if quote == '"' && character == '\\' then
            match rest with
            | [] => none
            | letter :: _ =>
                if isBreak letter then
                  (cursor.load 3).map fun cursor => (text, cursor.skip.skipLine, true)
                else
                  match scanEscape letter cursor with
                  | none => none
                  | some (value, cursor) => continueWith (value :: text) cursor
          else continueWith (character :: text) cursor.skip

/-- Read the words of a quoted scalar, latest character first. -/
def scanWords (quote : Char) : Nat → List Char → Cursor → Option (List Char × Cursor)
  | 0, _, _ => none
  | fuel + 1, text, cursor => do
      let cursor ← cursor.load 4
      if cursor.isAtBoundary || cursor.rest.isEmpty then none
      else
        let (text, cursor, escapedBreak) ← scanWord quote cursor.fuel text cursor
        let cursor ← cursor.load 1
        if cursor.isAt quote then some (text, cursor.skip)
        else
          let (gap, cursor) ←
            Gap.scan 0 cursor.fuel { Gap.empty with broken := escapedBreak } cursor
          scanWords quote fuel (gap.text.reverse ++ text) cursor

/-- Read a scalar in single or double quotes. -/
def scan (quote : Char) (cursor : Cursor) : Option (List Char × Cursor) :=
  (scanWords quote cursor.fuel [] cursor.skip).map fun (text, after) =>
    (text.reverse, after)

end Quote

namespace Block

/-- What happens to the line breaks at the end of a block scalar. -/
inductive Chomping where
  | strip
  | clip
  | keep
  deriving DecidableEq

/-- The chomping indicator at the cursor. -/
def chomping? (cursor : Cursor) : Option Chomping :=
  match cursor.peek with
  | some '+' => some .keep
  | some '-' => some .strip
  | _ => none

/-- The indentation indicator at the cursor, if there is one. -/
def indicator? (cursor : Cursor) : Option Nat :=
  match cursor.peek with
  | some character => if character.isDigit then some (character.toNat - 48) else none
  | none => none

/-- Read the indicators after the mark of a block scalar, in either order. -/
def scanHeader (cursor : Cursor) : Option (Chomping × Option Nat × Cursor) := do
  let cursor ← cursor.load 1
  match chomping? cursor with
  | some chomping =>
      let cursor ← cursor.skip.load 1
      match indicator? cursor with
      | some digit => return (chomping, some digit, cursor.skip)
      | none => return (chomping, none, cursor)
  | none =>
      match indicator? cursor with
      | some digit =>
          let cursor ← cursor.skip.load 1
          match chomping? cursor with
          | some chomping => return (chomping, some digit, cursor.skip)
          | none => return (.clip, some digit, cursor)
      | none => return (.clip, none, cursor)

/-- The column still belongs to the indentation, which need not be known yet. -/
def isIndenting (indent : Option Nat) (column : Nat) : Bool :=
  match indent with
  | none => true
  | some indent => column < indent

/-- Pass over the spaces of the indentation. -/
def skipIndent (indent : Option Nat) : Nat → Cursor → Option Cursor
  | 0, cursor => some cursor
  | fuel + 1, cursor =>
      if isIndenting indent cursor.column && cursor.isAt ' ' then
        match cursor.skip.load 1 with
        | none => none
        | some cursor => skipIndent indent fuel cursor
      else some cursor

/-- Pass over indentation and empty lines.  An indentation that is not known yet is that
of the deepest of these lines, the first one with content included. -/
def scanBreaks (indent : Option Nat) :
    Nat → Nat → List Char → Cursor → Option (Nat × List Char × Cursor)
  | 0, deepest, breaks, cursor => some (deepest, breaks, cursor)
  | fuel + 1, deepest, breaks, cursor => do
      let cursor ← cursor.load 1
      let cursor ← skipIndent indent cursor.fuel cursor
      let deepest := max deepest cursor.column
      if isIndenting indent cursor.column && cursor.isAt '\t' then none
      else if !cursor.peek.any isBreak then some (deepest, breaks, cursor)
      else
        let text := cursor.lineText
        let cursor ← cursor.passBreak
        scanBreaks indent fuel deepest (breaks ++ text) cursor

/-- A block scalar while it is read: its text, latest character first, the break after
its last line, the breaks of the empty lines that follow, and whether the last line
started with a blank. -/
structure Body where
  text : List Char
  first : List Char
  later : List Char
  wasBlank : Bool

/-- Read the lines of a block scalar that are indented by `indent` columns. -/
def scanLines (literal : Bool) (indent : Nat) : Nat → Body → Cursor → Option (Body × Cursor)
  | 0, body, cursor => some (body, cursor)
  | fuel + 1, body, cursor => do
      match cursor.peek with
      | none => return (body, cursor)
      | some character =>
          if cursor.column != indent then return (body, cursor)
          else
            let startsBlank := isBlank character
            let joint :=
              if !literal && !body.wasBlank && !startsBlank && body.first == ['\n'] then
                if body.later.isEmpty then [' '] else []
              else body.first
            let text := body.later.reverse ++ (joint.reverse ++ body.text)
            let (text, cursor) ←
              Cursor.takeRun (fun character => !isBreak character) cursor.fuel text cursor
            let cursor ← cursor.load 2
            let first := cursor.lineText
            let cursor := cursor.skipLine
            let (_, later, cursor) ← scanBreaks (some indent) cursor.fuel 0 [] cursor
            scanLines literal indent fuel ⟨text, first, later, startsBlank⟩ cursor

/-- Read a block scalar inside an indentation, which is -1 at the top. -/
def scan (literal : Bool) (parent : Int) (cursor : Cursor) :
    Option (List Char × Cursor) := do
  let (chomping, indicator, cursor) ← scanHeader cursor.skip
  if indicator == some 0 then none
  else
    let cursor ← cursor.skipWhile isBlank
    let cursor ← if cursor.isAt '#' then cursor.skipToBreak else pure cursor
    if !endsLine cursor.peek then none
    else
      let cursor ← cursor.passBreak
      let given := indicator.map fun digit => parent.toNat + digit
      let (deepest, later, cursor) ← scanBreaks given cursor.fuel 0 [] cursor
      let indent := given.getD (max (max deepest (parent + 1).toNat) 1)
      let cursor ← cursor.load 1
      let (body, cursor) ← scanLines literal indent cursor.fuel ⟨[], [], later, false⟩ cursor
      let tail :=
        match chomping with
        | .strip => []
        | .clip => body.first
        | .keep => body.first ++ body.later
      return (body.text.reverse ++ tail, cursor)

end Block

/-- Read the name of an anchor or an alias after its mark. -/
def scanAnchor (cursor : Cursor) : Option (List Char × Cursor) := do
  let (name, after) ← cursor.skip.takeWhile isNameCharacter
  let ended :=
    match after.peek with
    | none => true
    | some character =>
        endsWord (some character)
          || ['?', ':', ',', ']', '}', '%', '@', Char.ofNat 0x60].contains character
  if name.isEmpty || !ended then none else return (name, after)

namespace Tag

/-- The character may stand in a tag. -/
def isUriCharacter (character : Char) : Bool :=
  isNameCharacter character
    || [';', '/', '?', ':', '@', '&', '=', '+', '$', '.', ',', '!', '~', '*', '\'', '(',
        ')', '[', ']'].contains character

/-- Read one byte that is written as a percent sign and two hexadecimal digits. -/
def scanOctet (cursor : Cursor) : Option (UInt8 × Cursor) := do
  let cursor ← cursor.load 3
  let digits := (cursor.rest.drop 1).take 2
  let value ← Quote.hexadecimal? digits
  if cursor.isAt '%' && digits.length == 2 then
    return (value.toUInt8, cursor.skipMany 3)
  else none

/-- Read the bytes that continue a character, latest first. -/
def scanContinuation : Nat → Bytes → Cursor → Option (Bytes × Cursor)
  | 0, text, cursor => some (text, cursor)
  | count + 1, text, cursor => do
      let (octet, cursor) ← scanOctet cursor
      if isContinuation octet then scanContinuation count (octet :: text) cursor else none

/-- Read the escapes of one character.  Its first byte says how many more it takes. -/
def scanEscapes (text : Bytes) (cursor : Cursor) : Option (Bytes × Cursor) := do
  let (lead, cursor) ← scanOctet cursor
  match leadWidth lead with
  | 0 => none
  | width + 1 => scanContinuation width (lead :: text) cursor

/-- Read the characters of a tag as bytes, latest first. -/
def scanUri : Nat → Bytes → Cursor → Option (Bytes × Cursor)
  | 0, text, cursor => some (text, cursor)
  | fuel + 1, text, cursor => do
      match cursor.peek with
      | none => return (text, cursor)
      | some character =>
          if character == '%' then
            let (text, cursor) ← scanEscapes text cursor
            scanUri fuel text (← cursor.load 1)
          else if isUriCharacter character then
            scanUri fuel ((String.utf8EncodeChar character).reverse ++ text)
              (← cursor.skip.load 1)
          else return (text, cursor)

/-- Read a tag whose text so far is `head`; it may not stay empty if something is
required. -/
def scanSuffix (head : Bytes) (required : Bool) (cursor : Cursor) :
    Option (Bytes × Cursor) := do
  let cursor ← cursor.load 1
  let (text, after) ← scanUri cursor.fuel head.reverse cursor
  if required && text.isEmpty then none else return (text.reverse, after)

/-- Read a tag handle.  The last part of the result says that it is closed by a second
exclamation mark. -/
def scanHandle (cursor : Cursor) : Option (List Char × Bool × Cursor) := do
  let cursor ← cursor.load 1
  if cursor.isAt '!' then
    let (name, after) ← cursor.skip.takeWhile isNameCharacter
    if after.isAt '!' then return (name, true, after.skip) else return (name, false, after)
  else none

/-- Read a tag: its handle, which may be empty, and what follows the handle. -/
def scan (cursor : Cursor) : Option (Bytes × Bytes × Cursor) := do
  let cursor ← cursor.load 2
  let (handle, suffix, after) ←
    if cursor.peekAt 1 == some '<' then do
      let (suffix, after) ← scanSuffix [] true (cursor.skipMany 2)
      if after.isAt '>' then pure (([] : Bytes), suffix, after.skip) else none
    else do
      let (name, closed, after) ← scanHandle cursor
      if closed then
        let (suffix, after) ← scanSuffix [] true after
        pure (Bytes.ofChars ('!' :: name ++ ['!']), suffix, after)
      else
        let (suffix, after) ← scanSuffix (Bytes.ofChars name) false after
        if suffix.isEmpty then pure (([] : Bytes), utf8 "!", after)
        else pure (utf8 "!", suffix, after)
  let after ← after.load 1
  if endsWord after.peek then return (handle, suffix, after) else none

end Tag

/-- A directive: the version of the language, or what a tag handle stands for. -/
inductive Directive where
  | version (major minor : Nat)
  | tagHandle (handle expansion : Bytes)
  deriving DecidableEq

namespace Directive

/-- Read a number of at most two digits. -/
def scanNumber (cursor : Cursor) : Option (Nat × Cursor) := do
  let (digits, after) ← cursor.takeWhile Char.isDigit
  if digits.isEmpty || 2 < digits.length then none
  else
    let value := digits.foldl (fun total character => total * 10 + (character.toNat - 48)) 0
    return (value, after)

/-- Read the number after `%YAML`. -/
def scanVersion (cursor : Cursor) : Option (Directive × Cursor) := do
  let cursor ← cursor.skipWhile isBlank
  let (major, cursor) ← scanNumber cursor
  if cursor.isAt '.' then
    let (minor, cursor) ← scanNumber cursor.skip
    return (.version major minor, cursor)
  else none

/-- Read the handle and its expansion after `%TAG`. -/
def scanTagHandle (cursor : Cursor) : Option (Directive × Cursor) := do
  let cursor ← cursor.skipWhile isBlank
  let (name, closed, cursor) ← Tag.scanHandle cursor
  if !closed && !name.isEmpty then none
  else
    let handle := if closed then Bytes.ofChars ('!' :: name ++ ['!']) else utf8 "!"
    let cursor ← cursor.load 1
    if !cursor.peek.any isBlank then none
    else
      let cursor ← cursor.skipWhile isBlank
      let (expansion, cursor) ← Tag.scanSuffix [] true cursor
      let cursor ← cursor.load 1
      if endsWord cursor.peek then return (.tagHandle handle expansion, cursor) else none

/-- Read a directive and the line break after it. -/
def scan (cursor : Cursor) : Option (Directive × Cursor) := do
  let (name, after) ← cursor.skip.takeWhile isNameCharacter
  if name.isEmpty || !endsWord after.peek then none
  else
    let (directive, cursor) ←
      if name == ['Y', 'A', 'M', 'L'] then scanVersion after
      else if name == ['T', 'A', 'G'] then scanTagHandle after
      else none
    let cursor ← cursor.skipWhile isBlank
    let cursor ← if cursor.isAt '#' then cursor.skipToBreak else pure cursor
    if endsLine cursor.peek then return (directive, ← cursor.passBreak) else none

end Directive

end Reroute.Yaml
