import Reroute.Yaml.Lexeme

/-!
# Tokens

A YAML text is cut into tokens.  Indentation becomes explicit: a block collection has a
token where it starts and one where it ends.  A mapping key is recognised only when its
colon is reached, so the tokens that open a mapping are put in front of a key that is
already there.

Tokens are fetched one after the other, as they are needed.  Two tokens are always looked
ahead, and a token that may turn out to be a key is not used before that is settled.
Where a flow collection is left in which no key was possible, the token that opens it is
no longer waited for; a colon behind it then comes too late.
-/

namespace Reroute.Yaml

/-- A token of a YAML text. -/
inductive Token where
  | streamEnd
  | documentStart
  | documentEnd
  | directive (directive : Directive)
  | blockSequenceStart
  | blockMappingStart
  | blockEnd
  | flowSequenceStart
  | flowSequenceEnd
  | flowMappingStart
  | flowMappingEnd
  | blockEntry
  | flowEntry
  | key
  | value
  | alias (name : Bytes)
  | anchor (name : Bytes)
  | tag (handle suffix : Bytes)
  | scalar (plain : Bool) (text : Bytes)
  deriving DecidableEq, Inhabited

/-- A token that becomes a key if a colon follows on the same line. -/
structure PendingKey where
  possible : Bool
  required : Bool
  token : Nat
  index : Nat
  line : Nat
  column : Nat
  deriving Inhabited

/-- The longest distance, in characters, between the start of a key and its colon. -/
def longestKey : Nat := 1024

def deepestNesting : Nat := 10000

/-- The key can still be completed at the cursor. -/
def PendingKey.isOpen (key : PendingKey) (cursor : Cursor) : Bool :=
  cursor.line ≤ key.line && cursor.index ≤ key.index + longestKey

/-- A text that has been cut up to a cursor.

Tokens are numbered in order: `used` of them have been taken, and `queue` holds those that
have been fetched since.  `keys` has the last possible key of the block level and one for
each open flow collection, innermost last.  `awaited` lists the numbers of the tokens that
may be keys, each with its place in `keys`. -/
structure Lexer where
  cursor : Cursor
  used : Nat
  queue : List Token
  indent : Int
  indents : List Int
  keyAllowed : Bool
  keys : Array PendingKey
  awaited : List (Nat × Nat)
  deriving Inhabited

namespace Lexer

def noKey : PendingKey :=
  ⟨false, false, 0, 0, 0, 0⟩

/-- Before the first token. -/
def start (source : Source) : Lexer :=
  ⟨.start source, 0, [], -1, [], true, #[noKey], []⟩

/-- The cursor is inside a flow collection. -/
def inFlow (lexer : Lexer) : Bool :=
  1 < lexer.keys.size

/-- The last possible key of this level. -/
def key (lexer : Lexer) : PendingKey :=
  lexer.keys.back?.getD noKey

/-- Replace the last possible key of this level. -/
def setKey (key : PendingKey) (lexer : Lexer) : Lexer :=
  { lexer with keys := lexer.keys.pop.push key }

/-- The number of the next token to be fetched. -/
def nextNumber (lexer : Lexer) : Nat :=
  lexer.used + lexer.queue.length

def emit (token : Token) (lexer : Lexer) : Lexer :=
  { lexer with queue := lexer.queue ++ [token] }

/-- Give a token the number of one that is there, which moves on by one.  If that one has
already been taken, the token comes last. -/
def emitAt (number : Nat) (token : Token) (lexer : Lexer) : Lexer :=
  if lexer.used ≤ number then
    { lexer with queue := lexer.queue.insertIdx (number - lexer.used) token }
  else lexer.emit token

def moveTo (lexer : Lexer) (cursor : Cursor) : Lexer :=
  { lexer with cursor := cursor }

/-- Stop waiting for a token to become a key. -/
def forget (token : Nat) (lexer : Lexer) : Lexer :=
  { lexer with awaited := lexer.awaited.filter fun entry => entry.1 != token }

/-- Leave every block collection that is indented deeper than a column. -/
def closeBlocks (column : Int) : List Int → Lexer → Lexer
  | [], lexer => lexer
  | outer :: indents, lexer =>
      if column < lexer.indent then
        closeBlocks column indents
          { lexer with
            queue := lexer.queue ++ [.blockEnd], indent := outer, indents := indents }
      else lexer

/-- Leave the block collections that a token in the given column does not belong to. -/
def unindent (column : Int) (lexer : Lexer) : Lexer :=
  if lexer.inFlow then lexer else closeBlocks column lexer.indents lexer

/-- Start a block collection if the column is deeper than the current indentation.  Its
opening token gets the given number. -/
def indentTo (column number : Nat) (token : Token) (lexer : Lexer) : Option Lexer :=
  if !lexer.inFlow && lexer.indent < (column : Int) then
    if deepestNesting ≤ lexer.indents.length then none
    else
      some
        (emitAt number token
          { lexer with indent := column, indents := lexer.indent :: lexer.indents })
  else some lexer

/-- Give up the possible key of this level; a required one cannot be given up. -/
def dropKey (lexer : Lexer) : Option Lexer :=
  let key := lexer.key
  if key.possible then
    if key.required then none
    else some ((lexer.setKey { key with possible := false }).forget key.token)
  else some lexer

/-- Note that the next token may become a key, where that is allowed. -/
def saveKey (lexer : Lexer) : Option Lexer :=
  if lexer.keyAllowed then
    lexer.dropKey.map fun lexer =>
      let token := lexer.nextNumber
      let saved :=
        lexer.setKey
          { possible := true
            required := !lexer.inFlow && lexer.indent == (lexer.cursor.column : Int)
            token := token
            index := lexer.cursor.index
            line := lexer.cursor.line
            column := lexer.cursor.column }
      { saved.forget token with
        awaited := (token, lexer.keys.size - 1) :: (saved.forget token).awaited }
  else some lexer

/-- Allow or forbid keys at the next token. -/
def allowKeys (allowed : Bool) (lexer : Lexer) : Lexer :=
  { lexer with keyAllowed := allowed }

/-- How far ahead comments are looked for. -/
def commentReach : Nat := 512

/-- A line feed or a carriage return. -/
def isNarrowBreak (character : Char) : Bool :=
  character == '\n' || character == '\r'

/-- The distance to the next comment, if only blanks and narrow line breaks come first.
Other line breaks are not looked past, but the place after them is read. -/
def commentAhead : Nat → Nat → Cursor → Option (Option Nat × Cursor)
  | 0, _, cursor => some (none, cursor)
  | count + 1, distance, cursor => do
      let cursor ← cursor.load (distance + 1)
      match cursor.peekAt distance with
      | none => return (none, cursor)
      | some character =>
          if isBlank character || isNarrowBreak character then
            commentAhead count (distance + 1) cursor
          else if isBreak character then
            return (none, ← if count = 0 then pure cursor else cursor.load (distance + 2))
          else if character == '#' then return (some distance, cursor)
          else return (none, cursor)

/-- Pass over blanks and line breaks up to a place. -/
def skipGap (place : Nat) : Nat → Cursor → Option Cursor
  | 0, cursor => some cursor
  | fuel + 1, cursor => do
      let cursor ← cursor.load 1
      if place ≤ cursor.index then return cursor
      else if endsLine cursor.peek then skipGap place fuel (← cursor.load 2).skipLine
      else skipGap place fuel cursor.skip

/-- Pass over the comments that start at some distance from the cursor or follow each
other with nothing between them. -/
def skipComments : Nat → Nat → Cursor → Option Cursor
  | 0, _, cursor => some cursor
  | fuel + 1, distance, cursor => do
      let (found, cursor) ← commentAhead (commentReach - distance) distance cursor
      match found with
      | none => return cursor
      | some distance =>
          let cursor ← skipGap (cursor.index + distance) (distance + 1) cursor
          let cursor ← cursor.skipToBreak
          if cursor.peek.all isNarrowBreak then skipComments fuel 1 cursor
          else cursor.load 2

/-- Pass over blanks, comments and line breaks.  In block context a tab is not a blank
where a key may start, and a line break makes keys possible.  While the text in memory
starts with a byte order mark, the first character of every line is taken for one. -/
def skipToToken : Nat → Lexer → Option Lexer
  | 0, lexer => some lexer
  | fuel + 1, lexer => do
      let cursor ← lexer.cursor.load 1
      let cursor := if cursor.column == 0 && cursor.marked then cursor.skip else cursor
      let cursor ← cursor.skipWhile fun character =>
        character == ' '
          || ((lexer.inFlow || !lexer.keyAllowed) && character == '\t')
      let cursor ←
        if cursor.isAt '#' then skipComments cursor.fuel 0 cursor
        else pure cursor
      if cursor.peek.any isBreak then
        skipToToken fuel
          { lexer with
            cursor := ← cursor.passBreak
            keyAllowed := lexer.keyAllowed || !lexer.inFlow }
      else return lexer.moveTo cursor

/-- The distance to a comment on this line. -/
def lineCommentAhead : Nat → Nat → Cursor → Option (Bool × Cursor)
  | 0, _, cursor => some (false, cursor)
  | count + 1, distance, cursor => do
      let cursor ← cursor.load (distance + 1)
      match cursor.peekAt distance with
      | none => return (false, cursor)
      | some character =>
          if isBlank character then lineCommentAhead count (distance + 1) cursor
          else return (character == '#', cursor)

/-- Pass over a comment on the line of the token before it. -/
def skipLineComment (lexer : Lexer) : Option Lexer :=
  if 0 < lexer.cursor.breaks || lexer.queue.getLast? == some .blockEntry then some lexer
  else do
    let (found, cursor) ← lineCommentAhead commentReach 0 lexer.cursor
    if found then return lexer.moveTo (← cursor.skipToBreak) else return lexer.moveTo cursor

/-- Append a token of one character. -/
def emitMark (token : Token) (lexer : Lexer) : Lexer :=
  (lexer.emit token).moveTo lexer.cursor.skip

/-- The end of the text, which also ends its last line. -/
def fetchEnd (lexer : Lexer) : Option Lexer :=
  let cursor := lexer.cursor
  let cursor :=
    if cursor.column == 0 then cursor
    else { cursor with column := 0, line := cursor.line + 1 }
  (((lexer.moveTo cursor).unindent (-1)).dropKey).map fun lexer =>
    (lexer.allowKeys false).emit .streamEnd

def fetchDirective (lexer : Lexer) : Option Lexer := do
  let lexer ← (lexer.unindent (-1)).dropKey
  let (directive, cursor) ← Directive.scan lexer.cursor
  return ((lexer.allowKeys false).emit (.directive directive)).moveTo cursor

/-- A mark that starts or ends a document. -/
def fetchBoundary (token : Token) (lexer : Lexer) : Option Lexer := do
  let lexer ← (lexer.unindent (-1)).dropKey
  return ((lexer.allowKeys false).emit token).moveTo (lexer.cursor.skipMany 3)

def fetchFlowStart (token : Token) (lexer : Lexer) : Option Lexer := do
  let lexer ← lexer.saveKey
  let inner :=
    { lexer with keys := lexer.keys.push { noKey with token := lexer.nextNumber } }
  if deepestNesting < inner.keys.size - 1 then none
  else return (inner.allowKeys true).emitMark token

def fetchFlowEnd (token : Token) (lexer : Lexer) : Option Lexer := do
  let lexer ← lexer.dropKey
  let lexer :=
    if lexer.inFlow then
      { lexer.forget lexer.key.token with keys := lexer.keys.pop }
    else lexer
  return (lexer.allowKeys false).emitMark token

/-- The comma between the items of a flow collection. -/
def fetchFlowEntry (lexer : Lexer) : Option Lexer :=
  lexer.dropKey.map fun lexer => (lexer.allowKeys true).emitMark .flowEntry

/-- Open a block collection at the cursor, where that is allowed. -/
def openBlock (token : Token) (lexer : Lexer) : Option Lexer :=
  if lexer.inFlow then some lexer
  else if lexer.keyAllowed then
    lexer.indentTo lexer.cursor.column lexer.nextNumber token
  else none

/-- The mark before an item of a block sequence. -/
def fetchBlockEntry (lexer : Lexer) : Option Lexer := do
  let lexer ← lexer.openBlock .blockSequenceStart
  let lexer ← lexer.dropKey
  return (lexer.allowKeys true).emitMark .blockEntry

/-- The mark before a key. -/
def fetchKey (lexer : Lexer) : Option Lexer := do
  let lexer ← lexer.openBlock .blockMappingStart
  let lexer ← lexer.dropKey
  return (lexer.allowKeys (!lexer.inFlow)).emitMark .key

/-- The key can be completed here.  One that no longer can is given up, without being
forgotten; a required one cannot be given up. -/
def settle (place : Nat) (lexer : Lexer) : Option (Bool × Lexer) :=
  match lexer.keys[place]? with
  | none => some (false, lexer)
  | some key =>
      if !key.possible then some (false, lexer)
      else if key.isOpen lexer.cursor then some (true, lexer)
      else if key.required then none
      else
        some
          (false,
            { lexer with keys := lexer.keys.setIfInBounds place { key with possible := false } })

/-- The mark before a value.  It completes the possible key, if there is one. -/
def fetchValue (lexer : Lexer) : Option Lexer := do
  let (completes, lexer) ← lexer.settle (lexer.keys.size - 1)
  if completes then
    let key := lexer.key
    let opened ←
      (lexer.emitAt key.token .key).indentTo key.column key.token .blockMappingStart
    let lexer := (opened.setKey { key with possible := false }).forget key.token
    return (lexer.allowKeys false).emitMark .value
  else
    let lexer ← lexer.openBlock .blockMappingStart
    return (lexer.allowKeys (!lexer.inFlow)).emitMark .value

/-- An anchor or an alias. -/
def fetchName (token : Bytes → Token) (lexer : Lexer) : Option Lexer := do
  let lexer ← lexer.saveKey
  let (name, cursor) ← scanAnchor lexer.cursor
  return ((lexer.allowKeys false).emit (token (Bytes.ofChars name))).moveTo cursor

def fetchTag (lexer : Lexer) : Option Lexer := do
  let lexer ← lexer.saveKey
  let (handle, suffix, cursor) ← Tag.scan lexer.cursor
  return ((lexer.allowKeys false).emit (.tag handle suffix)).moveTo cursor

def fetchBlockScalar (literal : Bool) (lexer : Lexer) : Option Lexer := do
  let lexer ← lexer.dropKey
  let (text, cursor) ← Block.scan literal lexer.indent lexer.cursor
  return ((lexer.allowKeys true).emit (.scalar false (Bytes.ofChars text))).moveTo cursor

def fetchQuoted (quote : Char) (lexer : Lexer) : Option Lexer := do
  let lexer ← lexer.saveKey
  let (text, cursor) ← Quote.scan quote lexer.cursor
  return ((lexer.allowKeys false).emit (.scalar false (Bytes.ofChars text))).moveTo cursor

/-- A plain scalar.  Keys may start after it if a line break follows. -/
def fetchPlain (lexer : Lexer) : Option Lexer := do
  let lexer ← lexer.saveKey
  let plain ← Plain.scan lexer.inFlow (lexer.indent + 1).toNat lexer.cursor
  let lexer := (lexer.allowKeys plain.broken).emit (.scalar true (Bytes.ofChars plain.text))
  return lexer.moveTo plain.after

/-- The characters that have a meaning of their own at the start of a token. -/
def indicators : List Char :=
  ['-', '?', ':', ',', '[', ']', '{', '}', '#', '&', '*', '!', '|', '>', '\'', '"', '%',
    '@', Char.ofNat 0x60]

/-- A plain scalar may start at the cursor. -/
def startsPlain (inFlow : Bool) (character : Char) (next : Option Char) : Bool :=
  !(endsWord (some character) || indicators.contains character)
    || (character == '-' && !(next.any isBlank))
    || (!inFlow && (character == '?' || character == ':') && !endsWord next)

/-- Fetch the token that starts with the given character. -/
def fetchAt (character : Char) (next : Option Char) (lexer : Lexer) : Option Lexer :=
  if character == '[' then lexer.fetchFlowStart .flowSequenceStart
  else if character == '{' then lexer.fetchFlowStart .flowMappingStart
  else if character == ']' then lexer.fetchFlowEnd .flowSequenceEnd
  else if character == '}' then lexer.fetchFlowEnd .flowMappingEnd
  else if character == ',' then lexer.fetchFlowEntry
  else if character == '-' && endsWord next then lexer.fetchBlockEntry
  else if character == '?' && (lexer.inFlow || endsWord next) then lexer.fetchKey
  else if character == ':' && (lexer.inFlow || endsWord next) then lexer.fetchValue
  else if character == '*' then lexer.fetchName .alias
  else if character == '&' then lexer.fetchName .anchor
  else if character == '!' then lexer.fetchTag
  else if character == '|' && !lexer.inFlow then lexer.fetchBlockScalar true
  else if character == '>' && !lexer.inFlow then lexer.fetchBlockScalar false
  else if character == '\'' || character == '"' then lexer.fetchQuoted character
  else if startsPlain lexer.inFlow character next then lexer.fetchPlain
  else none

/-- Fetch the next token, which may bring others with it. -/
def fetch (lexer : Lexer) : Option Lexer := do
  let lexer := lexer.moveTo (← lexer.cursor.load 1)
  let lexer ← skipToToken lexer.cursor.fuel lexer
  let lexer := lexer.unindent lexer.cursor.column
  let lexer := lexer.moveTo (← lexer.cursor.load 4)
  match lexer.cursor.peek with
  | none => lexer.fetchEnd
  | some character =>
      if lexer.cursor.column == 0 && character == '%' then lexer.fetchDirective
      else if lexer.cursor.isAtMarker '-' then lexer.fetchBoundary .documentStart
      else if lexer.cursor.isAtMarker '.' then lexer.fetchBoundary .documentEnd
      else
        let lexer ← lexer.fetchAt character (lexer.cursor.peekAt 1)
        lexer.skipLineComment

/-- Fetch tokens until the next one can be taken. -/
def fetchMore : Nat → Lexer → Option Lexer
  | 0, _ => none
  | fuel + 1, lexer => do
      if 2 < lexer.queue.length then
        let awaited := lexer.awaited.filter fun entry => lexer.used ≤ entry.1
        let lexer := { lexer with awaited := awaited }
        match awaited.find? fun entry => entry.1 == lexer.used with
        | none => return lexer
        | some (_, place) =>
            let (unsettled, lexer) ← lexer.settle place
            if unsettled then fetchMore fuel (← lexer.fetch) else return lexer
      else fetchMore fuel (← lexer.fetch)

def peek (lexer : Lexer) : Option (Token × Lexer) := do
  let lexer ← fetchMore (lexer.cursor.fuel + 4) lexer
  return (lexer.queue.head?.getD .streamEnd, lexer)

/-- Take the next token. -/
def advance (lexer : Lexer) : Lexer :=
  { lexer with used := lexer.used + 1, queue := lexer.queue.drop 1 }

end Lexer

end Reroute.Yaml
