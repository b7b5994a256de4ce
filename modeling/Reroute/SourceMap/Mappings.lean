import Reroute.SourceMap.Vlq
import Reroute.Text.Quoted

/-!
# Mappings

The decoded form of a map is a list of generated lines, each a list of segments that tie
a generated column to a place in a source.  The written form separates lines by
semicolons and segments by commas, and writes every field as the difference to the last
value that field had.  Generated columns start over on every line; the other fields run
through the whole text, the name only over segments that have one.

Reading is one pass over the bytes.  A piece of one number moves the generated column
and maps nothing, so it leaves no segment.
-/

namespace Reroute

/-- Ties a generated column to a place in a source.  Lines and columns count from zero,
columns in UTF-16 code units. -/
structure Segment where
  generatedColumn : Int64
  sourceIndex : Int64
  sourceLine : Int64
  sourceColumn : Int64
  nameIndex : Int64
  deriving DecidableEq, Repr, Inhabited

/-- The name index of a segment without a name. -/
def Segment.noName : Int64 := -1

/-- The segments of every generated line. -/
abbrev Mappings := List (List Segment)

namespace Mappings

/-- The last value that every field had. -/
structure Cursor where
  generatedColumn : Int64
  sourceIndex : Int64
  sourceLine : Int64
  sourceColumn : Int64
  nameIndex : Int64
  deriving DecidableEq, Repr

namespace Cursor

def start : Cursor :=
  ⟨0, 0, 0, 0, 0⟩

/-- The cursor at the start of the next line. -/
def nextLine (cursor : Cursor) : Cursor :=
  { cursor with generatedColumn := 0 }

/-- The cursor behind a segment. -/
def after (cursor : Cursor) (segment : Segment) : Cursor :=
  { generatedColumn := segment.generatedColumn
    sourceIndex := segment.sourceIndex
    sourceLine := segment.sourceLine
    sourceColumn := segment.sourceColumn
    nameIndex :=
      if segment.nameIndex == Segment.noName then cursor.nameIndex else segment.nameIndex }

/-- The differences written for a segment. -/
def differences (cursor : Cursor) (segment : Segment) : List Int64 :=
  [segment.generatedColumn - cursor.generatedColumn,
    segment.sourceIndex - cursor.sourceIndex,
    segment.sourceLine - cursor.sourceLine,
    segment.sourceColumn - cursor.sourceColumn]
    ++ if segment.nameIndex == Segment.noName then []
      else [segment.nameIndex - cursor.nameIndex]

end Cursor

/-- The differences of one line behind those already collected, latest first. -/
def lineDifferences (cursor : Cursor) (line : List Segment) : List (List Int64) × Cursor :=
  let (done, last) :=
    line.foldl
      (fun (done, cursor) segment =>
        (cursor.differences segment :: done, cursor.after segment))
      (([] : List (List Int64)), cursor)
  (done.reverse, last)

def allDifferences (lines : Mappings) : List (List (List Int64)) :=
  let (done, _) :=
    lines.foldl
      (fun (done, cursor) line =>
        let (differences, last) := lineDifferences cursor.nextLine line
        (differences :: done, last))
      (([] : List (List (List Int64))), Cursor.start)
  done.reverse

/-- The written form of the differences of a segment. -/
def encodePiece? (differences : List Int64) : Option Bytes :=
  (differences.mapM Vlq.encode?).map List.flatten

/-- The written form of a line. -/
def encodeLine? (pieces : List (List Int64)) : Option Bytes :=
  (pieces.mapM encodePiece?).map (Bytes.join (utf8 ","))

/-- The written form of mappings, unless a difference has no finite representation. -/
def encode? (lines : Mappings) : Option Bytes :=
  ((allDifferences lines).mapM encodeLine?).map (Bytes.join (utf8 ";"))

/-- The written form of mappings, or nothing where they have none. -/
def encode (lines : Mappings) : Bytes :=
  (encode? lines).getD []

/-- Why a text is not the written form of mappings. -/
inductive Error where
  | unterminated
  | character (byte : UInt8) (offset : Nat)
  | overflow
  | tooManyFields (offset : Nat)
  | fieldCount (count line : Nat)
  deriving DecidableEq, Repr

def Error.message : Error → Bytes
  | .unterminated => utf8 "unterminated VLQ value"
  | .character byte offset =>
      utf8 "invalid base64 character " ++ Quoted.byte byte ++ utf8 " at "
        ++ Numeral.ofNat offset
  | .overflow => utf8 "VLQ value overflows"
  | .tooManyFields offset =>
      utf8 "segment with more than 5 fields at " ++ Numeral.ofNat offset
  | .fieldCount count line =>
      utf8 "segment with " ++ Numeral.ofNat count ++ utf8 " fields on line "
        ++ Numeral.ofNat line

/-- A number of which some digits have been read. -/
structure Pending where
  code : Nat
  digits : Nat
  deriving DecidableEq, Repr

/-- The state of the reader between two bytes.  Lists are held latest first. -/
structure Reader where
  offset : Nat
  number : Option Pending
  fields : List Int64
  cursor : Cursor
  segments : List Segment
  lines : List (List Segment)
  deriving DecidableEq, Repr

namespace Reader

def start : Reader :=
  ⟨0, none, [], .start, [], []⟩

/-- Take one digit onto a number. -/
def digit (reader : Reader) (number : Pending) (byte : UInt8) : Except Error Reader :=
  match Base64.value? byte with
  | none => .error (.character byte reader.offset)
  | some value =>
      let code := number.code + value % Vlq.radix * Nat.pow Vlq.radix number.digits
      if value < Vlq.radix then
        .ok { reader with
              offset := reader.offset + 1
              number := none
              fields := Vlq.unsigned code :: reader.fields }
      else if number.digits + 1 < Vlq.maxDigits then
        .ok { reader with
              offset := reader.offset + 1
              number := some ⟨code, number.digits + 1⟩ }
      else .error .overflow

/-- Close a piece: one number moves the column, four or five make a segment. -/
def closePiece (reader : Reader) : Except Error Reader :=
  let cursor := reader.cursor
  match reader.fields.reverse with
  | [] => .ok reader
  | [column] =>
      .ok { reader with
            fields := []
            cursor :=
              { cursor with generatedColumn := cursor.generatedColumn + column } }
  | [column, source, line, sourceColumn] =>
      let segment : Segment :=
        ⟨cursor.generatedColumn + column, cursor.sourceIndex + source,
          cursor.sourceLine + line, cursor.sourceColumn + sourceColumn, Segment.noName⟩
      .ok { reader with
            fields := []
            cursor :=
              ⟨segment.generatedColumn, segment.sourceIndex, segment.sourceLine,
                segment.sourceColumn, cursor.nameIndex⟩
            segments := segment :: reader.segments }
  | [column, source, line, sourceColumn, name] =>
      let segment : Segment :=
        ⟨cursor.generatedColumn + column, cursor.sourceIndex + source,
          cursor.sourceLine + line, cursor.sourceColumn + sourceColumn,
          cursor.nameIndex + name⟩
      .ok { reader with
            fields := []
            cursor :=
              ⟨segment.generatedColumn, segment.sourceIndex, segment.sourceLine,
                segment.sourceColumn, segment.nameIndex⟩
            segments := segment :: reader.segments }
  | fields => .error (.fieldCount fields.length reader.lines.length)

def closeLine (reader : Reader) : Reader :=
  { reader with
    cursor := reader.cursor.nextLine
    segments := []
    lines := reader.segments.reverse :: reader.lines }

/-- Take one byte. -/
def step (reader : Reader) (byte : UInt8) : Except Error Reader :=
  match reader.number with
  | some number => reader.digit number byte
  | none =>
      if byte == 59 then
        match reader.closePiece with
        | .ok closed => .ok { closed.closeLine with offset := reader.offset + 1 }
        | .error error => .error error
      else if byte == 44 then
        match reader.closePiece with
        | .ok closed => .ok { closed with offset := reader.offset + 1 }
        | .error error => .error error
      else if reader.fields.length == 5 then .error (.tooManyFields reader.offset)
      else reader.digit ⟨0, 0⟩ byte

/-- The mappings read when the text ends. -/
def finish (reader : Reader) : Except Error Mappings :=
  match reader.number with
  | some _ => .error .unterminated
  | none =>
      match reader.closePiece with
      | .ok closed => .ok closed.closeLine.lines.reverse
      | .error error => .error error

/-- Take bytes up to the end of the text. -/
def run (reader : Reader) : Bytes → Except Error Mappings
  | [] => reader.finish
  | byte :: rest =>
      match reader.step byte with
      | .ok next => next.run rest
      | .error error => .error error

end Reader

/-- Read the written form of mappings. -/
def decode (text : Bytes) : Except Error Mappings :=
  Reader.start.run text

end Mappings

/-- Collects segments line by line. -/
structure Builder where
  lines : Array (Array Segment)
  deriving Repr

namespace Builder

def empty : Builder :=
  ⟨#[]⟩

/-- Put a segment at the end of a line, adding empty lines up to it. -/
def add (builder : Builder) (line : Nat) (segment : Segment) : Builder :=
  let padded := builder.lines ++ Array.replicate (line + 1 - builder.lines.size) #[]
  ⟨padded.modify line (·.push segment)⟩

def mappings (builder : Builder) : Mappings :=
  builder.lines.toList.map Array.toList

/-- The total number of segments. -/
def size (builder : Builder) : Nat :=
  builder.mappings.flatten.length

end Builder

end Reroute
