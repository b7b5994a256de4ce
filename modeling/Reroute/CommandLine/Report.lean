import Reroute.CommandLine.Failure

/-!
# Reporting on a store

A report lists the chunks of a store in which something was replaced, with the replaced
occurrences of each, and counts the other chunks.
-/

namespace Reroute.CommandLine

/-- A chunk with the occurrences replaced in it. -/
structure ReportedChunk where
  record : ChunkRecord
  substitutions : List Substitution
  deriving DecidableEq, Repr

/-- The occurrences replaced in a chunk. -/
def reportedChunk (substitutions : List Substitution) (record : ChunkRecord) :
    ReportedChunk :=
  ⟨record, substitutions.filter fun substitution => substitution.chunk == record.id⟩

/-- A report: the chunks in which something was replaced, and how many others there are. -/
structure Report where
  chunks : List ReportedChunk
  unchanged : Nat
  deriving DecidableEq, Repr

namespace Report

/-- Bring chunks and replaced occurrences together. -/
def ofRecords (records : List ChunkRecord) (substitutions : List Substitution) : Report :=
  let all := records.map (reportedChunk substitutions)
  ⟨all.filter fun chunk => !chunk.substitutions.isEmpty,
    all.countP fun chunk => chunk.substitutions.isEmpty⟩

/-- How many occurrences were replaced. -/
def total (report : Report) : Nat :=
  (report.chunks.flatMap fun chunk => chunk.substitutions).length

def chunkValue (chunk : ReportedChunk) : Json.Value :=
  .object
    [(utf8 "id", .string chunk.record.id.hex),
      (utf8 "size", Json.Value.integer chunk.record.size),
      (utf8 "paths", .array (chunk.record.paths.map .string)),
      (utf8 "rewrites", .array (chunk.substitutions.map Substitution.value))]

def value (report : Report) : Json.Value :=
  .array (report.chunks.map chunkValue)

end Report

/-- What parts of a report are set off by. -/
inductive Emphasis where
  | chunkHeading
  | identifier
  | heading
  | path
  | matched
  | replacement
  deriving DecidableEq, Repr

/-- The codes that turn an emphasis on and off. -/
def Emphasis.codes : Emphasis → String × String
  | .chunkHeading => ("1;97", "22;0")
  | .identifier => ("92", "0")
  | .heading => ("1", "22")
  | .path => ("94", "0")
  | .matched => ("31", "0")
  | .replacement => ("33", "0")

/-- The sequence that sends codes to a terminal. -/
def terminalCode (codes : String) : Bytes :=
  27 :: utf8 "[" ++ utf8 codes ++ utf8 "m"

/-- A text set off, if colors are on. -/
def emphasize (colored : Bool) (emphasis : Emphasis) (text : Bytes) : Bytes :=
  if colored then
    terminalCode emphasis.codes.1 ++ text ++ terminalCode emphasis.codes.2
  else text

/-- A number out of a total. -/
def outOf (number total : Nat) : Bytes :=
  Numeral.ofNat number ++ utf8 "/" ++ Numeral.ofNat total

def placeText (place : LineColumn) : Bytes :=
  Numeral.ofInt place.line ++ utf8 ":" ++ Numeral.ofInt place.column

/-- The line of a replaced occurrence. -/
def substitutionLine (colored : Bool) (number total : Nat) (record : Substitution) :
    Bytes :=
  utf8 "    " ++ emphasize colored .heading (utf8 "Rewrite " ++ outOf number total)
    ++ utf8 " " ++ emphasize colored .heading (utf8 "at") ++ utf8 " "
    ++ placeText record.start ++ utf8 "-" ++ placeText record.stop ++ utf8 "  "
    ++ emphasize colored .matched record.matched ++ utf8 " -> "
    ++ emphasize colored .replacement record.replacement ++ utf8 "\n"

def pathLine (colored : Bool) (path : Bytes) : Bytes :=
  emphasize colored .heading (utf8 "File:") ++ utf8 " " ++ emphasize colored .path path
    ++ utf8 "\n"

/-- The occurrences of a chunk that are shown, and the line that says how many if they are
not all.  A limit that is not positive is none. -/
def limited (limit : Int) (records : List Substitution) : Bytes × List Substitution :=
  if 0 < limit && limit < records.length then
    (utf8 "Showing " ++ Numeral.ofInt limit ++ utf8 "/" ++ Numeral.ofNat records.length
        ++ utf8 " rewrites:\n",
      records.take limit.toNat)
  else ([], records)

def chunkText (colored : Bool) (limit : Int) (number total : Nat) (chunk : ReportedChunk) :
    Bytes :=
  let (note, shown) := limited limit chunk.substitutions
  emphasize colored .chunkHeading (utf8 "Chunk " ++ outOf number total) ++ utf8 " ("
    ++ emphasize colored .heading (utf8 "id") ++ utf8 " "
    ++ emphasize colored .identifier chunk.record.id.hex ++ utf8 ")\n"
    ++ chunk.record.paths.flatMap (pathLine colored)
    ++ note
    ++ (shown.zipIdx.flatMap fun (record, index) =>
      substitutionLine colored (index + 1) chunk.substitutions.length record)
    ++ utf8 "\n"

def Report.text (report : Report) (colored : Bool) (limit : Int) (path : Bytes) : Bytes :=
  emphasize colored .heading (utf8 "=== importshim Report ===") ++ utf8 "\n"
    ++ utf8 "Store: " ++ path ++ utf8 "\n"
    ++ utf8 "Rewritten chunks: " ++ Numeral.ofNat report.chunks.length ++ utf8 " ("
    ++ Numeral.ofNat report.unchanged ++ utf8 " unchanged)\n"
    ++ utf8 "Total rewrites: " ++ Numeral.ofNat report.total ++ utf8 "\n\n"
    ++ report.chunks.zipIdx.flatMap fun (chunk, index) =>
      chunkText colored limit (index + 1) report.chunks.length chunk

/-- How a report is asked for. -/
structure ReportCall where
  store : Bytes
  format : Bytes
  color : Bytes
  limit : Int
  deriving DecidableEq, Repr

namespace ReportCall

def ofArguments (arguments : Arguments) : ReportCall :=
  ⟨arguments.text "store" (utf8 "importshim.db"), arguments.text "format" (utf8 "human"),
    arguments.text "color" (utf8 "auto"), arguments.integer "limit" 5⟩

/-- The report comes in colors: when asked for, or by default on a terminal. -/
def isColored (call : ReportCall) (onTerminal : Bool) : Bool :=
  call.color == utf8 "always" || (call.color != utf8 "never" && onTerminal)

/-- The report of an open store. -/
def gather (store : Store) : Except StoreError Report :=
  match store.chunkRecords, store.allSubstitutions with
  | .ok records, .ok substitutions => .ok (Report.ofRecords records substitutions)
  | .error error, _ => .error error
  | _, .error error => .error error

/-- Show a report in the format asked for. -/
def display (call : ReportCall) (onTerminal : Bool) (report : Report) :
    Except Failure Bytes :=
  if call.format == utf8 "json" then .ok report.value.document
  else if call.format == utf8 "human" then
    .ok (report.text (call.isColored onTerminal) call.limit call.store)
  else .error (.format call.format)

def run (call : ReportCall) (onTerminal : Bool) (files : Files) :
    Except Failure Bytes × Files :=
  if call.store == memoryPath then (.error .reportMemory, files)
  else
    match files.stat call.store with
    | .error _ => (.error (.reportMissing call.store), files)
    | .ok _ =>
        match files.openStore call.store with
        | (.error error, files) => (.error (.reportStore error), files)
        | (.ok placed, files) =>
            match gather placed.store with
            | .error error => (.error (.reportStore error), files)
            | .ok report => (call.display onTerminal report, files)

end ReportCall

end Reroute.CommandLine
