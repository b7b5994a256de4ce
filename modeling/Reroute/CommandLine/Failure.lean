import Reroute.CommandLine.Command
import Reroute.Config.Basic
import Reroute.Discovery
import Reroute.Pipeline.Basic
import Reroute.SourceMap.Comment
import Reroute.Store.Merge

/-!
# Failures of commands

Everything that can go wrong with a call, and its wording.
-/

namespace Reroute.CommandLine

/-- Why a call fails. -/
inductive Failure where
  | unknownCommand (name : Bytes)
  | unexpected (argument : Bytes) (shell : Shell)
  | flag (error : FlagError)
  | exactly (count received : Nat)
  | atLeast (count received : Nat)
  | verboseAndQuiet
  | format (name : Bytes)
  | config (error : Config.Error)
  | mode (error : Mode.Unknown)
  | settings (error : Mode.Unknown)
  | store (error : StoreError)
  | target (path : Bytes)
  | search (error : ChunkSearch.Error)
  | batch (error : Pipeline.Error)
  | inlineMap (path : Bytes) (error : SourceMap.Error)
  | directory (path : Bytes)
  | file (path : Bytes)
  | served (error : Pipeline.Error)
  | reportMemory
  | reportMissing (path : Bytes)
  | reportStore (error : StoreError)
  | merge (error : MergeError)
  | mergeSource (failure : SourceFailure)
  | line (text : Bytes)
  | column (text : Bytes)
  | chunk (path : Bytes)
  | dataUrl (path : Bytes) (error : DataUrl.Error)
  | noMap (path : Bytes)
  | map (name : Bytes) (error : SourceMap.Error)
  | mappings (name : Bytes) (error : Mappings.Error)
  | noMapping (path : Bytes) (line column : Int)
  deriving DecidableEq, Repr

/-- The failure stands for a call that never ends. -/
def Failure.isEndless : Failure → Bool
  | .batch error => error.isEndless
  | _ => false

/-- The failure is a breakdown of the program rather than an error that it reports. -/
def Failure.isBreakdown : Failure → Bool
  | .config error => error.cause == .incomparableKeys
  | .search error => error == .tooManyReaders
  | .batch error => error.isBreakdown
  | _ => false

/-- The names that are suggested for a name that no command has, one a line. -/
def suggestionList (name : Bytes) : Bytes :=
  match suggestions name with
  | [] => []
  | names =>
      utf8 "\n\nDid you mean this?\n"
        ++ names.flatMap fun suggestion => 9 :: suggestion ++ [Bytes.newline]

def Failure.message : Failure → Bytes
  | .unknownCommand name =>
      utf8 "unknown command " ++ Quoted.text name ++ utf8 " for "
        ++ Quoted.text programName ++ suggestionList name
  | .unexpected argument shell =>
      utf8 "unknown command " ++ Quoted.text argument ++ utf8 " for "
        ++ Quoted.text (programName ++ utf8 " completion " ++ utf8 shell.label)
  | .flag error => error.message
  | .exactly count received =>
      utf8 "accepts " ++ Numeral.ofNat count ++ utf8 " arg(s), received "
        ++ Numeral.ofNat received
  | .atLeast count received =>
      utf8 "requires at least " ++ Numeral.ofNat count ++ utf8 " arg(s), only received "
        ++ Numeral.ofNat received
  | .verboseAndQuiet => utf8 "--verbose and --quiet are mutually exclusive"
  | .format name => utf8 "unknown output format: " ++ name
  | .config error => error.message
  | .mode error => error.message
  | .settings error => utf8 "invalid configuration: " ++ error.message
  | .store error => utf8 "creating store: " ++ error.message
  | .target path => utf8 "target does not exist: " ++ path
  | .search error => utf8 "enumerating chunks: " ++ error.message
  | .batch error => utf8 "rewriting: " ++ error.message
  | .inlineMap path error =>
      utf8 "encoding inline map for " ++ path ++ utf8 ": " ++ error.message
  | .directory path =>
      utf8 "creating directory for " ++ path ++ utf8 ": " ++ FileError.missing.message
  | .file path => utf8 "writing " ++ path ++ utf8 ": " ++ FileError.missing.message
  | .served error => error.message
  | .reportMemory => utf8 "cannot report from in-memory store"
  | .reportMissing path => utf8 "store not found: " ++ path
  | .reportStore error => utf8 "opening store: " ++ error.message
  | .merge error => utf8 "merge failed: " ++ error.message
  | .mergeSource failure => utf8 "merge failed: " ++ failure.message
  | .line text =>
      utf8 "invalid line " ++ Quoted.text text ++ utf8 ": must be a positive integer"
  | .column text =>
      utf8 "invalid column " ++ Quoted.text text
        ++ utf8 ": must be a non-negative integer"
  | .chunk path => utf8 "reading " ++ path ++ utf8 ": " ++ FileError.missing.message
  | .dataUrl path error =>
      utf8 "reading inline map in " ++ path ++ utf8 ": " ++ error.message
  | .noMap path => utf8 "no source map found for " ++ path
  | .map name error => utf8 "parsing source map " ++ name ++ utf8 ": " ++ error.message
  | .mappings name error =>
      utf8 "decoding source map " ++ name ++ utf8 ": " ++ error.message
  | .noMapping path atLine atColumn =>
      utf8 "no mapping for " ++ path ++ utf8 ":" ++ Numeral.ofInt atLine ++ utf8 ":"
        ++ Numeral.ofInt atColumn

end Reroute.CommandLine
