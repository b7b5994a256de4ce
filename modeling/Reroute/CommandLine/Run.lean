import Reroute.CommandLine.Report
import Reroute.CommandLine.Resolve
import Reroute.CommandLine.Transform
import Reroute.Hook.Server
import Reroute.Text.Table

/-!
# Running the program

A run takes arguments, standard input and a file tree, and gives what is printed, whether
it succeeded, and the tree afterwards.  Errors are reported in one line.
-/

namespace Reroute.CommandLine

/-- What the program knows about the machine it runs on. -/
structure Machine where
  toolchain : Bytes
  platform : Bytes
  onTerminal : Bool
  deriving DecidableEq, Repr

/-- What is printed: text, or the responses of a server, one a line. -/
inductive Output where
  | text (content : Bytes)
  | responses (written : List Hook.Response)
  deriving DecidableEq, Repr

/-- What is printed as text. -/
def Output.bytes : Output → Bytes
  | .text content => content
  | .responses written =>
      written.flatMap fun response => response.text ++ [Bytes.newline]

/-- How a run ends, if it does. -/
inductive Status where
  | succeeded
  | failed
  | brokeDown
  | endless
  deriving DecidableEq, Repr

/-- The exit code of the program, if it ends. -/
def Status.code? : Status → Option UInt32
  | .succeeded => some 0
  | .failed => some 1
  | .brokeDown => some 2
  | .endless => none

/-- The end of a run. -/
structure Ending where
  status : Status
  output : Output
  errors : Bytes
  files : Files

namespace Ending

/-- A run that succeeds and prints a text. -/
def success (files : Files) (content : Bytes) : Ending :=
  ⟨.succeeded, .text content, [], files⟩

/-- The lines that report a failure.  An unknown command comes with a hint. -/
def report (failure : Failure) : Bytes :=
  utf8 "Error: " ++ failure.message ++ utf8 "\n"
    ++ match failure with
      | .unknownCommand _ => utf8 "Run '" ++ programName ++ utf8 " --help' for usage.\n"
      | _ => []

def failure (files : Files) (cause : Failure) : Ending :=
  if cause.isEndless then ⟨.endless, .text [], [], files⟩
  else ⟨if cause.isBreakdown then .brokeDown else .failed, .text [], report cause, files⟩

/-- The end of a run that prints a text or fails. -/
def ofAnswer (files : Files) : Except Failure Bytes → Ending
  | .ok content => success files content
  | .error error => failure files error

end Ending

def programVersion : Bytes :=
  utf8 "dev"

def versionText (machine : Machine) : Bytes :=
  programName ++ utf8 " v" ++ programVersion ++ utf8 "\nCommit: unknown\nHook protocol: "
    ++ Hook.Response.version ++ utf8 "\nGo version: " ++ machine.toolchain
    ++ utf8 "\nOS/Arch: " ++ machine.platform ++ utf8 "\n"

def ruleRow (rule : Rule) : List Bytes :=
  [rule.id, rule.name, Quoted.text rule.pattern, Quoted.text rule.replacement]

def ruleTable (rules : List Rule) : Bytes :=
  Table.render 4
    ([["ID", "Name", "Pattern", "Replacement"].map utf8,
      ["--", "----", "-------", "-----------"].map utf8] ++ rules.map ruleRow)

def listRules (format : Bytes) : Except Failure Bytes :=
  if format == utf8 "json" then
    .ok (Json.Value.array (Rule.builtins.map Rule.value)).document
  else if format == utf8 "table" then .ok (ruleTable Rule.builtins)
  else .error (.format format)

/-- The lines that tell what a merge did. -/
def mergeText (report : MergeReport) (destination : Bytes) : Bytes :=
  utf8 "Merge complete:\n"
    ++ utf8 "  Sources processed: " ++ Numeral.ofNat report.sources ++ utf8 "\n"
    ++ utf8 "  Chunks merged: " ++ Numeral.ofNat report.gained.chunks ++ utf8 "\n"
    ++ utf8 "  Provenance merged: " ++ Numeral.ofNat report.gained.places ++ utf8 "\n"
    ++ utf8 "  Rewrites merged: " ++ Numeral.ofNat report.gained.substitutions ++ utf8 "\n"
    ++ utf8 "  Results merged: " ++ Numeral.ofNat report.gained.results ++ utf8 "\n"
    ++ utf8 "Output: " ++ destination ++ utf8 "\n"

def mergeStores (sources : List Bytes) (destination : Bytes) (files : Files) : Ending :=
  match files.merge sources destination with
  | (.error error, files) => .failure files (.merge error)
  | (.ok report, files) =>
      match report.failure with
      | some failure => .failure files (.mergeSource failure)
      | none => .success files (mergeText report destination)

/-- How a server is asked for. -/
structure ServeCall where
  configPath : Bytes
  mode : Bytes
  deriving DecidableEq, Repr

namespace ServeCall

def ofArguments (arguments : Arguments) : ServeCall :=
  ⟨arguments.text "config" [], arguments.text "mode" []⟩

/-- The configuration with the mode asked for. -/
def settle (call : ServeCall) (files : Files) : Except Failure Config :=
  match Config.load files call.configPath with
  | .error error => .error (.config error)
  | .ok config =>
      if call.mode.isEmpty then .ok config
      else
        match Mode.parse call.mode with
        | .error error => .error (.mode error)
        | .ok mode => .ok { config with mode := mode }

/-- Set a server up, with the place of its store. -/
def start (call : ServeCall) (files : Files) :
    Except Failure (Hook.Server × PlacedStore) × Files :=
  match call.settle files with
  | .error failure => (.error failure, files)
  | .ok config =>
      match files.openStore config.storePath with
      | (.error error, files) => (.error (.store error), files)
      | (.ok placed, files) =>
          (.ok (⟨config.pipeline, Rule.builtinId, placed.store⟩, placed), files)

/-- Run a server over its input. -/
def run (call : ServeCall) (input : Bytes) (files : Files) : Ending :=
  match call.start files with
  | (.error failure, files) => .failure files failure
  | (.ok (server, placed), files) =>
      let transcript := server.run input
      let files := files.keepStore { placed with store := transcript.store }
      match transcript.exit with
      | .finished => ⟨.succeeded, .responses transcript.responses, [], files⟩
      | .stopped error =>
          ⟨.failed, .responses transcript.responses, Ending.report (.served error), files⟩
      | .endless => ⟨.endless, .responses transcript.responses, [], files⟩

end ServeCall

/-- A call whose flags are read and whose arguments are counted. -/
inductive Request where
  | transform (call : TransformCall)
  | serve (call : ServeCall)
  | report (call : ReportCall)
  | listRules (format : Bytes)
  | resolve (call : ResolveCall)
  | merge (sources : List Bytes) (destination : Bytes)
  | version
  | help
  deriving DecidableEq, Repr

/-- The request of a command with its arguments, unless their number is wrong. -/
def requestOf (command : Command) (arguments : Arguments) : Except Failure Request :=
  match command, arguments.others with
  | .transform, [target] => .ok (.transform (.ofArguments target arguments))
  | .transform, others => .error (.exactly 1 others.length)
  | .serve, _ => .ok (.serve (.ofArguments arguments))
  | .report, _ => .ok (.report (.ofArguments arguments))
  | .listRules, _ => .ok (.listRules (arguments.text "format" (utf8 "table")))
  | .resolve, [path, line, column] =>
      .ok (.resolve (.ofArguments path line column arguments))
  | .resolve, others => .error (.exactly 3 others.length)
  | .merge, first :: second :: others =>
      .ok (.merge (first :: second :: others) (arguments.text "output" (utf8 "merged.db")))
  | .merge, others => .error (.atLeast 2 others.length)
  | .version, _ => .ok .version
  | .completionFor shell, argument :: _ => .error (.unexpected argument shell)
  | _, _ => .ok .help

/-- The request that arguments make. -/
def readRequest (arguments : List Bytes) : Except Failure Request :=
  match findCall arguments with
  | .error name => .error (.unknownCommand name)
  | .ok call =>
      match Arguments.read (call.command.flags ++ [Command.helpFlag]) call.arguments with
      | .error error => .error (.flag error)
      | .ok arguments =>
          if arguments.isOn "help" || !call.command.isRunnable then .ok .help
          else
            match requestOf call.command arguments with
            | .error failure => .error failure
            | .ok request =>
                if arguments.isOn "verbose" && arguments.isOn "quiet" then
                  .error .verboseAndQuiet
                else .ok request

def helpText : Bytes :=
  utf8 "Commands:\n"
    ++ Command.suggested.flatMap fun name => utf8 "  " ++ name ++ utf8 "\n"

/-- Carry out a request. -/
def Request.run (machine : Machine) (request : Request) (input : Bytes) (files : Files) :
    Ending :=
  match request with
  | .transform call =>
      match call.run files with
      | (.error failure, files) => .failure files failure
      | (.ok shown, files) => ⟨.succeeded, .text shown.output, shown.errors, files⟩
  | .serve call => call.run input files
  | .report call =>
      match call.run machine.onTerminal files with
      | (answer, files) => .ofAnswer files answer
  | .listRules format => .ofAnswer files (CommandLine.listRules format)
  | .resolve call => .ofAnswer files (call.run files)
  | .merge sources destination => mergeStores sources destination files
  | .version => .success files (versionText machine)
  | .help => .success files helpText

def run (machine : Machine) (arguments : List Bytes) (input : Bytes) (files : Files) :
    Ending :=
  match readRequest arguments with
  | .error failure => .failure files failure
  | .ok request => request.run machine input files

end Reroute.CommandLine
