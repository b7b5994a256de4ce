import Reroute.CommandLine.Run
import Reroute.Files.Difference
import Reroute.Store.Document

/-!
# The program

The working directory is read into a file tree, the command runs on the tree, and what
it changed is written back.  A server answers each request as soon as it can be read.
-/

namespace Reroute

/-- A text as the bytes of an array. -/
def packed (content : Bytes) : ByteArray :=
  ⟨content.toArray⟩

/-- A name or a path as a string. -/
def named (path : Bytes) : String :=
  (String.fromUTF8? (packed path)).getD ""

/-- Read what lies at a path.  A link is read as one to the place it leads to in the end. -/
partial def loadEntry (path : String) : IO (Option Entry) := do
  let place ← IO.FS.realPath path
  if ← place.isDir then
    let found ← place.readDir
    let mut entries := []
    for member in found do
      let inner := path ++ "/" ++ member.fileName
      let name := utf8 member.fileName
      if (← member.path.symlinkMetadata).type == .symlink then
        let resolved ← (IO.FS.realPath inner).toBaseIO
        let target := match resolved with
          | .ok place => utf8 place.toString
          | .error _ => []
        entries := Entry.insertMember name (.link target) entries
      else if let some entry ← loadEntry inner then
        entries := Entry.insertMember name entry entries
    return some (.directory entries)
  else if (← place.metadata).type == .file then
    return some (.ofContent (← IO.FS.readBinFile path).toList)
  else return none

/-- Read the working directory, into a tree with nothing else in it. -/
def loadFiles : IO Files := do
  let top ← IO.FS.realPath "."
  let home :=
    (Bytes.splitOn Bytes.slash (utf8 top.toString)).filter fun name => !name.isEmpty
  return (Files.emptyAt home).put home ((← loadEntry ".").getD (.directory []))

/-- Carry out one change. -/
def keepChange (change : Change) : IO Unit := do
  let path := named change.path
  match change.entry? with
  | none => IO.FS.removeFile path
  | some entry =>
      if let some content := entry.written? then
        IO.FS.createDirAll (named (Path.directory change.path))
        IO.FS.writeBinFile path (packed content)

/-- Write back what changed between two trees. -/
def keepChanges (before after : Files) : IO Unit :=
  (before.changes after).forM keepChange

/-- Print a text and make sure that it is seen. -/
def emit (stream : IO.FS.Stream) (content : Bytes) : IO Unit := do
  stream.write (packed content)
  stream.flush

/-- Print responses, one a line. -/
def emitResponses (responses : List Hook.Response) : IO Unit := do
  emit (← IO.getStdout) (CommandLine.Output.responses responses).bytes

/-- Answer the requests in `pending` and in the input behind it.  What cannot be read as
a request yet waits for the next line. -/
partial def answerRequests (server : Hook.Server) (pending : Bytes) :
    IO (Hook.Exit × Store) := do
  match Hook.Stream.head pending with
  | .request request rest =>
      let (reply, server) := server.handle request
      emitResponses reply.response.toList
      match reply.exit with
      | some exit => return (exit, server.store)
      | none => answerRequests server rest
  | .nothing =>
      let line ← (← IO.getStdin).getLine
      if line.isEmpty then return (.finished, server.store)
      answerRequests server (utf8 line)
  | .malformed =>
      let line ← (← IO.getStdin).getLine
      if line.isEmpty then
        emitResponses [Hook.Server.malformedResponse]
        return (.finished, server.store)
      answerRequests server (pending ++ utf8 line)

/-- Do nothing for ever. -/
partial def stall : IO UInt32 := do
  IO.sleep 1000
  stall

/-- Run a server on standard input and output. -/
def serve (call : CommandLine.ServeCall) (before : Files) : IO UInt32 := do
  match call.start before with
  | (.error failure, after) =>
      keepChanges before after
      emit (← IO.getStderr) (CommandLine.Ending.report failure)
      return 1
  | (.ok (server, placed), after) =>
      emitResponses [server.greeting]
      let (exit, store) ← answerRequests server []
      keepChanges before (after.keepStore { placed with store })
      match exit with
      | .finished => return 0
      | .stopped error =>
          emit (← IO.getStderr) (CommandLine.Ending.report (.served error))
          return 1
      | .endless => stall

def machine : IO CommandLine.Machine := do
  return ⟨utf8 "none", utf8 "unknown", ← (← IO.getStdout).isTty⟩

/-- Carry out a request that is not a server's. -/
def runOnce (request : CommandLine.Request) (before : Files) : IO UInt32 := do
  let ending := request.run (← machine) [] before
  keepChanges before ending.files
  emit (← IO.getStdout) ending.output.bytes
  emit (← IO.getStderr) ending.errors
  match ending.status.code? with
  | some code => return code
  | none => stall

def runProgram (arguments : List String) : IO UInt32 := do
  match CommandLine.readRequest (arguments.map utf8) with
  | .error failure =>
      emit (← IO.getStderr) (CommandLine.Ending.report failure)
      return 1
  | .ok (.serve call) => serve call (← loadFiles)
  | .ok request => runOnce request (← loadFiles)

end Reroute

/-- The entry point. -/
def main (arguments : List String) : IO UInt32 :=
  Reroute.runProgram arguments
