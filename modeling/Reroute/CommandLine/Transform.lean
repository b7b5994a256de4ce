import Reroute.CommandLine.Failure
import Reroute.Pipeline.Report

/-!
# Transforming built files

The chunk files of a target are transformed as one batch and the results are written in
place or below another directory.  What is written for a chunk is worked out first, as a
list of files with their contents: the map and then the code, which names its map.  A
chunk that stays as it is is not written in place, but is copied with its map elsewhere.
-/

namespace Reroute

def Config.pipeline (config : Config) : Pipeline :=
  { mode := config.mode
    rule := Rule.builtin
    incremental := config.incremental
    includeContent := config.includesContent
    transform := none }

def Config.search (config : Config) (target : Bytes) : ChunkSearch :=
  { root := target
    extensions := config.extensions
    mapSuffix := config.mapSuffix
    includeHidden := config.includeHidden
    maxFileSize := config.maxFileSize
    followLinks := false
    readers := config.workers }

namespace CommandLine

/-- A file to write. -/
structure FileWrite where
  path : Bytes
  content : Bytes
  deriving DecidableEq, Repr

/-- The name of a chunk in maps and below the output directory: its path below the target
directory, or its own name if the target is a file. -/
def chunkName (target : Bytes) (isDirectory : Bool) (path : Bytes) : Bytes :=
  if isDirectory then (Path.below? target path).getD (Path.base path) else Path.base path

/-- Where the code of a chunk is written. -/
def destination (config : Config) (file : ChunkFile) (name : Bytes) : Bytes :=
  if config.outDir.isEmpty then file.path else Path.join [config.outDir, name]

/-- What is written for a chunk that stays as it is. -/
def copies (config : Config) (file : ChunkFile) (place : Bytes) : List FileWrite :=
  if place == file.path then []
  else
    ⟨place, file.content⟩
      :: match file.map with
        | some map => [⟨place ++ config.mapSuffix, map⟩]
        | none => []

/-- What is written for a chunk that was changed. -/
def outputs (config : Config) (result : ChunkResult) (place : Bytes) :
    Except Failure (List FileWrite) :=
  let map := result.map.getD []
  if config.inlineMap then
    match SourceMap.parse map with
    | .error error => .error (.inlineMap result.path error)
    | .ok document => .ok [⟨place, Comment.set result.code document.dataUrl⟩]
  else
    let mapPlace := place ++ config.mapSuffix
    .ok [⟨mapPlace, map⟩, ⟨place, Comment.set result.code (Path.base mapPlace)⟩]

/-- What is written for a chunk, in order. -/
def writesFor (config : Config) (file : ChunkFile) (result : ChunkResult) :
    Except Failure (List FileWrite) :=
  let place := destination config file result.path
  if result.changed then outputs config result place else .ok (copies config file place)

/-- Write a file and make the directories it lies in. -/
def writeOne (write : FileWrite) (files : Files) : Except Failure Unit × Files :=
  match files.makeDirectories (Path.directory write.path) with
  | .error _ => (.error (.directory write.path), files)
  | .ok files =>
      match files.write write.path write.content with
      | .error _ => (.error (.file write.path), files)
      | .ok files => (.ok (), files)

/-- Write files up to the first that fails. -/
def writeAll : List FileWrite → Files → Except Failure Unit × Files
  | [], files => (.ok (), files)
  | write :: writes, files =>
      match writeOne write files with
      | (.ok _, files) => writeAll writes files
      | (.error failure, files) => (.error failure, files)

/-- Write the results of chunk files in order. -/
def writeResults (config : Config) :
    List (ChunkFile × ChunkResult) → Files → Except Failure Unit × Files
  | [], files => (.ok (), files)
  | (file, result) :: rest, files =>
      match writesFor config file result with
      | .error failure => (.error failure, files)
      | .ok writes =>
          match writeAll writes files with
          | (.error failure, files) => (.error failure, files)
          | (.ok _, files) => writeResults config rest files

/-- How a transform is asked for. -/
structure TransformCall where
  target : Bytes
  configPath : Bytes
  outDir : Bytes
  format : Bytes
  mode : Bytes
  store : Bytes
  incremental : Bool
  inlineMap : Bool
  includeHidden : Bool
  workers : Int
  deriving DecidableEq, Repr

namespace TransformCall

def ofArguments (target : Bytes) (arguments : Arguments) : TransformCall :=
  { target := target
    configPath := arguments.text "config" []
    outDir := arguments.text "out-dir" []
    format := arguments.text "format" (utf8 "human")
    mode := arguments.text "mode" []
    store := arguments.text "store" []
    incremental := arguments.isOn "incremental"
    inlineMap := arguments.isOn "inline-map"
    includeHidden := arguments.isOn "include-hidden"
    workers := arguments.integer "workers" 0 }

/-- The mode that is asked for, or that of the configuration. -/
def modeOver (call : TransformCall) (config : Config) : Except Mode.Unknown Mode :=
  if call.mode.isEmpty then .ok config.mode else Mode.parse call.mode

/-- The configuration with what the call asks for. -/
def applyTo (call : TransformCall) (config : Config) : Except Mode.Unknown Config :=
  match call.modeOver config with
  | .error error => .error error
  | .ok mode =>
      .ok
        { config with
          mode := mode
          storePath := if call.store.isEmpty then config.storePath else call.store
          outDir := if call.outDir.isEmpty then config.outDir else call.outDir
          incremental := config.incremental || call.incremental
          inlineMap := config.inlineMap || call.inlineMap
          includeHidden := config.includeHidden || call.includeHidden
          workers := if 0 < call.workers then some call.workers else config.workers }

/-- The results are written as JSON. -/
def isJson (call : TransformCall) : Bool :=
  call.format == utf8 "json"

/-- The target, whether it is a directory, and the configuration. -/
def prepare (call : TransformCall) (files : Files) : Except Failure (Bool × Config) :=
  match files.stat call.target with
  | .error _ => .error (.target call.target)
  | .ok entry =>
      if call.format != utf8 "human" && !call.isJson then .error (.format call.format)
      else
        match Config.load files call.configPath with
        | .error error => .error (.config error)
        | .ok config =>
            match call.applyTo config with
            | .error error => .error (.settings error)
            | .ok config => .ok (entry.isDirectory, config)

end TransformCall

def chunkOf (target : Bytes) (isDirectory : Bool) (file : ChunkFile) : Chunk :=
  ⟨chunkName target isDirectory file.path, file.content, file.map.getD [],
    some file.provenance⟩

/-- The line that sums a batch up, and the line that names the store. -/
def summary (config : Config) (results : List ChunkResult) : Bytes :=
  utf8 "Rewrite complete: " ++ Numeral.ofNat results.length ++ utf8 " chunks, "
    ++ Numeral.ofNat (Batch.changed results) ++ utf8 " rewritten, "
    ++ Numeral.ofNat (Batch.unchanged results) ++ utf8 " unchanged, "
    ++ Numeral.ofNat (Batch.substitutions results) ++ utf8 " rewrites"
    ++ (if config.incremental then
        utf8 " (" ++ Numeral.ofNat (Batch.cached results) ++ utf8 " cached)"
      else [])
    ++ utf8 "\n"
    ++ if config.storePath == memoryPath then []
      else utf8 "Results stored in: " ++ config.storePath ++ utf8 "\n"

/-- The line of a changed chunk in a numbered list. -/
def listedChunk (number : Nat) (result : ChunkResult) : Bytes :=
  Numeral.ofNat number ++ utf8 ". " ++ result.path ++ utf8 " ("
    ++ Numeral.ofNat result.substitutions.length ++ utf8 " rewrites)\n"

def changedList (results : List ChunkResult) : Bytes :=
  let changed := results.filter fun result => result.changed
  if changed.isEmpty then utf8 "\nNo chunks rewritten.\n"
  else
    utf8 "\nRewritten chunks:\n"
      ++ changed.zipIdx.flatMap fun (result, index) => listedChunk (index + 1) result

/-- Search the target and transform what is found, with an open store. -/
def transformFilesBy (gather : Pipeline.Gather) (call : TransformCall) (isDirectory : Bool)
    (config : Config) (files : Files) (store : Store) :
    Except Failure (List (ChunkFile × ChunkResult)) × Store :=
  match (config.search call.target).run files false with
  | .error error => (.error (.search error), store)
  | .ok found =>
      let sorted := ChunkFile.sort found
      let chunks := sorted.map (chunkOf call.target isDirectory)
      match gather config.pipeline chunks store with
      | (.error error, store) => (.error (.batch error), store)
      | (.ok results, store) => (.ok (sorted.zip results), store)

/-- Search the target and transform what is found, one chunk after the other. -/
def transformFiles (call : TransformCall) (isDirectory : Bool) (config : Config)
    (files : Files) (store : Store) :
    Except Failure (List (ChunkFile × ChunkResult)) × Store :=
  transformFilesBy (Pipeline.processBatch none) call isDirectory config files store

/-- What a transform shows: the results, and the summary apart from them. -/
structure Shown where
  output : Bytes
  errors : Bytes
  deriving DecidableEq, Repr

/-- What is shown of some results.  The summary does not mix with JSON. -/
def showResults (call : TransformCall) (config : Config) (results : List ChunkResult) :
    Shown :=
  if call.isJson then ⟨(Batch.value results).document, summary config results⟩
  else ⟨summary config results ++ changedList results, []⟩

def TransformCall.runBy (gather : Pipeline.Gather) (call : TransformCall) (files : Files) :
    Except Failure Shown × Files :=
  match call.prepare files with
  | .error failure => (.error failure, files)
  | .ok (isDirectory, config) =>
      match files.openStore config.storePath with
      | (.error error, files) => (.error (.store error), files)
      | (.ok placed, files) =>
          let (answer, store) :=
            transformFilesBy gather call isDirectory config files placed.store
          let files := files.keepStore { placed with store := store }
          match answer with
          | .error failure => (.error failure, files)
          | .ok pairs =>
              match writeResults config pairs files with
              | (.error failure, files) => (.error failure, files)
              | (.ok _, files) =>
                  (.ok (showResults call config (pairs.map Prod.snd)), files)

/-- Run a call that transforms its chunks one after the other. -/
def TransformCall.run (call : TransformCall) (files : Files) :
    Except Failure Shown × Files :=
  call.runBy (Pipeline.processBatch none) files

end CommandLine

end Reroute
