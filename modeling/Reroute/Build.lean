import Reroute.Config.Basic
import Reroute.Pipeline.Basic
import Reroute.Store.Site

/-!
# Builds

A build is a pipeline with the store it records in.  Its chunks are handed over by a
bundler, one by one or in batches, or read from files together with the maps beside them.
Nothing is written back.
-/

namespace Reroute

/-- The settings of a build. -/
structure BuildOptions where
  pipeline : PipelineSettings
  storePath : Bytes
  deriving DecidableEq, Repr

/-- A build. -/
structure Build where
  pipeline : Pipeline
  placed : PlacedStore

namespace Build

/-- Why there is no build. -/
inductive Error where
  | store (error : StoreError)
  | setup (error : Pipeline.SetupError)
  deriving DecidableEq, Repr

def Error.message : Error → Bytes
  | .store error => utf8 "creating store: " ++ error.message
  | .setup error => error.message

def start (options : BuildOptions) (files : Files) : Except Error Build × Files :=
  match files.openStore options.storePath with
  | (.error error, files) => (.error (.store error), files)
  | (.ok placed, files) =>
      match Pipeline.make options.pipeline none with
      | .error error => (.error (.setup error), files)
      | .ok pipeline => (.ok ⟨pipeline, placed⟩, files)

/-- The build with another state of its store. -/
def withStore (build : Build) (store : Store) : Build :=
  { build with placed := { build.placed with store := store } }

/-- Transform a chunk that a bundler hands over. -/
def transform (build : Build) (fileName code map : Bytes) :
    Except Pipeline.Error ChunkResult × Build :=
  let chunk : Chunk := ⟨fileName, code, map, some (.hook fileName)⟩
  let (answer, store) := build.pipeline.process chunk build.placed.store
  (answer, build.withStore store)

/-- Why a file is not transformed. -/
inductive FileFailure where
  | chunk
  | map
  | pipeline (error : Pipeline.Error)
  deriving DecidableEq, Repr

def FileFailure.message : FileFailure → Bytes
  | .chunk => utf8 "reading chunk: " ++ FileError.missing.message
  | .map => utf8 "reading source map: " ++ FileError.missing.message
  | .pipeline error => error.message

/-- Read the chunk at a path, with the map beside it if there is one. -/
def readChunk (files : Files) (path : Bytes) : Except FileFailure Chunk :=
  match files.read path with
  | .error _ => .error .chunk
  | .ok content =>
      match files.read (path ++ Config.defaultMapSuffix) with
      | .ok map => .ok ⟨path, content, map, none⟩
      | .error .missing => .ok ⟨path, content, [], none⟩
      | .error _ => .error .map

/-- Transform the chunk at a path. -/
def transformFile (build : Build) (files : Files) (path : Bytes) :
    Except FileFailure ChunkResult × Build :=
  match readChunk files path with
  | .error failure => (.error failure, build)
  | .ok chunk =>
      match build.pipeline.process chunk build.placed.store with
      | (.ok result, store) => (.ok result, build.withStore store)
      | (.error error, store) => (.error (.pipeline error), build.withStore store)

/-- Transform chunks in order. -/
def transformBatch (build : Build) (chunks : List Chunk) :
    Except Pipeline.Error (List ChunkResult) × Build :=
  let (answer, store) :=
    Pipeline.processBatch none build.pipeline chunks build.placed.store
  (answer, build.withStore store)

def close (build : Build) : Build :=
  build.withStore build.placed.store.close

end Build

end Reroute
