import Reroute.Store.Basic

/-!
# The store in memory

A chunk lists each path once, whatever kind of source named it.  Replaced occurrences are
listed by chunk and start; those that agree on both stay in the order of recording.
-/

namespace Reroute

/-- A chunk with its paths in the order of recording. -/
structure SeenChunk where
  id : ChunkId
  size : Int
  paths : List Bytes
  deriving DecidableEq, Repr

/-- A store that lives as long as the process. -/
structure MemoryStore where
  chunks : List SeenChunk
  substitutions : List Substitution
  results : List StoredResult
  deriving DecidableEq, Repr

namespace MemoryStore

/-- A store without records. -/
def empty : MemoryStore :=
  ⟨[], [], []⟩

/-- Add a path unless it is listed already. -/
def addPath (path : Bytes) (paths : List Bytes) : List Bytes :=
  if paths.contains path then paths else paths ++ [path]

/-- The paths of a chunk after it was seen at one more place. -/
def addProvenance (provenance : Option Provenance) (paths : List Bytes) : List Bytes :=
  match provenance with
  | none => paths
  | some provenance => addPath provenance.path paths

/-- Record that a chunk was seen.  Its size stays as first recorded. -/
def addChunk (id : ChunkId) (size : Int) (provenance : Option Provenance) :
    List SeenChunk → List SeenChunk
  | [] => [⟨id, size, addProvenance provenance []⟩]
  | chunk :: chunks =>
      if chunk.id == id then
        { chunk with paths := addProvenance provenance chunk.paths } :: chunks
      else chunk :: addChunk id size provenance chunks

/-- Carry out a change. -/
def write (store : MemoryStore) : Write → MemoryStore
  | .chunk id size provenance =>
      { store with chunks := addChunk id size provenance store.chunks }
  | .substitution record =>
      { store with
        substitutions := insertFirst Substitution.sameKey record store.substitutions }
  | .result result => { store with results := replaceResult result store.results }

/-- The outcome for a chunk under a key. -/
def result? (store : MemoryStore) (chunk : ChunkId) (key : Bytes) : Option StoredResult :=
  findResult? chunk key store.results

/-- All replaced occurrences. -/
def allSubstitutions (store : MemoryStore) : List Substitution :=
  store.substitutions.mergeSort Substitution.notAfter

/-- The occurrences replaced in a chunk. -/
def substitutionsOf (store : MemoryStore) (chunk : ChunkId) : List Substitution :=
  (store.substitutions.filter fun record => record.chunk == chunk).mergeSort
    Substitution.notAfter

def chunkRecords (store : MemoryStore) : List ChunkRecord :=
  sortChunks (store.chunks.map fun chunk => ⟨chunk.id, chunk.size, Bytes.sort chunk.paths⟩)

def hasChunk (store : MemoryStore) (id : ChunkId) : Bool :=
  store.chunks.any fun chunk => chunk.id == id

end MemoryStore

end Reroute
