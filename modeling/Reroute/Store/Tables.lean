import Reroute.Store.Basic

/-!
# The tables of a store file

A store file has four tables.  A place belongs to a chunk together with the kind of its
source, so a path named by a file and by a bundler counts twice.  Replaced occurrences
are listed by chunk, start and rule, whatever the order of recording.

Chunks are listed from the chunks joined with their places: the joined rows are sorted, and
neighbouring rows of the same chunk make one record.

Each table is of rows of its own kind, which are told apart in a way of their own.  All are
copied alike.
-/

namespace Reroute

/-- A row that says where a chunk came from. -/
structure Place where
  chunk : ChunkId
  provenance : Provenance
  deriving DecidableEq, Repr

/-- A row that says how large a chunk is. -/
structure ChunkSize where
  id : ChunkId
  size : Int
  deriving DecidableEq, Repr

/-- The two rows concern the same chunk. -/
def ChunkSize.sameKey (left right : ChunkSize) : Bool :=
  left.id == right.id

/-- A chunk joined with one of its paths, or with none if it has no place. -/
structure Sighting where
  chunk : ChunkSize
  path : Option Bytes
  deriving DecidableEq, Repr

namespace Sighting

/-- Order of paths, of which none comes first. -/
def pathNotAfter : Option Bytes → Option Bytes → Bool
  | none, _ => true
  | some _, none => false
  | some left, some right => Bytes.notAfter left right

/-- Order by chunk and then by path. -/
def notAfter (left right : Sighting) : Bool :=
  if left.chunk.id == right.chunk.id then pathNotAfter left.path right.path
  else left.chunk.id.notAfter right.chunk.id

/-- The record that a sighting starts. -/
def record (sighting : Sighting) : ChunkRecord :=
  ⟨sighting.chunk.id, sighting.chunk.size, sighting.path.toList⟩

/-- Add a sighting to records that are kept latest first.  It goes on with the latest record
if that is of the same chunk. -/
def gather (records : List ChunkRecord) (sighting : Sighting) : List ChunkRecord :=
  match records with
  | [] => [sighting.record]
  | latest :: earlier =>
      if latest.id == sighting.chunk.id then
        { latest with paths := latest.paths ++ sighting.path.toList } :: earlier
      else sighting.record :: latest :: earlier

end Sighting

/-- The outcome as a row, which does not tell an empty map from none. -/
def StoredResult.withoutEmptyMap (result : StoredResult) : StoredResult :=
  { result with map := result.map.filter fun text => !text.isEmpty }

/-- The rows of a store file, each table in the order of recording, and the version of
the layout. -/
structure Tables where
  version : Int
  chunks : List ChunkSize
  places : List Place
  substitutions : List Substitution
  results : List StoredResult
  deriving DecidableEq, Repr

namespace Tables

/-- The version of the layout that is in use. -/
def currentVersion : Int := 1

/-- Tables without rows. -/
def empty : Tables :=
  ⟨currentVersion, [], [], [], []⟩

/-- Add the place of a chunk, if one is given. -/
def addPlace (id : ChunkId) (provenance : Option Provenance) (places : List Place) :
    List Place :=
  match provenance with
  | none => places
  | some provenance => insertFirst (· == ·) ⟨id, provenance⟩ places

/-- Carry out a change. -/
def write (tables : Tables) : Write → Tables
  | .chunk id size provenance =>
      { tables with
        chunks := insertFirst ChunkSize.sameKey ⟨id, size⟩ tables.chunks
        places := addPlace id provenance tables.places }
  | .substitution record =>
      { tables with
        substitutions := insertFirst Substitution.sameKey record tables.substitutions }
  | .result result =>
      { tables with results := replaceResult result.withoutEmptyMap tables.results }

/-- The outcome for a chunk under a key. -/
def result? (tables : Tables) (chunk : ChunkId) (key : Bytes) : Option StoredResult :=
  findResult? chunk key tables.results

/-- All replaced occurrences. -/
def allSubstitutions (tables : Tables) : List Substitution :=
  tables.substitutions.mergeSort Substitution.notAfterWithRule

/-- The occurrences replaced in a chunk. -/
def substitutionsOf (tables : Tables) (chunk : ChunkId) : List Substitution :=
  (tables.substitutions.filter fun record => record.chunk == chunk).mergeSort
    Substitution.notAfterWithRule

/-- The places of a chunk, in the order of recording. -/
def placesOf (tables : Tables) (id : ChunkId) : List Place :=
  tables.places.filter fun place => place.chunk == id

/-- A chunk joined with its places. -/
def sightingsOf (tables : Tables) (chunk : ChunkSize) : List Sighting :=
  match tables.placesOf chunk.id with
  | [] => [⟨chunk, none⟩]
  | places => places.map fun place => ⟨chunk, some place.provenance.path⟩

def chunkRecords (tables : Tables) : List ChunkRecord :=
  let sightings := tables.chunks.flatMap tables.sightingsOf
  ((sightings.mergeSort Sighting.notAfter).foldl Sighting.gather []).reverse

def hasChunk (tables : Tables) (id : ChunkId) : Bool :=
  tables.chunks.any fun row => row.id == id

/-- The tables by name. -/
inductive Name where
  | chunks
  | places
  | substitutions
  | results
  deriving DecidableEq, Repr

def Name.label : Name → Bytes
  | .chunks => utf8 "chunks"
  | .places => utf8 "provenance"
  | .substitutions => utf8 "rewrites"
  | .results => utf8 "results"

/-- How many rows of each table were new. -/
structure Gained where
  chunks : Nat
  places : Nat
  substitutions : Nat
  results : Nat
  deriving DecidableEq, Repr

/-- No new rows. -/
def Gained.none : Gained :=
  ⟨0, 0, 0, 0⟩

/-- Count new rows together. -/
def Gained.add (left right : Gained) : Gained :=
  ⟨left.chunks + right.chunks, left.places + right.places,
    left.substitutions + right.substitutions, left.results + right.results⟩

end Tables

/-- How one table is copied: its rows, which of them count as the same, and where copied rows
and their number are put. -/
structure TableCopy where
  name : Tables.Name
  Row : Type
  rows : Tables → List Row
  same : Row → Row → Bool
  put : List Row → Tables → Tables
  count : Nat → Tables.Gained → Tables.Gained

/-- The tables in the order in which they are copied. -/
def TableCopy.all : List TableCopy :=
  [⟨.chunks, ChunkSize, Tables.chunks, ChunkSize.sameKey,
      fun rows tables => { tables with chunks := rows },
      fun number gained => { gained with chunks := number }⟩,
    ⟨.places, Place, Tables.places, (· == ·),
      fun rows tables => { tables with places := rows },
      fun number gained => { gained with places := number }⟩,
    ⟨.substitutions, Substitution, Tables.substitutions, Substitution.sameKey,
      fun rows tables => { tables with substitutions := rows },
      fun number gained => { gained with substitutions := number }⟩,
    ⟨.results, StoredResult, Tables.results, StoredResult.sameKey,
      fun rows tables => { tables with results := rows },
      fun number gained => { gained with results := number }⟩]

/-- A table that rows are copied into, and how many of them it took. -/
structure Copy (α : Type) where
  rows : List α
  taken : Nat
  deriving DecidableEq, Repr

namespace Copy

variable {α : Type}

/-- Take a row, unless its key is there already. -/
def insert (same : α → α → Bool) (copy : Copy α) (row : α) : Copy α :=
  if copy.rows.any (same row) then copy else ⟨copy.rows ++ [row], copy.taken + 1⟩

/-- Take rows one after the other, and say whether all of them were copied.  A table that may not
be written takes none.  If there is a limit, no further row can be read behind so many of them,
and neither can it be seen that there is none. -/
def run (same : α → α → Bool) (writable : Bool) (limit : Option Nat) (rows : List α)
    (copy : Copy α) : Copy α × Bool :=
  match rows with
  | [] => (copy, limit.isNone)
  | row :: rows =>
      if limit == some 0 || !writable then (copy, false)
      else run same writable (limit.map Nat.pred) rows (copy.insert same row)

end Copy

end Reroute
