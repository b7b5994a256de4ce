import Reroute.Rule.Occurrence

/-!
# What stores record

A store keeps three kinds of facts: which chunks were seen and where, which occurrences
were replaced in them, and the outcome of transforming a chunk under a key.  The writes
below are all that ever changes a store, so a history of a store is a list of writes.

Two records are the same record when they agree on a few of their fields.  Chunks, places
and replaced occurrences stay as first recorded, while an outcome is replaced by a later
one for the same chunk and key.
-/

namespace Reroute

/-- The path that stands for a store in memory. -/
def memoryPath : Bytes :=
  utf8 ":memory:"

/-- Where a chunk came from: a file, or a bundler that named it. -/
inductive Provenance where
  | file (path : Bytes)
  | hook (path : Bytes)
  deriving DecidableEq, Repr

namespace Provenance

def path : Provenance → Bytes
  | .file path => path
  | .hook path => path

/-- The word for the kind of source. -/
def label : Provenance → Bytes
  | .file _ => utf8 "file"
  | .hook _ => utf8 "hook"

end Provenance

/-- A chunk that was seen, with every path it was seen at. -/
structure ChunkRecord where
  id : ChunkId
  size : Int
  paths : List Bytes
  deriving DecidableEq, Repr

/-- The outcome of transforming a chunk; the key stands for the rule and the options. -/
structure StoredResult where
  chunk : ChunkId
  key : Bytes
  changed : Bool
  code : Bytes
  map : Option Bytes
  deriving DecidableEq, Repr

/-- One change of a store. -/
inductive Write where
  | chunk (id : ChunkId) (size : Int) (provenance : Option Provenance)
  | substitution (record : Substitution)
  | result (result : StoredResult)
  deriving DecidableEq, Repr

/-- The two records concern the same occurrence: they agree on chunk, rule and start. -/
def Substitution.sameKey (left right : Substitution) : Bool :=
  left.chunk == right.chunk && left.ruleId == right.ruleId
    && left.offset.start == right.offset.start

/-- The two outcomes stand at the same place: they agree on chunk and key. -/
def StoredResult.sameKey (left right : StoredResult) : Bool :=
  left.chunk == right.chunk && left.key == right.key

/-- Add a record unless the same one is there already. -/
def insertFirst {α : Type} (same : α → α → Bool) (record : α) (records : List α) : List α :=
  if records.any (same record) then records else records ++ [record]

/-- Put an outcome in place of any earlier one at its place. -/
def replaceResult (result : StoredResult) (results : List StoredResult) :
    List StoredResult :=
  results.filter (fun old => !result.sameKey old) ++ [result]

/-- The outcome for a chunk under a key. -/
def findResult? (chunk : ChunkId) (key : Bytes) (results : List StoredResult) :
    Option StoredResult :=
  results.find? fun result => result.chunk == chunk && result.key == key

/-- Order by chunk and then by start. -/
def Substitution.notAfter (left right : Substitution) : Bool :=
  if left.chunk == right.chunk then decide (left.offset.start ≤ right.offset.start)
  else left.chunk.notAfter right.chunk

/-- Order by chunk, then by start, then by rule. -/
def Substitution.notAfterWithRule (left right : Substitution) : Bool :=
  if left.chunk == right.chunk && left.offset.start == right.offset.start then
    Bytes.notAfter left.ruleId right.ruleId
  else left.notAfter right

/-- Chunk records in the order of their identifiers. -/
def sortChunks (records : List ChunkRecord) : List ChunkRecord :=
  records.mergeSort fun left right => left.id.notAfter right.id

end Reroute
