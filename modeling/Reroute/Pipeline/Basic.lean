import Reroute.Config.Mode
import Reroute.Pipeline.Transformer
import Reroute.Rule.Keyword
import Reroute.SourceMap.Comment
import Reroute.Store.Handle

/-!
# The pipeline

A pipeline transforms chunks and records what it did.  What it does to a chunk is worked
out first and from the chunk alone: the result, and the list of writes that record it.
Only then are the writes carried out.

An incremental pipeline looks a chunk up before it works on it.  A stored outcome under
the same key is used again, and code that some pipeline with the same rule has put out
is left alone, so that output fed back in is not transformed twice.  A chunk without any
keyword of the rule is never transformed.
-/

namespace Reroute

/-- Code to transform, with its parent map, which is empty when there is none. -/
structure Chunk where
  path : Bytes
  content : Bytes
  map : Bytes
  provenance : Option Provenance
  deriving DecidableEq, Repr

namespace Chunk

/-- The identifier of a chunk. -/
def id (chunk : Chunk) : ChunkId :=
  ChunkId.ofContent chunk.content

/-- Where a chunk came from: the file at its path, unless stated otherwise. -/
def source (chunk : Chunk) : Provenance :=
  chunk.provenance.getD (.file chunk.path)

end Chunk

/-- What became of a chunk. -/
structure ChunkResult where
  path : Bytes
  id : ChunkId
  changed : Bool
  cached : Bool
  code : Bytes
  map : Option Bytes
  substitutions : List Substitution
  deriving DecidableEq, Repr

/-- The settings of a pipeline; without a rule it uses the builtin one. -/
structure PipelineSettings where
  mode : Bytes
  incremental : Bool
  sourcesContent : Option Bool
  rule : Option Rule
  deriving DecidableEq, Repr, Inhabited

/-- A pipeline. -/
structure Pipeline where
  mode : Mode
  rule : Rule
  incremental : Bool
  includeContent : Bool
  transform : Option Transform

namespace Pipeline

/-- Why settings make no pipeline. -/
inductive SetupError where
  | mode (error : Mode.Unknown)
  | rule (error : Rule.Error)
  deriving DecidableEq, Repr

def SetupError.message : SetupError → Bytes
  | .mode error => error.message
  | .rule error => utf8 "invalid rule: " ++ error.message

/-- The rule of some settings, checked and complete. -/
def ruleOf (settings : PipelineSettings) : Except SetupError Rule :=
  match settings.rule with
  | none => .ok Rule.builtin
  | some rule =>
      match rule.validate with
      | .error error => .error (.rule error)
      | .ok _ => .ok rule.complete

/-- Set up a pipeline. -/
def make (settings : PipelineSettings) (transform : Option Transform) :
    Except SetupError Pipeline :=
  match Mode.parse settings.mode with
  | .error error => .error (.mode error)
  | .ok mode =>
      match ruleOf settings with
      | .error error => .error error
      | .ok rule =>
          .ok
            { mode := mode
              rule := rule
              incremental := settings.incremental
              includeContent := settings.sourcesContent.getD mode.isDevelopment
              transform := transform }

/-- What a write is for. -/
inductive Purpose where
  | chunk
  | substitution
  | result
  | outputMark
  deriving DecidableEq, Repr

/-- Why a chunk could not be processed. -/
inductive Error where
  | canceled
  | defect (path : Bytes) (violation : Overlay.Violation)
  | composition (path : Bytes) (error : SourceMap.CompositionError)
  | refusal (path : Bytes) (message : Bytes)
  | breakdown (message : Bytes)
  | lookUpResult (path : Bytes) (error : StoreError)
  | lookUpOutput (path : Bytes) (error : StoreError)
  | loadSubstitutions (path : Bytes) (error : StoreError)
  | record (purpose : Purpose) (path : Bytes) (error : StoreError)
  deriving DecidableEq, Repr

/-- The error stands for a chunk on which the work never ends. -/
def Error.isEndless : Error → Bool
  | .composition _ .endless => true
  | _ => false

/-- The error stands for a chunk on which the program breaks down. -/
def Error.isBreakdown : Error → Bool
  | .breakdown _ => true
  | _ => false

/-- The wording of what could not be recorded. -/
def Purpose.message : Purpose → Bytes
  | .chunk => utf8 "storing chunk "
  | .substitution => utf8 "storing rewrite for "
  | .result => utf8 "storing result for "
  | .outputMark => utf8 "storing output record for "

def Error.message : Error → Bytes
  | .canceled => utf8 "context canceled"
  | .defect path refused =>
      utf8 "defect while rewriting " ++ path ++ utf8 ": " ++ refused.message
  | .composition path error =>
      utf8 "transforming " ++ path ++ utf8 ": "
        ++ (Rule.TransformError.composition error).message
  | .refusal path message => utf8 "transforming " ++ path ++ utf8 ": " ++ message
  | .breakdown message => message
  | .lookUpResult path error =>
      utf8 "looking up cached result for " ++ path ++ utf8 ": " ++ error.message
  | .lookUpOutput path error =>
      utf8 "looking up output record for " ++ path ++ utf8 ": " ++ error.message
  | .loadSubstitutions path error =>
      utf8 "loading rewrites for " ++ path ++ utf8 ": " ++ error.message
  | .record purpose path error => purpose.message ++ path ++ utf8 ": " ++ error.message

/-- The key of an outcome: what the outcome depends on besides the content. -/
def resultKey (pipeline : Pipeline) (chunk : Chunk) : Bytes :=
  let flag := if pipeline.includeContent then utf8 "true" else utf8 "false"
  (sha1
    (pipeline.rule.structuralId ++ 0 :: chunk.path ++ 0 :: flag ++ 0 :: chunk.map)).hex

/-- The key under which output is marked. -/
def outputKey (pipeline : Pipeline) : Bytes :=
  utf8 "output" ++ 0 :: pipeline.rule.structuralId

/-- The identifier of output, which its trailing comment does not count for. -/
def outputId (code : Bytes) : ChunkId :=
  ChunkId.ofContent (Comment.strip code)

/-- The chunk may have occurrences of the rule's pattern, judging by its keywords.  A
transform put in the rule's place gets every chunk. -/
def mayChange (pipeline : Pipeline) (content : Bytes) : Bool :=
  pipeline.transform.isSome || !(Keyword.candidates [pipeline.rule] content).isEmpty

def transformChunk (pipeline : Pipeline) (chunk : Chunk) : Except TransformFault Outcome :=
  (pipeline.transform.getD pipeline.rule.runWithParent)
    { source := [], file := chunk.path, includeContent := pipeline.includeContent }
    chunk.content chunk.map

/-- The error that a fault means for a chunk. -/
def faultOf (path : Bytes) : TransformFault → Error
  | .violation refused => .defect path refused
  | .composition error => .composition path error
  | .refusal message => .refusal path message
  | .breakdown message => .breakdown message

/-- A write and what it is for. -/
structure Recording where
  purpose : Purpose
  change : Write
  deriving DecidableEq, Repr

/-- The writes that record a result, in order. -/
def recordings (pipeline : Pipeline) (chunk : Chunk) (result : ChunkResult) :
    List Recording :=
  [⟨.chunk, .chunk result.id chunk.content.length (some chunk.source)⟩]
    ++ (result.substitutions.map fun record => ⟨.substitution, .substitution record⟩)
    ++ [⟨.result,
        .result
          { chunk := result.id, key := pipeline.resultKey chunk, changed := result.changed
            code := result.code, map := result.map }⟩]
    ++ if result.changed then
        [⟨.outputMark,
          .result
            { chunk := outputId result.code, key := pipeline.outputKey, changed := false
              code := [], map := none }⟩]
      else []

/-- A chunk that stays as it is. -/
def unchangedResult (chunk : Chunk) (cached : Bool) : ChunkResult :=
  { path := chunk.path, id := chunk.id, changed := false, cached := cached, code := []
    map := none, substitutions := [] }

/-- What is told of a breakdown at a span that is not a range of the chunk. -/
def outOfRange : Bytes :=
  utf8 "runtime error: slice bounds out of range"

/-- The result that an outcome means for a chunk. -/
def resultOf (pipeline : Pipeline) (chunk : Chunk) : Outcome → Except Error ChunkResult
  | .unchanged => .ok (unchangedResult chunk false)
  | .changed code map spans =>
      match substitutions pipeline.rule chunk.id chunk.content spans with
      | none => .error (.breakdown outOfRange)
      | some records =>
          .ok
            { path := chunk.path, id := chunk.id, changed := true, cached := false
              code := code, map := some map.json, substitutions := records }

/-- Work on a chunk, without regard to any store. -/
def work (pipeline : Pipeline) (chunk : Chunk) : Except Error ChunkResult :=
  if pipeline.mayChange chunk.content then
    match pipeline.transformChunk chunk with
    | .ok outcome => pipeline.resultOf chunk outcome
    | .error fault => .error (faultOf chunk.path fault)
  else .ok (unchangedResult chunk false)

/-- Carry out writes up to the first that fails. -/
def carryOut (path : Bytes) : List Recording → Store → Except Error Unit × Store
  | [], store => (.ok (), store)
  | recording :: rest, store =>
      match store.write recording.change with
      | (.ok _, after) => carryOut path rest after
      | (.error error, after) => (.error (.record recording.purpose path error), after)

/-- Work on a chunk and record the result. -/
def workAndRecord (pipeline : Pipeline) (chunk : Chunk) (store : Store) :
    Except Error ChunkResult × Store :=
  match pipeline.work chunk with
  | .error error => (.error error, store)
  | .ok result =>
      match carryOut chunk.path (pipeline.recordings chunk result) store with
      | (.ok _, after) => (.ok result, after)
      | (.error error, after) => (.error error, after)

/-- The result that a stored outcome means for a chunk, without replaced occurrences. -/
def cachedResult (chunk : Chunk) (stored : StoredResult) : ChunkResult :=
  { path := chunk.path, id := chunk.id, changed := stored.changed, cached := true
    code := stored.code, map := stored.map, substitutions := [] }

/-- A result with those of some replaced occurrences that are stored for the pipeline's own
rule. -/
def withSubstitutions (pipeline : Pipeline) (result : ChunkResult)
    (records : List Substitution) : ChunkResult :=
  { result with
    substitutions := records.filter fun record => record.ruleId == pipeline.rule.id }

/-- Use a stored outcome again, and record the chunk. -/
def reuse (pipeline : Pipeline) (chunk : Chunk) (stored : StoredResult) (store : Store) :
    Except Error ChunkResult × Store :=
  match store.write (.chunk chunk.id chunk.content.length (some chunk.source)) with
  | (.error error, store) => (.error (.record .chunk chunk.path error), store)
  | (.ok _, store) =>
      if stored.changed then
        match store.getSubstitutions chunk.id with
        | (.error error, store) => (.error (.loadSubstitutions chunk.path error), store)
        | (.ok records, store) =>
            (.ok (pipeline.withSubstitutions (cachedResult chunk stored) records), store)
      else (.ok (cachedResult chunk stored), store)

/-- Look a chunk up and work on it only if it is new. -/
def processIncremental (pipeline : Pipeline) (chunk : Chunk) (store : Store) :
    Except Error ChunkResult × Store :=
  match store.getResult chunk.id (pipeline.resultKey chunk) with
  | (.ok stored, store) => pipeline.reuse chunk stored store
  | (.error .notFound, store) =>
      match store.getResult (outputId chunk.content) pipeline.outputKey with
      | (.ok _, store) => (.ok (unchangedResult chunk true), store)
      | (.error .notFound, store) => pipeline.workAndRecord chunk store
      | (.error error, store) => (.error (.lookUpOutput chunk.path error), store)
  | (.error error, store) => (.error (.lookUpResult chunk.path error), store)

/-- Process a chunk. -/
def process (pipeline : Pipeline) (chunk : Chunk) (store : Store) :
    Except Error ChunkResult × Store :=
  if pipeline.incremental then pipeline.processIncremental chunk store
  else pipeline.workAndRecord chunk store

/-- Process a chunk unless processing has been canceled. -/
def processUnless (canceled : Bool) (pipeline : Pipeline) (chunk : Chunk) (store : Store) :
    Except Error ChunkResult × Store :=
  if canceled then (.error .canceled, store) else pipeline.process chunk store

/-- Process chunks in order.  The first error ends the batch, and the chunks after it
are not processed.  Processing may be canceled in front of any chunk. -/
def processBatch (cancelAt : Option Nat) (pipeline : Pipeline) :
    List Chunk → Store → Except Error (List ChunkResult) × Store
  | [], store => (.ok [], store)
  | chunk :: chunks, store =>
      match pipeline.processUnless (cancelAt == some 0) chunk store with
      | (.error error, store) => (.error error, store)
      | (.ok result, store) =>
          match processBatch (cancelAt.map Nat.pred) pipeline chunks store with
          | (.error error, store) => (.error error, store)
          | (.ok results, store) => (.ok (result :: results), store)

/-- A way to bring the results of a batch together. -/
abbrev Gather :=
  Pipeline → List Chunk → Store → Except Error (List ChunkResult) × Store

end Pipeline

end Reroute
