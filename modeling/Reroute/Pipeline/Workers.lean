import Mathlib.Logic.Relation
import Reroute.Pipeline.Basic

/-!
# Workers

The chunks of a batch are handed over in order, each to a worker that becomes free, and only so
many workers are busy at a time.  Busy workers take turns at the store, one call each.  The
first of them to fail cancels the batch, and then those that have not begun yet fail as well;
those that have begun go on.  A batch is over when all its workers are.

A worker may also break down, and the program with it, or never come to an end, and then the
batch does not either.
-/

namespace Reroute.Pipeline

/-- What a worker is about to do with its chunk. -/
inductive Task where
  | arrive
  | lookUpResult
  | lookUpOutput
  | work
  | record (pending : List Recording) (result : ChunkResult)
  | reuse (stored : StoredResult)
  | load (result : ChunkResult)
  | done (answer : Except Error ChunkResult)

namespace Task

/-- Do the next thing, which takes at most one call of the store. -/
def step (pipeline : Pipeline) (canceled : Bool) (chunk : Chunk) (task : Task) (store : Store) :
    Task × Store :=
  match task with
  | .arrive =>
      if canceled then (.done (.error .canceled), store)
      else if pipeline.incremental then (.lookUpResult, store)
      else (.work, store)
  | .lookUpResult =>
      match store.getResult chunk.id (pipeline.resultKey chunk) with
      | (.ok stored, store) => (.reuse stored, store)
      | (.error .notFound, store) => (.lookUpOutput, store)
      | (.error error, store) => (.done (.error (.lookUpResult chunk.path error)), store)
  | .lookUpOutput =>
      match store.getResult (outputId chunk.content) pipeline.outputKey with
      | (.ok _, store) => (.done (.ok (unchangedResult chunk true)), store)
      | (.error .notFound, store) => (.work, store)
      | (.error error, store) => (.done (.error (.lookUpOutput chunk.path error)), store)
  | .work =>
      match pipeline.work chunk with
      | .error error => (.done (.error error), store)
      | .ok result => (.record (pipeline.recordings chunk result) result, store)
  | .record [] result => (.done (.ok result), store)
  | .record (recording :: pending) result =>
      match store.write recording.change with
      | (.ok _, store) => (.record pending result, store)
      | (.error error, store) =>
          (.done (.error (.record recording.purpose chunk.path error)), store)
  | .reuse stored =>
      match store.write (.chunk chunk.id chunk.content.length (some chunk.source)) with
      | (.error error, store) => (.done (.error (.record .chunk chunk.path error)), store)
      | (.ok _, store) =>
          if stored.changed then (.load (cachedResult chunk stored), store)
          else (.done (.ok (cachedResult chunk stored)), store)
  | .load result =>
      match store.getSubstitutions chunk.id with
      | (.error error, store) => (.done (.error (.loadSubstitutions chunk.path error)), store)
      | (.ok records, store) => (.done (.ok (pipeline.withSubstitutions result records)), store)
  | .done answer => (.done answer, store)

def isDone : Task → Bool
  | .done _ => true
  | _ => false

end Task

/-- A worker: busy with a chunk, or finished. -/
inductive Worker where
  | busy (chunk : Chunk) (task : Task)
  | finished (answer : Except Error ChunkResult)

def Worker.isBusy : Worker → Bool
  | .busy _ _ => true
  | .finished _ => false

/-- A batch at work: the chunks that wait, the workers of those before them in the order of the
chunks, the first failure, and the store. -/
structure Group where
  waiting : List Chunk
  workers : List Worker
  failure : Option Error
  store : Store

namespace Group

def start (chunks : List Chunk) (store : Store) : Group :=
  ⟨chunks, [], none, store⟩

/-- How many workers may be busy at a time: as many as asked for, and at least one. -/
def capacity (asked : Int) : Nat :=
  max 1 asked.toNat

def busyCount (workers : List Worker) : Nat :=
  workers.countP Worker.isBusy

/-- One thing that can happen next. -/
inductive Step (asked : Int) (pipeline : Pipeline) : Group → Group → Prop where
  | handOver {chunk : Chunk} {waiting : List Chunk} {workers : List Worker}
      {failure : Option Error} {store : Store} :
      busyCount workers < capacity asked →
      Step asked pipeline ⟨chunk :: waiting, workers, failure, store⟩
        ⟨waiting, workers ++ [.busy chunk .arrive], failure, store⟩
  | advance {waiting : List Chunk} {before after : List Worker} {chunk : Chunk} {task : Task}
      {failure : Option Error} {store : Store} :
      task.isDone = false →
      Step asked pipeline ⟨waiting, before ++ .busy chunk task :: after, failure, store⟩
        ⟨waiting,
          before ++ .busy chunk (task.step pipeline failure.isSome chunk store).1 :: after,
          failure, (task.step pipeline failure.isSome chunk store).2⟩
  | succeed {waiting : List Chunk} {before after : List Worker} {chunk : Chunk}
      {result : ChunkResult} {failure : Option Error} {store : Store} :
      Step asked pipeline
        ⟨waiting, before ++ .busy chunk (.done (.ok result)) :: after, failure, store⟩
        ⟨waiting, before ++ .finished (.ok result) :: after, failure, store⟩
  | fail {waiting : List Chunk} {before after : List Worker} {chunk : Chunk} {error : Error}
      {failure : Option Error} {store : Store} :
      error.isBreakdown = false → error.isEndless = false →
      Step asked pipeline
        ⟨waiting, before ++ .busy chunk (.done (.error error)) :: after, failure, store⟩
        ⟨waiting, before ++ .finished (.error error) :: after, failure.or (some error), store⟩

/-- What a batch comes to.  It gives its results if all workers succeeded, and the first failure
otherwise.  A breakdown ends it at once.  It stands still when nothing but work that never ends
is left. -/
inductive Ends (asked : Int) : Group → Except Error (List ChunkResult) → Prop where
  | succeeded {results : List ChunkResult} {store : Store} :
      Ends asked ⟨[], results.map fun result => .finished (.ok result), none, store⟩ (.ok results)
  | failed {workers : List Worker} {error : Error} {store : Store} :
      busyCount workers = 0 → Ends asked ⟨[], workers, some error, store⟩ (.error error)
  | brokeDown {group : Group} {chunk : Chunk} {message : Bytes} :
      .busy chunk (.done (.error (.breakdown message))) ∈ group.workers →
      Ends asked group (.error (.breakdown message))
  | endless {group : Group} {chunk : Chunk} {error : Error} :
      .busy chunk (.done (.error error)) ∈ group.workers → error.isEndless = true →
      (∀ other task, .busy other task ∈ group.workers →
        ∃ cause : Error, task = .done (.error cause) ∧ cause.isEndless = true) →
      (group.waiting = [] ∨ capacity asked ≤ busyCount group.workers) →
      Ends asked group (.error error)

end Group

/-- A batch can come to an answer and leave a store. -/
def Gathers (asked : Int) (pipeline : Pipeline) (chunks : List Chunk) (store : Store)
    (answer : Except Error (List ChunkResult)) (after : Store) : Prop :=
  ∃ group, Relation.ReflTransGen (Group.Step asked pipeline) (.start chunks store) group ∧
    group.Ends asked answer ∧ group.store = after

/-- A way to bring the results of batches together is one that so many workers can take. -/
def GathersBy (asked : Int) (gather : Gather) : Prop :=
  ∀ pipeline chunks store,
    Gathers asked pipeline chunks store (gather pipeline chunks store).1
      (gather pipeline chunks store).2

end Reroute.Pipeline
