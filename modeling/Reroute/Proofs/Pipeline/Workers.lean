import Mathlib
import Reroute.Pipeline.Workers
import Reroute.Proofs.Pipeline.Steps

/-!
# What workers come to

A batch always comes to an answer, however its workers take turns: every step makes what is left
to do smaller, and as long as the batch is not over there is one to take.  Once a worker failed,
the answer is an error, and the results of a batch that succeeds are those of its chunks in
their order.

A single worker takes no turns with others.  What it comes to is what processing the chunks one
after the other does.
-/

namespace Reroute.Pipeline

/-! ### One worker at a time -/

/-- Go on with a task until it is done, with nobody else at the store. -/
def Task.finish (pipeline : Pipeline) (chunk : Chunk) (task : Task) (store : Store) :
    Except Error ChunkResult × Store :=
  match task with
  | .arrive => pipeline.process chunk store
  | .lookUpResult => pipeline.processIncremental chunk store
  | .lookUpOutput =>
      match store.getResult (outputId chunk.content) pipeline.outputKey with
      | (.ok _, store) => (.ok (unchangedResult chunk true), store)
      | (.error .notFound, store) => pipeline.workAndRecord chunk store
      | (.error error, store) => (.error (.lookUpOutput chunk.path error), store)
  | .work => pipeline.workAndRecord chunk store
  | .record pending result =>
      match carryOut chunk.path pending store with
      | (.ok _, store) => (.ok result, store)
      | (.error error, store) => (.error error, store)
  | .reuse stored => pipeline.reuse chunk stored store
  | .load result =>
      match store.getSubstitutions chunk.id with
      | (.error error, store) => (.error (.loadSubstitutions chunk.path error), store)
      | (.ok records, store) => (.ok (pipeline.withSubstitutions result records), store)
  | .done answer => (answer, store)

/-- A step of a task leaves what the task comes to. -/
theorem Task.finish_step (pipeline : Pipeline) (chunk : Chunk) (task : Task) (store : Store) :
    (task.step pipeline false chunk store).1.finish pipeline chunk
        (task.step pipeline false chunk store).2 =
      task.finish pipeline chunk store := by
  cases task with
  | arrive =>
      rw [finish, process, step, if_neg Bool.false_ne_true]
      cases pipeline.incremental with
      | false => rfl
      | true => rfl
  | lookUpResult =>
      simp only [step, finish, processIncremental]
      cases store.getResult chunk.id (pipeline.resultKey chunk) with
      | mk answer after =>
          cases answer with
          | ok stored => rfl
          | error error => cases error <;> rfl
  | lookUpOutput =>
      simp only [step, finish]
      cases store.getResult (outputId chunk.content) pipeline.outputKey with
      | mk answer after =>
          cases answer with
          | ok stored => rfl
          | error error => cases error <;> rfl
  | work =>
      simp only [step, finish, workAndRecord]
      cases pipeline.work chunk with
      | error error => rfl
      | ok result => rfl
  | record pending result =>
      cases pending with
      | nil => rfl
      | cons recording pending =>
          simp only [step, finish, carryOut]
          cases store.write recording.change with
          | mk answer after => cases answer <;> rfl
  | reuse stored =>
      simp only [step, finish, Pipeline.reuse]
      cases store.write (.chunk chunk.id chunk.content.length (some chunk.source)) with
      | mk answer after =>
          cases answer with
          | error error => rfl
          | ok _ =>
              cases stored.changed with
              | false => rfl
              | true => rfl
  | load result =>
      simp only [step, finish]
      cases store.getSubstitutions chunk.id with
      | mk answer after => cases answer <;> rfl
  | done answer => rfl

theorem Task.step_arrive_canceled (pipeline : Pipeline) (chunk : Chunk) (store : Store) :
    Task.arrive.step pipeline true chunk store = (.done (.error .canceled), store) := by
  rw [step, if_pos rfl]

/-- Workers that are over and succeeded. -/
def settled (results : List ChunkResult) : List Worker :=
  results.map fun result => .finished (.ok result)

theorem settled_injective : Function.Injective settled := by
  intro left right same
  refine List.map_injective_iff.mpr ?_ same
  intro result other equal
  cases equal
  rfl

theorem busy_not_mem_settled {results : List ChunkResult} {chunk : Chunk} {task : Task} :
    Worker.busy chunk task ∉ settled results := by
  simp [settled]

/-- What a batch comes to whose first chunks gave some results. -/
def behind (results : List ChunkResult) (batch : Except Error (List ChunkResult) × Store) :
    Except Error (List ChunkResult) × Store :=
  (batch.1.map (results ++ ·), batch.2)

/-- What a batch comes to whose next chunk came to an answer. -/
def goOn (pipeline : Pipeline) (waiting : List Chunk)
    (first : Except Error ChunkResult × Store) : Except Error (List ChunkResult) × Store :=
  match first with
  | (.error error, store) => (.error error, store)
  | (.ok result, store) => behind [result] (pipeline.processBatch none waiting store)

theorem goOn_process (pipeline : Pipeline) (chunk : Chunk) (waiting : List Chunk)
    (store : Store) :
    goOn pipeline waiting (pipeline.process chunk store) =
      pipeline.processBatch none (chunk :: waiting) store := by
  rw [processBatch_cons]
  cases pipeline.process chunk store with
  | mk answer after =>
      cases answer with
      | error error => rfl
      | ok result =>
          simp only [goOn, behind]
          cases pipeline.processBatch none waiting after with
          | mk answers last => cases answers <;> rfl

theorem behind_error (results : List ChunkResult) (error : Error) (store : Store) :
    behind results (.error error, store) = (.error error, store) :=
  rfl

theorem goOn_done_error (pipeline : Pipeline) (waiting : List Chunk) (chunk : Chunk)
    (error : Error) (store : Store) :
    goOn pipeline waiting (Task.finish pipeline chunk (.done (.error error)) store) =
      (.error error, store) :=
  rfl

theorem goOn_done_ok (pipeline : Pipeline) (waiting : List Chunk) (chunk : Chunk)
    (result : ChunkResult) (store : Store) :
    goOn pipeline waiting (Task.finish pipeline chunk (.done (.ok result)) store) =
      behind [result] (pipeline.processBatch none waiting store) :=
  rfl

theorem behind_append (before after : List ChunkResult)
    (batch : Except Error (List ChunkResult) × Store) :
    behind (before ++ after) batch = behind before (behind after batch) := by
  obtain ⟨answer, store⟩ := batch
  cases answer with
  | error error => rfl
  | ok results => simp [behind, Except.map]

/-- The worker is finished, or finds the batch canceled. -/
def Worker.Idle (worker : Worker) : Prop :=
  ∀ chunk task, worker = .busy chunk task → task = .arrive ∨ task = .done (.error .canceled)

theorem Worker.idle_finished (answer : Except Error ChunkResult) : (finished answer).Idle := by
  rintro chunk task ⟨⟩

/-- A batch with one worker, by how far it is: between two chunks, at work on one, or past a
failure, when the chunks behind find it canceled. -/
inductive Alone (pipeline : Pipeline) (whole : Except Error (List ChunkResult) × Store) :
    Group → Prop where
  | between {waiting : List Chunk} {results : List ChunkResult} {store : Store} :
      behind results (pipeline.processBatch none waiting store) = whole →
      Alone pipeline whole ⟨waiting, settled results, none, store⟩
  | busy {waiting : List Chunk} {results : List ChunkResult} {chunk : Chunk} {task : Task}
      {store : Store} :
      behind results (goOn pipeline waiting (task.finish pipeline chunk store)) = whole →
      Alone pipeline whole ⟨waiting, settled results ++ [.busy chunk task], none, store⟩
  | failed {waiting : List Chunk} {workers : List Worker} {error : Error} {store : Store} :
      (∀ worker ∈ workers, worker.Idle) → (.error error, store) = whole →
      Alone pipeline whole ⟨waiting, workers, some error, store⟩

/-- Only the last worker of a batch with one worker is busy. -/
theorem last_of_settled_append {results : List ChunkResult} {last : Worker}
    {before after : List Worker} {chunk : Chunk} {task : Task}
    (same : settled results ++ [last] = before ++ .busy chunk task :: after) :
    before = settled results ∧ last = .busy chunk task ∧ after = [] := by
  rcases List.append_eq_append_iff.mp same with ⟨more, rfl, rest⟩ | ⟨more, split, rest⟩
  · rw [eq_comm, List.append_eq_singleton_iff] at rest
    rcases rest with ⟨rfl, rest⟩ | ⟨-, rest⟩
    · cases rest
      exact ⟨by simp, rfl, rfl⟩
    · cases rest
  · cases more with
    | nil =>
        cases rest
        exact ⟨by simpa using split.symm, rfl, rfl⟩
    | cons worker more =>
        rw [List.cons_append, List.cons.injEq] at rest
        have member : worker ∈ settled results := by simp [split]
        rw [← rest.1] at member
        exact absurd member busy_not_mem_settled

namespace Alone

variable {pipeline : Pipeline} {asked : Int} {group next : Group}
  {whole : Except Error (List ChunkResult) × Store}

theorem start (pipeline : Pipeline) (chunks : List Chunk) (store : Store) :
    Alone pipeline (pipeline.processBatch none chunks store) (.start chunks store) := by
  change Alone pipeline _ ⟨chunks, settled [], none, store⟩
  refine between ?_
  cases pipeline.processBatch none chunks store with
  | mk answer after => cases answer <;> rfl

/-- A busy worker is the last one, or the batch is past a failure and it is idle. -/
theorem cases_of_busy {waiting : List Chunk} {before after : List Worker} {chunk : Chunk}
    {task : Task} {failure : Option Error} {store : Store}
    (alone : Alone pipeline whole ⟨waiting, before ++ .busy chunk task :: after, failure, store⟩) :
    (∃ results, before = settled results ∧ after = [] ∧ failure = none ∧
      behind results (goOn pipeline waiting (task.finish pipeline chunk store)) = whole) ∨
    ∃ error, failure = some error ∧ (.error error, store) = whole ∧
      (task = .arrive ∨ task = .done (.error .canceled)) ∧
      (∀ worker ∈ before, worker.Idle) ∧ ∀ worker ∈ after, worker.Idle := by
  generalize same : before ++ .busy chunk task :: after = workers at alone
  cases alone with
  | between leads =>
      have member : .busy chunk task ∈ before ++ .busy chunk task :: after := by simp
      rw [same] at member
      exact absurd member busy_not_mem_settled
  | busy leads =>
      obtain ⟨rfl, last, rfl⟩ := last_of_settled_append same.symm
      cases last
      exact .inl ⟨_, rfl, rfl, rfl, leads⟩
  | failed idle leads =>
      rw [← same, List.forall_mem_append, List.forall_mem_cons] at idle
      exact .inr ⟨_, rfl, leads, idle.2.1 chunk task rfl, idle.1, idle.2.2⟩

/-- Past a failure, a worker may become any that is idle. -/
theorem failed_of_idle {waiting : List Chunk} {before after : List Worker} {worker : Worker}
    {error : Error} {store : Store} (front : ∀ worker ∈ before, worker.Idle) (own : worker.Idle)
    (rest : ∀ worker ∈ after, worker.Idle) (leads : (.error error, store) = whole) :
    Alone pipeline whole ⟨waiting, before ++ worker :: after, some error, store⟩ := by
  refine failed ?_ leads
  rw [List.forall_mem_append, List.forall_mem_cons]
  exact ⟨front, own, rest⟩

/-- A step of the only worker. -/
theorem step (lone : Group.capacity asked = 1) (alone : Alone pipeline whole group)
    (step : Group.Step asked pipeline group next) : Alone pipeline whole next := by
  cases step with
  | @handOver chunk waiting workers failure store free =>
      cases alone with
      | between leads =>
          refine busy ?_
          rw [Task.finish, goOn_process]
          exact leads
      | busy leads => simp [Group.busyCount, Worker.isBusy, lone] at free
      | failed idle leads =>
          refine failed_of_idle idle ?_ (List.forall_mem_nil _) leads
          rintro _ _ ⟨⟩
          exact .inl rfl
  | @advance waiting before after chunk task failure store going =>
      rcases alone.cases_of_busy with
        ⟨results, rfl, rfl, rfl, leads⟩ | ⟨error, rfl, leads, rfl | rfl, front, rest⟩
      · refine busy ?_
        rw [Option.isSome_none, Task.finish_step]
        exact leads
      · rw [Option.isSome_some, Task.step_arrive_canceled]
        refine failed_of_idle front ?_ rest leads
        rintro _ _ ⟨⟩
        exact .inr rfl
      · cases going
  | @succeed waiting before after chunk result failure store =>
      rcases alone.cases_of_busy with
        ⟨results, rfl, rfl, rfl, leads⟩ | ⟨error, -, -, done | done, -⟩
      · have longer :
            settled results ++ [.finished (.ok result)] = settled (results ++ [result]) := by
          simp [settled]
        rw [goOn_done_ok, ← behind_append] at leads
        rw [longer]
        exact between leads
      · cases done
      · cases done
  | @fail waiting before after chunk error failure store goes ends =>
      rcases alone.cases_of_busy with
        ⟨results, rfl, rfl, rfl, leads⟩ | ⟨first, rfl, leads, -, front, rest⟩
      · rw [goOn_done_error, behind_error] at leads
        refine failed_of_idle ?_ (Worker.idle_finished _) (List.forall_mem_nil _) leads
        intro worker member other task isBusy
        rw [isBusy] at member
        exact absurd member busy_not_mem_settled
      · exact failed_of_idle front (Worker.idle_finished _) rest leads

theorem eq_of_ends (alone : Alone pipeline whole group)
    {answer : Except Error (List ChunkResult)} (ends : group.Ends asked answer) :
    (answer, group.store) = whole := by
  cases alone with
  | @between waiting results store leads =>
      generalize same : settled results = workers at ends
      cases ends with
      | succeeded =>
          obtain rfl := settled_injective same
          rw [← leads]
          simp [behind, processBatch, Except.map]
      | brokeDown member =>
          rw [← same] at member
          exact absurd member busy_not_mem_settled
      | endless member =>
          rw [← same] at member
          exact absurd member busy_not_mem_settled
  | @busy waiting results chunk task store leads =>
      generalize same : settled results ++ [.busy chunk task] = workers at ends
      have last {other : Chunk} {another : Task} (member : .busy other another ∈ workers) :
          task = another := by
        rw [← same, List.mem_append, List.mem_singleton] at member
        rcases member with member | member
        · exact absurd member busy_not_mem_settled
        · cases member
          rfl
      cases ends with
      | @succeeded results =>
          have member : .busy chunk task ∈ settled results := by
            rw [settled, ← same]
            simp
          exact absurd member busy_not_mem_settled
      | brokeDown member =>
          obtain rfl := last member
          rw [← leads]
          rfl
      | endless member =>
          obtain rfl := last member
          rw [← leads]
          rfl
  | failed idle leads =>
      cases ends with
      | failed => exact leads
      | brokeDown member =>
          rcases idle _ member _ _ rfl with done | done
          · cases done
          · cases done
      | endless member stuck =>
          rcases idle _ member _ _ rfl with done | done
          · cases done
          · cases done
            cases stuck

theorem of_reachable {chunks : List Chunk} {store : Store} (lone : Group.capacity asked = 1)
    (reachable : Relation.ReflTransGen (Group.Step asked pipeline) (.start chunks store) group) :
    Alone pipeline (pipeline.processBatch none chunks store) group := by
  induction reachable with
  | refl => exact start pipeline chunks store
  | tail _ step induction => exact induction.step lone step

end Alone

/-- A single worker does what processing the chunks one after the other does. -/
theorem Gathers.eq_processBatch {asked : Int} (lone : Group.capacity asked = 1)
    {pipeline : Pipeline} {chunks : List Chunk} {store after : Store}
    {answer : Except Error (List ChunkResult)}
    (gathers : Gathers asked pipeline chunks store answer after) :
    (answer, after) = pipeline.processBatch none chunks store := by
  obtain ⟨group, reachable, ends, rfl⟩ := gathers
  exact (Alone.of_reachable lone reachable).eq_of_ends ends

/-! ### A batch comes to an answer -/

/-- How many things are left to do once a chunk is worked on. -/
def workLoad (pipeline : Pipeline) (chunk : Chunk) : Nat :=
  match pipeline.work chunk with
  | .error _ => 0
  | .ok result => (pipeline.recordings chunk result).length

/-- A bound on the steps that a worker has still to take. -/
def Task.weight (pipeline : Pipeline) (chunk : Chunk) : Task → Nat
  | .arrive => pipeline.workLoad chunk + 6
  | .lookUpResult => pipeline.workLoad chunk + 5
  | .lookUpOutput => pipeline.workLoad chunk + 4
  | .work => pipeline.workLoad chunk + 3
  | .record pending _ => pending.length + 2
  | .reuse _ => 3
  | .load _ => 2
  | .done _ => 1

theorem Task.weight_step_lt (pipeline : Pipeline) (canceled : Bool) (chunk : Chunk) {task : Task}
    (store : Store) (going : task.isDone = false) :
    (task.step pipeline canceled chunk store).1.weight pipeline chunk <
      task.weight pipeline chunk := by
  cases task with
  | arrive =>
      simp only [step]
      split
      · simp [weight]
      · split <;> simp [weight]
  | lookUpResult =>
      simp only [step]
      split
      · simp [weight]
      · simp [weight]
      · simp [weight]
  | lookUpOutput =>
      simp only [step]
      split
      · simp [weight]
      · simp [weight]
      · simp [weight]
  | work =>
      simp only [step]
      split
      · simp [weight]
      · next result worked => simp [weight, workLoad, worked]
  | record pending result =>
      cases pending with
      | nil => simp [step, weight]
      | cons recording pending =>
          simp only [step]
          split
          · simp [weight]
          · simp [weight]
  | reuse stored =>
      simp only [step]
      split
      · simp [weight]
      · split <;> simp [weight]
  | load result =>
      simp only [step]
      split
      · simp [weight]
      · simp [weight]
  | done answer => cases going

def Worker.weight (pipeline : Pipeline) : Worker → Nat
  | .busy chunk task => task.weight pipeline chunk
  | .finished _ => 0

namespace Group

variable {asked : Int} {pipeline : Pipeline} {group next : Group}

/-- A bound on the steps that are still to come. -/
def weight (pipeline : Pipeline) (group : Group) : Nat :=
  (group.waiting.map fun chunk => pipeline.workLoad chunk + 7).sum
    + (group.workers.map (Worker.weight pipeline)).sum

theorem Step.weight_lt (step : Step asked pipeline group next) :
    next.weight pipeline < group.weight pipeline := by
  cases step with
  | handOver =>
      simp only [weight, List.map_cons, List.map_append, List.map_nil, List.sum_cons,
        List.sum_append, List.sum_nil, Worker.weight, Task.weight]
      omega
  | @advance waiting before after chunk task failure store going =>
      have lighter := Task.weight_step_lt pipeline failure.isSome chunk store going
      simp only [weight, List.map_cons, List.map_append, List.sum_cons, List.sum_append,
        Worker.weight]
      omega
  | succeed => simp [weight, Worker.weight, Task.weight]
  | fail => simp [weight, Worker.weight, Task.weight]

theorem no_endless_run (run : Nat → Group) :
    ¬∀ count, Step asked pipeline (run count) (run (count + 1)) := by
  intro steps
  obtain ⟨count, heavy⟩ :=
    WellFounded.not_rel_apply_succ (r := (· < ·)) fun count => (run count).weight pipeline
  exact heavy (steps count).weight_lt

/-- As long as no failure is known, no worker is over it. -/
def Sound (group : Group) : Prop :=
  group.failure = none → ∀ error, .finished (.error error) ∉ group.workers

theorem Sound.step (sound : Sound group) (step : Step asked pipeline group next) :
    Sound next := by
  cases step with
  | handOver =>
      intro none error member
      refine sound none error ?_
      simpa using member
  | advance =>
      intro none error member
      refine sound none error ?_
      simpa using member
  | succeed =>
      intro none error member
      refine sound none error ?_
      simpa using member
  | @fail waiting before after chunk error failure store =>
      intro none
      cases failure <;> cases none

theorem capacity_pos (asked : Int) : 0 < capacity asked :=
  Nat.lt_of_lt_of_le Nat.zero_lt_one (Nat.le_max_left _ _)

theorem exists_settled {workers : List Worker} (idle : busyCount workers = 0)
    (sound : ∀ error, .finished (.error error) ∉ workers) :
    ∃ results, workers = settled results := by
  induction workers with
  | nil => exact ⟨[], rfl⟩
  | cons worker workers induction =>
      cases worker with
      | busy chunk task => simp [busyCount, Worker.isBusy] at idle
      | finished answer =>
          cases answer with
          | error error => exact absurd List.mem_cons_self (sound error)
          | ok result =>
              obtain ⟨results, rfl⟩ := induction idle fun error member =>
                sound error (List.mem_cons_of_mem _ member)
              exact ⟨result :: results, rfl⟩

/-- A batch is over, or something can happen next. -/
theorem Sound.progress (sound : Sound group) (asked : Int) (pipeline : Pipeline) :
    (∃ answer, group.Ends asked answer) ∨ ∃ next, Step asked pipeline group next := by
  obtain ⟨waiting, workers, failure, store⟩ := group
  by_cases stuck : ∀ chunk task, .busy chunk task ∈ workers →
      ∃ cause : Error, task = .done (.error cause) ∧ cause.isEndless = true
  · by_cases free : busyCount workers < capacity asked
    · cases waiting with
      | cons chunk waiting => exact .inr ⟨_, .handOver free⟩
      | nil =>
          by_cases idle : busyCount workers = 0
          · cases failure with
            | some error => exact .inl ⟨_, .failed idle⟩
            | none =>
                obtain ⟨results, rfl⟩ := exists_settled idle (sound rfl)
                exact .inl ⟨_, .succeeded⟩
          · obtain ⟨worker, member, busy⟩ := List.countP_pos_iff.mp (Nat.pos_of_ne_zero idle)
            cases worker with
            | finished answer => cases busy
            | busy chunk task =>
                obtain ⟨error, rfl, endless⟩ := stuck chunk task member
                exact .inl ⟨_, .endless member endless stuck (.inl rfl)⟩
    · have full : capacity asked ≤ busyCount workers := Nat.le_of_not_lt free
      obtain ⟨worker, member, busy⟩ :=
        List.countP_pos_iff.mp (Nat.lt_of_lt_of_le (capacity_pos asked) full)
      cases worker with
      | finished answer => cases busy
      | busy chunk task =>
          obtain ⟨error, rfl, endless⟩ := stuck chunk task member
          exact .inl ⟨_, .endless member endless stuck (.inr full)⟩
  · simp only [not_forall, not_exists, not_and] at stuck
    obtain ⟨chunk, task, member, moves⟩ := stuck
    obtain ⟨before, after, rfl⟩ := List.append_of_mem member
    cases task with
    | done answer =>
        cases answer with
        | ok result => exact .inr ⟨_, .succeed⟩
        | error error =>
            cases broken : error.isBreakdown with
            | false => exact .inr ⟨_, .fail broken (by simpa using moves error rfl)⟩
            | true =>
                cases error with
                | breakdown message => exact .inl ⟨_, .brokeDown member⟩
                | _ => cases broken
    | _ => exact .inr ⟨_, .advance rfl⟩

theorem Sound.exists_ends (sound : Sound group) (asked : Int) (pipeline : Pipeline) :
    ∃ last answer, Relation.ReflTransGen (Step asked pipeline) group last ∧
      last.Ends asked answer := by
  induction left : group.weight pipeline using Nat.strong_induction_on generalizing group with
  | _ left induction =>
      rcases sound.progress asked pipeline with ⟨answer, ends⟩ | ⟨next, step⟩
      · exact ⟨group, answer, .refl, ends⟩
      · have lighter := step.weight_lt
        rw [left] at lighter
        obtain ⟨last, answer, reached, ends⟩ := induction _ lighter (sound.step step) rfl
        exact ⟨last, answer, .head step reached, ends⟩

theorem sound_start (chunks : List Chunk) (store : Store) : Sound (start chunks store) := by
  intro _ error member
  cases member

end Group

/-- A batch comes to an answer. -/
theorem exists_gathers (asked : Int) (pipeline : Pipeline) (chunks : List Chunk)
    (store : Store) : ∃ answer after, Gathers asked pipeline chunks store answer after := by
  obtain ⟨last, answer, reached, ends⟩ :=
    (Group.sound_start chunks store).exists_ends asked pipeline
  exact ⟨answer, last.store, last, reached, ends, rfl⟩

theorem exists_gathersBy (asked : Int) : ∃ gather, GathersBy asked gather := by
  choose answer after gathers using exists_gathers asked
  exact ⟨fun pipeline chunks store => (answer pipeline chunks store, after pipeline chunks store),
    gathers⟩

/-- With a single worker, one chunk after the other is the only way. -/
theorem gathersBy_iff_eq_processBatch {asked : Int} {gather : Gather}
    (lone : Group.capacity asked = 1) : GathersBy asked gather ↔ gather = processBatch none := by
  have only {way : Gather} (gathers : GathersBy asked way) : way = processBatch none := by
    funext pipeline chunks store
    exact (gathers pipeline chunks store).eq_processBatch lone
  refine ⟨only, ?_⟩
  rintro rfl
  obtain ⟨way, gathers⟩ := exists_gathersBy asked
  rwa [← only gathers]

/-! ### Failures -/

namespace Group

variable {asked : Int} {pipeline : Pipeline} {group next : Group}

/-- A worker failed. -/
def Failing (group : Group) : Prop :=
  group.failure.isSome = true ∨
    ∃ chunk error, .busy chunk (.done (.error error)) ∈ group.workers

theorem Failing.step (failing : Failing group) (step : Step asked pipeline group next) :
    Failing next := by
  rcases failing with known | ⟨other, error, member⟩
  · left
    cases step with
    | handOver => exact known
    | advance => exact known
    | succeed => exact known
    | @fail waiting before after chunk error failure store => cases failure <;> rfl
  · cases step with
    | handOver => exact .inr ⟨other, error, List.mem_append_left _ member⟩
    | @advance waiting before after chunk task failure store going =>
        refine .inr ⟨other, error, ?_⟩
        simp only [List.mem_append, List.mem_cons, Worker.busy.injEq] at member ⊢
        rcases member with member | ⟨-, rfl⟩ | member
        · exact .inl member
        · cases going
        · exact .inr (.inr member)
    | succeed =>
        refine .inr ⟨other, error, ?_⟩
        simpa using member
    | @fail waiting before after chunk cause failure store =>
        left
        cases failure <;> rfl

theorem Failing.run {last : Group} (failing : Failing group)
    (reached : Relation.ReflTransGen (Step asked pipeline) group last) : Failing last := by
  induction reached with
  | refl => exact failing
  | tail _ step induction => exact induction.step step

/-- Once a worker failed, the batch fails. -/
theorem Failing.answer {last : Group} (failing : Failing group)
    (reached : Relation.ReflTransGen (Step asked pipeline) group last)
    {answer : Except Error (List ChunkResult)} (ends : last.Ends asked answer) :
    ∃ error, answer = .error error := by
  cases ends with
  | succeeded =>
      rcases failing.run reached with known | ⟨chunk, error, member⟩
      · cases known
      · exact absurd member busy_not_mem_settled
  | failed => exact ⟨_, rfl⟩
  | brokeDown => exact ⟨_, rfl⟩
  | endless => exact ⟨_, rfl⟩

end Group

/-! ### Results keep the order of the chunks -/

/-- What a task holds of a result already names its chunk. -/
def Task.Names (chunk : Chunk) : Task → Prop
  | .record _ result => result.Names chunk
  | .load result => result.Names chunk
  | .done (.ok result) => result.Names chunk
  | _ => True

theorem Task.names_step {pipeline : Pipeline} {canceled : Bool} {chunk : Chunk} {task : Task}
    (names : task.Names chunk) (store : Store) :
    (task.step pipeline canceled chunk store).1.Names chunk := by
  cases task with
  | arrive =>
      simp only [step]
      split
      · trivial
      · split <;> trivial
  | lookUpResult =>
      simp only [step]
      split <;> trivial
  | lookUpOutput =>
      simp only [step]
      split
      · exact ⟨rfl, rfl⟩
      · trivial
      · trivial
  | work =>
      simp only [step]
      split
      · trivial
      · next worked => exact names_of_work worked
  | record pending result =>
      cases pending with
      | nil => exact names
      | cons recording pending =>
          simp only [step]
          split
          · exact names
          · trivial
  | reuse stored =>
      simp only [step]
      split
      · trivial
      · split
        · exact ⟨rfl, rfl⟩
        · exact ⟨rfl, rfl⟩
  | load result =>
      simp only [step]
      split
      · trivial
      · exact names
  | done answer => exact names

/-- The worker serves a chunk. -/
inductive Worker.Serves (chunk : Chunk) : Worker → Prop where
  | busy {task : Task} : task.Names chunk → Serves chunk (.busy chunk task)
  | succeeded {result : ChunkResult} : result.Names chunk → Serves chunk (.finished (.ok result))
  | failed {error : Error} : Serves chunk (.finished (.error error))

namespace Group

variable {asked : Int} {pipeline : Pipeline} {group next : Group}

/-- The workers serve the chunks that do not wait any more, in order. -/
def InOrder (chunks : List Chunk) (group : Group) : Prop :=
  ∃ handed, chunks = handed ++ group.waiting ∧ List.Forall₂ Worker.Serves handed group.workers

/-- Replace a worker by one that serves the same chunk. -/
theorem forall₂_replace {handed : List Chunk} {before after : List Worker} {old new : Worker}
    (serve : List.Forall₂ Worker.Serves handed (before ++ old :: after))
    (same : ∀ chunk, old.Serves chunk → new.Serves chunk) :
    List.Forall₂ Worker.Serves handed (before ++ new :: after) := by
  induction before generalizing handed with
  | nil =>
      cases serve with
      | cons first rest => exact .cons (same _ first) rest
  | cons worker before induction =>
      cases serve with
      | cons first rest => exact .cons first (induction rest)

theorem InOrder.step {chunks : List Chunk} (inOrder : InOrder chunks group)
    (step : Step asked pipeline group next) : InOrder chunks next := by
  obtain ⟨handed, rfl, serve⟩ := inOrder
  cases step with
  | @handOver chunk waiting =>
      refine ⟨handed ++ [chunk], by simp, ?_⟩
      exact List.rel_append serve (.cons (.busy trivial) .nil)
  | @advance waiting before after chunk task failure store =>
      refine ⟨handed, rfl, forall₂_replace serve ?_⟩
      rintro chunk ⟨names⟩
      exact .busy (Task.names_step names store)
  | succeed =>
      refine ⟨handed, rfl, forall₂_replace serve ?_⟩
      rintro chunk ⟨names⟩
      exact .succeeded names
  | fail =>
      refine ⟨handed, rfl, forall₂_replace serve ?_⟩
      rintro chunk ⟨names⟩
      exact .failed

theorem InOrder.of_reachable {chunks : List Chunk} {store : Store}
    (reachable : Relation.ReflTransGen (Step asked pipeline) (.start chunks store) group) :
    InOrder chunks group := by
  induction reachable with
  | refl => exact ⟨[], rfl, .nil⟩
  | tail _ step induction => exact induction.step step

end Group

/-- The results of a batch are those of its chunks, in their order. -/
theorem Gathers.names {asked : Int} {pipeline : Pipeline} {chunks : List Chunk}
    {store after : Store} {results : List ChunkResult}
    (gathers : Gathers asked pipeline chunks store (.ok results) after) :
    List.Forall₂ ChunkResult.Names results chunks := by
  obtain ⟨group, reachable, ends, rfl⟩ := gathers
  have inOrder := Group.InOrder.of_reachable reachable
  cases ends with
  | succeeded =>
      obtain ⟨handed, rfl, serve⟩ := inOrder
      rw [List.forall₂_map_right_iff] at serve
      rw [List.append_nil]
      refine (serve.imp ?_).flip
      rintro chunk result ⟨⟩
      assumption

/-! ### Breakdowns -/

section

variable {asked : Int} {pipeline : Pipeline} {message : Bytes}

theorem Task.step_ne_breakdown (default : pipeline.transform = none) {canceled : Bool}
    {chunk : Chunk} {task : Task} (steady : task ≠ .done (.error (.breakdown message)))
    (store : Store) :
    (task.step pipeline canceled chunk store).1 ≠ .done (.error (.breakdown message)) := by
  cases task with
  | arrive =>
      simp only [step]
      split
      · nofun
      · split <;> nofun
  | lookUpResult =>
      simp only [step]
      split <;> nofun
  | lookUpOutput =>
      simp only [step]
      split <;> nofun
  | work =>
      simp only [step]
      split
      · next error worked =>
          intro broken
          rw [Task.done.injEq, Except.error.injEq] at broken
          rw [broken] at worked
          exact work_ne_breakdown default chunk message worked
      · nofun
  | record pending result =>
      cases pending with
      | nil => nofun
      | cons recording pending =>
          simp only [step]
          split <;> nofun
  | reuse stored =>
      simp only [step]
      split
      · nofun
      · split <;> nofun
  | load result =>
      simp only [step]
      split <;> nofun
  | done answer => exact steady

/-- No worker broke down, and none is known to. -/
structure Group.Steady (group : Group) : Prop where
  workers : ∀ chunk message, .busy chunk (.done (.error (.breakdown message))) ∉ group.workers
  failure : ∀ error, group.failure = some error → error.isBreakdown = false

theorem Group.Steady.step {group next : Group} (default : pipeline.transform = none)
    (steady : Steady group) (step : Group.Step asked pipeline group next) : Steady next := by
  obtain ⟨workers, known⟩ := steady
  cases step with
  | handOver =>
      refine ⟨?_, known⟩
      intro chunk message member
      exact workers chunk message (by simpa using member)
  | @advance waiting before after chunk task failure store =>
      refine ⟨?_, known⟩
      intro other message member
      simp only [List.mem_append, List.mem_cons, Worker.busy.injEq] at member
      rcases member with member | ⟨rfl, same⟩ | member
      · exact workers other message (by simp [member])
      · refine Task.step_ne_breakdown default ?_ store same.symm
        rintro rfl
        exact workers other message (by simp)
      · exact workers other message (by simp [member])
  | succeed =>
      refine ⟨?_, known⟩
      intro chunk message member
      exact workers chunk message (by simpa using member)
  | @fail waiting before after chunk error failure store goes =>
      constructor
      · intro other message member
        refine workers other message ?_
        simp only [List.mem_append, List.mem_cons, reduceCtorEq, false_or] at member ⊢
        tauto
      · intro cause same
        cases failure with
        | none =>
            cases same
            exact goes
        | some first =>
            cases same
            exact known _ rfl

theorem Gathers.ne_breakdown {chunks : List Chunk} {store after : Store}
    (default : pipeline.transform = none) :
    ¬Gathers asked pipeline chunks store (.error (.breakdown message)) after := by
  rintro ⟨group, reachable, ends, -⟩
  have steady : group.Steady := by
    clear ends
    induction reachable with
    | refl => exact ⟨nofun, nofun⟩
    | tail _ step induction => exact induction.step default step
  cases ends with
  | failed => cases steady.failure _ rfl
  | brokeDown member => exact steady.workers _ _ member
  | endless _ endless => cases endless

end

/-! ### A store in memory -/

theorem Task.exists_ofRecords_of_step (pipeline : Pipeline) (canceled : Bool) (chunk : Chunk)
    (task : Task) (records : MemoryStore) :
    ∃ after, (task.step pipeline canceled chunk (.ofRecords records)).2 = .ofRecords after := by
  cases task with
  | arrive =>
      simp only [step]
      split
      · exact ⟨records, rfl⟩
      · split <;> exact ⟨records, rfl⟩
  | lookUpResult =>
      simp only [step, Store.getResult_ofRecords]
      cases records.result? chunk.id (pipeline.resultKey chunk) <;> exact ⟨records, rfl⟩
  | lookUpOutput =>
      simp only [step, Store.getResult_ofRecords]
      cases records.result? (outputId chunk.content) pipeline.outputKey <;> exact ⟨records, rfl⟩
  | work =>
      simp only [step]
      split <;> exact ⟨records, rfl⟩
  | record pending result =>
      cases pending with
      | nil => exact ⟨records, rfl⟩
      | cons recording pending => exact ⟨_, rfl⟩
  | reuse stored =>
      simp only [step, Store.write_ofRecords]
      split <;> exact ⟨_, rfl⟩
  | load result => exact ⟨records, rfl⟩
  | done answer => exact ⟨records, rfl⟩

theorem Gathers.exists_ofRecords {asked : Int} {pipeline : Pipeline} {chunks : List Chunk}
    {records : MemoryStore} {after : Store} {answer : Except Error (List ChunkResult)}
    (gathers : Gathers asked pipeline chunks (.ofRecords records) answer after) :
    ∃ last, after = .ofRecords last := by
  obtain ⟨group, reachable, -, rfl⟩ := gathers
  induction reachable with
  | refl => exact ⟨records, rfl⟩
  | @tail group next _ step induction =>
      obtain ⟨between, stored⟩ := induction
      cases step with
      | handOver => exact ⟨between, stored⟩
      | @advance waiting before after chunk task failure store =>
          obtain rfl : store = .ofRecords between := stored
          exact Task.exists_ofRecords_of_step pipeline failure.isSome chunk task between
      | succeed => exact ⟨between, stored⟩
      | fail => exact ⟨between, stored⟩

end Reroute.Pipeline
