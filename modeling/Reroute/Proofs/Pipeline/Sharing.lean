import Mathlib
import Reroute.Proofs.Pipeline.Keys
import Reroute.Proofs.Store.Views

/-!
# Pipelines that share a store

Outcomes are stored under keys that tell rules apart by pattern and replacement, so that a
pipeline finds its own outcomes only.  Records of replaced occurrences are told apart by the
name of the rule, and the first record for an occurrence stays.  What an incremental pipeline
reads back for a chunk is therefore what its own rule replaces in it, unless another pipeline
whose rule has the same name changed the same content before.
-/

namespace Reroute

/-! ### Records that a rule of some name made for a chunk -/

section

variable {keep : Substitution → Bool}

theorem filter_insertFirst
    (respects : ∀ left right : Substitution, left.sameKey right = true → keep left = keep right)
    (record : Substitution) (records : List Substitution) :
    (insertFirst Substitution.sameKey record records).filter keep =
      if keep record = true then insertFirst Substitution.sameKey record (records.filter keep)
      else records.filter keep := by
  have known (kept : keep record = true) :
      (records.filter keep).any record.sameKey = records.any record.sameKey := by
    rw [List.any_filter]
    congr 1
    funext other
    cases same : record.sameKey other with
    | false => simp
    | true => simp [← respects record other same, kept]
  by_cases kept : keep record = true
  · rw [if_pos kept, insertFirst, insertFirst, known kept]
    split
    · rfl
    · simp [kept]
  · rw [if_neg kept, insertFirst]
    split
    · rfl
    · simp [kept]

theorem filter_insertAll_of_kept
    (respects : ∀ left right : Substitution, left.sameKey right = true → keep left = keep right)
    {fresh : List Substitution} (kept : ∀ record ∈ fresh, keep record = true)
    (records : List Substitution) :
    (insertAll fresh records).filter keep = insertAll fresh (records.filter keep) := by
  induction fresh generalizing records with
  | nil => rfl
  | cons record fresh induction =>
      have later := induction (fun other member => kept other (List.mem_cons_of_mem _ member))
        (insertFirst Substitution.sameKey record records)
      rw [filter_insertFirst respects, if_pos (kept record List.mem_cons_self)] at later
      exact later

theorem filter_insertAll_of_dropped
    (respects : ∀ left right : Substitution, left.sameKey right = true → keep left = keep right)
    {fresh : List Substitution} (dropped : ∀ record ∈ fresh, keep record = false)
    (records : List Substitution) :
    (insertAll fresh records).filter keep = records.filter keep := by
  induction fresh generalizing records with
  | nil => rfl
  | cons record fresh induction =>
      have later := induction
        (fun other member => dropped other (List.mem_cons_of_mem _ member))
        (insertFirst Substitution.sameKey record records)
      rw [filter_insertFirst respects, dropped record List.mem_cons_self,
        if_neg Bool.false_ne_true] at later
      exact later

end

namespace Substitution

/-- The record is of a chunk and of a rule with some name. -/
def isBy (id : ChunkId) (name : Bytes) (record : Substitution) : Bool :=
  record.chunk == id && record.ruleId == name

theorem isBy_iff {id : ChunkId} {name : Bytes} {record : Substitution} :
    record.isBy id name = true ↔ record.chunk = id ∧ record.ruleId = name := by
  simp [isBy]

theorem isBy_congr (id : ChunkId) (name : Bytes) (left right : Substitution)
    (same : left.sameKey right = true) : left.isBy id name = right.isBy id name := by
  simp only [sameKey, Bool.and_eq_true, beq_iff_eq] at same
  rw [isBy, isBy, same.1.1, same.1.2]

end Substitution

/-- Records are answered in the order of their starts, also between records of other rules. -/
theorem MemoryStore.filter_substitutionsOf {records : MemoryStore} {id : ChunkId}
    {name : Bytes}
    (ascending : (records.substitutions.filter (Substitution.isBy id name)).Pairwise
      fun left right => left.offset.start < right.offset.start) :
    ((records.substitutionsOf id).filter fun record => record.ruleId == name) =
      records.substitutions.filter (Substitution.isBy id name) := by
  have both : (records.substitutions.filter fun record => record.chunk == id).filter
      (fun record => record.ruleId == name) =
        records.substitutions.filter (Substitution.isBy id name) := by
    rw [List.filter_filter]
    congr 1
    funext record
    exact Bool.and_comm _ _
  have ranked : (records.substitutions.filter (Substitution.isBy id name)).Pairwise
      fun left right => decide (rank left ≤ rank right) = true := by
    refine (List.Pairwise.and_mem.mp ascending).imp ?_
    rintro left right ⟨leftMember, rightMember, before⟩
    have leftBy := Substitution.isBy_iff.mp (List.mem_filter.mp leftMember).2
    have rightBy := Substitution.isBy_iff.mp (List.mem_filter.mp rightMember).2
    rw [decide_eq_true_eq, rank, rank, leftBy.1, rightBy.1, Prod.Lex.le_iff]
    exact .inr ⟨rfl, le_of_lt before⟩
  have kept : (records.substitutions.filter (Substitution.isBy id name)).Sublist
      (records.substitutionsOf id) := by
    rw [substitutionsOf, notAfter_eq_rank]
    apply List.sublist_mergeSort (ranked_trans rank) (ranked_total rank) ranked
    rw [← both]
    exact List.filter_sublist
  have inside := kept.filter fun record => record.ruleId == name
  rw [← both, List.filter_filter] at inside
  simp only [Bool.and_self] at inside
  have permutation := (List.mergeSort_perm
    (records.substitutions.filter fun record => record.chunk == id)
    Substitution.notAfter).filter fun record => record.ruleId == name
  rw [← both]
  exact (inside.eq_of_length permutation.length_eq.symm).symm

namespace Pipeline

/-- A chunk that a pipeline is asked to process. -/
structure Job where
  pipeline : Pipeline
  chunk : Chunk

/-- The answers to jobs that are done one after the other, on one store. -/
def sharedAnswers : List Job → Store → List (Job × Except Error ChunkResult)
  | [], _ => []
  | job :: jobs, store =>
      (job, (job.pipeline.process job.chunk store).1)
        :: sharedAnswers jobs (job.pipeline.process job.chunk store).2

/-- The messages whose digests tell jobs apart. -/
def Job.messages (job : Job) : List Bytes :=
  [ChunkId.message job.chunk.content, job.pipeline.keyMessage job.chunk,
    job.pipeline.rule.structuralMessage]

/-! ### Jobs that keys tell apart -/

/-- Incremental pipelines that transform by their rules, no two of which do the same. -/
structure Family (pipelines : List Pipeline) : Prop where
  default : ∀ pipeline ∈ pipelines, pipeline.transform = none
  incremental : ∀ pipeline ∈ pipelines, pipeline.incremental = true
  computed : ∀ pipeline ∈ pipelines,
    pipeline.rule.structuralId = pipeline.rule.computeStructuralId
  clear : ∀ pipeline ∈ pipelines, 0 ∉ pipeline.rule.pattern
  distinct : ∀ left ∈ pipelines, ∀ right ∈ pipelines,
    left.rule.pattern = right.rule.pattern → left.rule.replacement = right.rule.replacement →
    left = right

/-- A job of one of the pipelines, with a path that keys can tell from other paths, whose
messages are hashed. -/
structure Job.Admitted (pipelines : List Pipeline) (messages : List Bytes) (job : Job) :
    Prop where
  member : job.pipeline ∈ pipelines
  path : 0 ∉ job.chunk.path
  hashed : job.messages ⊆ messages

namespace Job.Admitted

variable {pipelines : List Pipeline} {messages : List Bytes} {left right : Job}

theorem content_eq (apart : DigestsApart messages) (leftAdmitted : left.Admitted pipelines messages)
    (rightAdmitted : right.Admitted pipelines messages) (same : left.chunk.id = right.chunk.id) :
    left.chunk.content = right.chunk.content :=
  ChunkId.content_eq_of_ofContent_eq apart (leftAdmitted.hashed (by simp [Job.messages]))
    (rightAdmitted.hashed (by simp [Job.messages])) same

/-- Jobs that share a key are of the same pipeline, which does the same for both. -/
theorem work_eq (family : Family pipelines) (apart : DigestsApart messages)
    (leftAdmitted : left.Admitted pipelines messages)
    (rightAdmitted : right.Admitted pipelines messages) (sameId : left.chunk.id = right.chunk.id)
    (sameKey : left.pipeline.resultKey left.chunk = right.pipeline.resultKey right.chunk) :
    left.pipeline = right.pipeline ∧ left.chunk.content = right.chunk.content ∧
      left.pipeline.work left.chunk = right.pipeline.work right.chunk := by
  obtain ⟨rules, details⟩ :=
    (resultKey_eq_iff apart (family.computed _ leftAdmitted.member)
      (family.computed _ rightAdmitted.member) (by
        intro message member
        simp only [List.mem_cons, List.not_mem_nil, or_false] at member
        rcases member with rfl | rfl | rfl | rfl
        · exact leftAdmitted.hashed (by simp [Job.messages])
        · exact rightAdmitted.hashed (by simp [Job.messages])
        · exact leftAdmitted.hashed (by simp [Job.messages])
        · exact rightAdmitted.hashed (by simp [Job.messages]))).mp sameKey
  have patterns : left.pipeline.rule.pattern.count 0 = right.pipeline.rule.pattern.count 0 := by
    rw [List.count_eq_zero_of_not_mem (family.clear _ leftAdmitted.member),
      List.count_eq_zero_of_not_mem (family.clear _ rightAdmitted.member)]
  have paths : left.chunk.path.count 0 = right.chunk.path.count 0 := by
    rw [List.count_eq_zero_of_not_mem leftAdmitted.path,
      List.count_eq_zero_of_not_mem rightAdmitted.path]
  obtain ⟨pattern, replacement⟩ := Rule.fields_of_structuralMessage patterns rules
  obtain ⟨-, path, map⟩ := fields_of_detailMessage paths details
  have samePipeline :=
    family.distinct _ leftAdmitted.member _ rightAdmitted.member pattern replacement
  have content := leftAdmitted.content_eq apart rightAdmitted sameId
  refine ⟨samePipeline, content, ?_⟩
  rw [samePipeline]
  exact right.pipeline.work_congr content path map

end Job.Admitted

/-! ### The records of a shared store -/

/-- No other pipeline whose rule has the name of this one's changed the content. -/
def Job.Alone (job : Job) (done : List (Job × ChunkResult)) : Prop :=
  ∀ other ∈ done, other.2.changed = true → other.1.chunk.content = job.chunk.content →
    other.1.pipeline.rule.id = job.pipeline.rule.id → other.1.pipeline = job.pipeline

/-- The records of a store that pipelines share are accounted for by what they did.  Outcomes
are kept apart; records of replaced occurrences are as far as jobs are alone. -/
structure Shared (pipelines : List Pipeline) (messages : List Bytes) (records : MemoryStore)
    (done : List (Job × ChunkResult)) : Prop where
  admitted : ∀ entry ∈ done, entry.1.Admitted pipelines messages
  works : ∀ entry ∈ done, entry.1.pipeline.work entry.1.chunk = .ok entry.2
  found : ∀ {id key stored}, records.result? id key = some stored → stored.changed = true →
    ∃ entry ∈ done, entry.1.chunk.id = id ∧
      entry.1.pipeline.resultKey entry.1.chunk = key ∧
      stored = entry.1.pipeline.storedResult entry.1.chunk entry.2
  listed : ∀ entry ∈ done, entry.2.changed = true → entry.1.Alone done →
    records.substitutions.filter
        (Substitution.isBy entry.1.chunk.id entry.1.pipeline.rule.id) =
      entry.1.pipeline.replaced entry.1.chunk.content
  owned : ∀ record ∈ records.substitutions, ∃ entry ∈ done, entry.2.changed = true ∧
    record.isBy entry.1.chunk.id entry.1.pipeline.rule.id = true

namespace Shared

variable {pipelines : List Pipeline} {messages : List Bytes} {records : MemoryStore}
  {done : List (Job × ChunkResult)} {job : Job} {result : ChunkResult}

theorem empty (pipelines : List Pipeline) (messages : List Bytes) :
    Shared pipelines messages .empty [] where
  admitted := by simp
  works := by simp
  found := by simp
  listed := by simp
  owned := by simp [MemoryStore.empty]

theorem seen (shared : Shared pipelines messages records done) (chunk : Chunk) :
    Shared pipelines messages (Pipeline.seen chunk records) done :=
  ⟨shared.admitted, shared.works, shared.found, shared.listed, shared.owned⟩

/-- For a job that is alone, there is nothing under the name of its rule, or all that it would
record is there. -/
theorem recordsBy_eq (shared : Shared pipelines messages records done)
    (apart : DigestsApart messages) (admitted : job.Admitted pipelines messages)
    (alone : job.Alone done) :
    records.substitutions.filter (Substitution.isBy job.chunk.id job.pipeline.rule.id) = [] ∨
      records.substitutions.filter (Substitution.isBy job.chunk.id job.pipeline.rule.id) =
        job.pipeline.replaced job.chunk.content := by
  by_cases known : ∃ entry ∈ done, entry.2.changed = true ∧
      entry.1.chunk.id = job.chunk.id ∧ entry.1.pipeline.rule.id = job.pipeline.rule.id
  · obtain ⟨entry, member, changed, sameId, sameName⟩ := known
    have content := (shared.admitted entry member).content_eq apart admitted sameId
    have pipeline := alone entry member changed content sameName
    have entryAlone : entry.1.Alone done := by
      unfold Job.Alone
      rw [content, pipeline]
      exact alone
    have listed := shared.listed entry member changed entryAlone
    rw [sameId, pipeline, content] at listed
    exact .inr listed
  · left
    rw [List.filter_eq_nil_iff]
    intro record member own
    obtain ⟨entry, entryMember, changed, owner⟩ := shared.owned record member
    rw [Substitution.isBy_iff] at own owner
    apply known
    exact ⟨entry, entryMember, changed, owner.1.symm.trans own.1, owner.2.symm.trans own.2⟩

theorem isBy_of_mem_substitutions {pipeline : Pipeline} {chunk : Chunk}
    (default : pipeline.transform = none) (worked : pipeline.work chunk = .ok result)
    {record : Substitution} (member : record ∈ result.substitutions) :
    result.changed = true ∧ record.isBy chunk.id pipeline.rule.id = true := by
  rw [substitutions_of_work default worked] at member
  split at member
  · next changed =>
      exact ⟨changed, Substitution.isBy_iff.mpr (pipeline.replaced_owned _ record member)⟩
  · simp at member

/-- What a job that is alone records is all that is there under the name of its rule. -/
theorem recordsBy_recorded (shared : Shared pipelines messages records done)
    (apart : DigestsApart messages) (admitted : job.Admitted pipelines messages)
    (default : job.pipeline.transform = none)
    (worked : job.pipeline.work job.chunk = .ok result) (changed : result.changed = true)
    (alone : job.Alone done) :
    (job.pipeline.recorded job.chunk result records).substitutions.filter
        (Substitution.isBy job.chunk.id job.pipeline.rule.id) =
      job.pipeline.replaced job.chunk.content := by
  rw [substitutions_recorded, filter_insertAll_of_kept (Substitution.isBy_congr _ _)
      fun record member => (isBy_of_mem_substitutions default worked member).2,
    substitutions_of_work default worked, if_pos changed]
  rcases shared.recordsBy_eq apart admitted alone with none | all
  · rw [none]
    exact insertAll_append (job.pipeline.replaced_ascending job.chunk.content)
  · rw [all]
    exact insertAll_of_subset (List.Subset.refl _)

theorem listed_recorded (shared : Shared pipelines messages records done)
    (apart : DigestsApart messages) (admitted : job.Admitted pipelines messages)
    (default : job.pipeline.transform = none)
    (worked : job.pipeline.work job.chunk = .ok result) {entry : Job × ChunkResult}
    (member : entry ∈ (job, result) :: done) (changed : entry.2.changed = true)
    (alone : entry.1.Alone ((job, result) :: done)) :
    (job.pipeline.recorded job.chunk result records).substitutions.filter
        (Substitution.isBy entry.1.chunk.id entry.1.pipeline.rule.id) =
      entry.1.pipeline.replaced entry.1.chunk.content := by
  have before : entry.1.Alone done :=
    fun other otherMember => alone other (List.mem_cons_of_mem _ otherMember)
  by_cases adds : result.changed = true ∧ job.chunk.id = entry.1.chunk.id ∧
      job.pipeline.rule.id = entry.1.pipeline.rule.id
  · obtain ⟨resultChanged, sameId, sameName⟩ := adds
    have content : job.chunk.content = entry.1.chunk.content := by
      rcases List.mem_cons.mp member with rfl | earlier
      · rfl
      · exact admitted.content_eq apart (shared.admitted entry earlier) sameId
    have pipeline := alone (job, result) List.mem_cons_self resultChanged content sameName
    dsimp only at pipeline
    have jobAlone : job.Alone done := by
      unfold Job.Alone
      rw [content, pipeline]
      exact before
    rw [← sameId, ← sameName, ← content, ← pipeline]
    exact shared.recordsBy_recorded apart admitted default worked resultChanged jobAlone
  · -- The new records are under another name or for another chunk, if there are any.
    rcases List.mem_cons.mp member with rfl | earlier
    · exact absurd ⟨changed, rfl, rfl⟩ adds
    · rw [substitutions_recorded, filter_insertAll_of_dropped (Substitution.isBy_congr _ _)]
      · exact shared.listed entry earlier changed before
      · intro record new
        obtain ⟨resultChanged, own⟩ := isBy_of_mem_substitutions default worked new
        rw [Substitution.isBy_iff] at own
        rw [Bool.eq_false_iff, Ne, Substitution.isBy_iff]
        rintro ⟨sameId, sameName⟩
        exact adds ⟨resultChanged, own.1.symm.trans sameId, own.2.symm.trans sameName⟩

theorem record (shared : Shared pipelines messages records done)
    (apart : DigestsApart messages) (admitted : job.Admitted pipelines messages)
    (default : job.pipeline.transform = none)
    (worked : job.pipeline.work job.chunk = .ok result) :
    Shared pipelines messages (job.pipeline.recorded job.chunk result records)
      ((job, result) :: done) where
  admitted := List.forall_mem_cons.mpr ⟨admitted, shared.admitted⟩
  works := List.forall_mem_cons.mpr ⟨worked, shared.works⟩
  found := by
    intro id key stored found changed
    rw [result?_recorded] at found
    split at found
    · -- Marks of output are not changed outcomes.
      cases found
      cases changed
    split at found
    · next same =>
        refine ⟨(job, result), List.mem_cons_self, ?_, same.2, (Option.some.inj found).symm⟩
        exact (names_of_work worked).2.symm.trans same.1
    · obtain ⟨entry, member, facts⟩ := shared.found found changed
      exact ⟨entry, List.mem_cons_of_mem _ member, facts⟩
  listed := fun entry member changed alone =>
    shared.listed_recorded apart admitted default worked member changed alone
  owned := by
    intro record member
    rw [substitutions_recorded] at member
    rcases mem_of_mem_insertAll member with earlier | new
    · obtain ⟨entry, entryMember, facts⟩ := shared.owned record earlier
      exact ⟨entry, List.mem_cons_of_mem _ entryMember, facts⟩
    · exact ⟨(job, result), List.mem_cons_self, isBy_of_mem_substitutions default worked new⟩

/-! ### One job after the other -/

/-- A job goes on accounting for the records, and adds at most itself to the accounts. -/
theorem process (shared : Shared pipelines messages records done) (family : Family pipelines)
    (apart : DigestsApart messages) (admitted : job.Admitted pipelines messages) :
    ∃ after next,
      (job.pipeline.process job.chunk (.ofRecords records)).2 = .ofRecords after ∧
      Shared pipelines messages after next ∧
      ∀ entry ∈ next, entry ∈ done ∨ (entry.1, .ok entry.2) =
        (job, (job.pipeline.process job.chunk (.ofRecords records)).1) := by
  rw [process_ofRecords (family.incremental _ admitted.member)]
  cases records.result? job.chunk.id (job.pipeline.resultKey job.chunk) with
  | some stored => exact ⟨_, done, rfl, shared.seen job.chunk, fun entry => .inl⟩
  | none =>
      cases records.result? (outputId job.chunk.content) job.pipeline.outputKey with
      | some mark => exact ⟨_, done, rfl, shared, fun entry => .inl⟩
      | none =>
          cases worked : job.pipeline.work job.chunk with
          | error error => exact ⟨_, done, rfl, shared, fun entry => .inl⟩
          | ok result =>
              refine ⟨_, (job, result) :: done, rfl,
                shared.record apart admitted (family.default _ admitted.member) worked, ?_⟩
              intro entry member
              rcases List.mem_cons.mp member with rfl | earlier
              · exact .inr rfl
              · exact .inl earlier

theorem answers_split (shared : Shared pipelines messages records done)
    (family : Family pipelines) (apart : DigestsApart messages) {jobs : List Job}
    (admitted : ∀ job ∈ jobs, job.Admitted pipelines messages)
    {before after : List (Job × Except Error ChunkResult)}
    {answer : Except Error ChunkResult}
    (split : sharedAnswers jobs (.ofRecords records) = before ++ (job, answer) :: after) :
    ∃ reached accounted, Shared pipelines messages reached accounted ∧
      job.Admitted pipelines messages ∧
      answer = (job.pipeline.process job.chunk (.ofRecords reached)).1 ∧
      ∀ entry ∈ accounted, entry ∈ done ∨ (entry.1, .ok entry.2) ∈ before := by
  induction jobs generalizing records done before with
  | nil => simp [sharedAnswers] at split
  | cons first jobs induction =>
      rw [List.forall_mem_cons] at admitted
      rw [sharedAnswers] at split
      cases before with
      | nil =>
          rw [List.nil_append, List.cons.injEq, Prod.mk.injEq] at split
          obtain ⟨⟨rfl, rfl⟩, -⟩ := split
          exact ⟨records, done, shared, admitted.1, rfl, fun entry => .inl⟩
      | cons head before =>
          rw [List.cons_append, List.cons.injEq] at split
          obtain ⟨rfl, rest⟩ := split
          obtain ⟨between, next, stored, nextShared, added⟩ :=
            shared.process family apart admitted.1
          rw [stored] at rest
          obtain ⟨reached, accounted, facts, jobAdmitted, answered, origins⟩ :=
            induction nextShared admitted.2 rest
          refine ⟨reached, accounted, facts, jobAdmitted, answered, ?_⟩
          intro entry member
          rcases origins entry member with known | later
          · rcases added entry known with earlier | same
            · exact .inl earlier
            · right
              rw [same]
              exact List.mem_cons_self
          · exact .inr (List.mem_cons_of_mem _ later)

end Shared

/-! ### Cached answers -/

/-- On an empty store, a chunk is worked on. -/
theorem process_memory {pipeline : Pipeline} (incremental : pipeline.incremental = true)
    (chunk : Chunk) : (pipeline.process chunk .memory).1 = pipeline.work chunk := by
  change (pipeline.process chunk (.ofRecords .empty)).1 = _
  rw [process_ofRecords incremental]
  simp only [MemoryStore.result?_empty]
  cases pipeline.work chunk with
  | error error => rfl
  | ok result => rfl

/-- Only stored outcomes are cached and changed. -/
theorem exists_stored_of_cached {pipeline : Pipeline} (default : pipeline.transform = none)
    (incremental : pipeline.incremental = true) {chunk : Chunk} {records : MemoryStore}
    {result : ChunkResult}
    (answered : (pipeline.process chunk (.ofRecords records)).1 = .ok result)
    (cached : result.cached = true) (changed : result.changed = true) :
    ∃ stored, records.result? chunk.id (pipeline.resultKey chunk) = some stored ∧
      result = pipeline.reusedResult chunk stored records := by
  rw [process_ofRecords incremental] at answered
  cases found : records.result? chunk.id (pipeline.resultKey chunk) with
  | some stored =>
      rw [found] at answered
      exact ⟨stored, rfl, (Except.ok.inj answered).symm⟩
  | none =>
      rw [found] at answered
      cases marked : records.result? (outputId chunk.content) pipeline.outputKey with
      | some mark =>
          rw [marked] at answered
          cases answered
          cases changed
      | none =>
          rw [marked] at answered
          cases worked : pipeline.work chunk with
          | error error =>
              rw [worked] at answered
              cases answered
          | ok fresh =>
              rw [worked] at answered
              cases answered
              rcases work_cases default worked with rfl | ⟨code, map, rfl⟩
              · cases cached
              · cases cached

/-- A stored outcome that is used again is the pipeline's own, and so are the records of
replaced occurrences if the job is alone. -/
theorem Shared.reusedResult_eq {pipelines : List Pipeline} {messages : List Bytes}
    {records : MemoryStore} {done : List (Job × ChunkResult)} {job : Job}
    (shared : Shared pipelines messages records done) (family : Family pipelines)
    (apart : DigestsApart messages) (admitted : job.Admitted pipelines messages)
    {stored : StoredResult}
    (found : records.result? job.chunk.id (job.pipeline.resultKey job.chunk) = some stored)
    (changed : stored.changed = true) :
    ∃ fresh, job.pipeline.work job.chunk = .ok fresh ∧
      (job.pipeline.reusedResult job.chunk stored records =
        { fresh with
          cached := true
          substitutions :=
            (job.pipeline.reusedResult job.chunk stored records).substitutions }) ∧
      (job.Alone done →
        (job.pipeline.reusedResult job.chunk stored records).substitutions =
          fresh.substitutions) := by
  obtain ⟨entry, member, sameId, sameKey, rfl⟩ := shared.found found changed
  obtain ⟨pipeline, content, sameWork⟩ :=
    (shared.admitted entry member).work_eq family apart admitted sameId sameKey
  have default := family.default _ admitted.member
  have worked : job.pipeline.work job.chunk = .ok entry.2 :=
    sameWork.symm.trans (shared.works entry member)
  have resultChanged : entry.2.changed = true := changed
  refine ⟨entry.2, worked, ?_, ?_⟩
  · rcases work_cases default worked with unchanged | ⟨code, map, given⟩
    · rw [unchanged] at resultChanged
      cases resultChanged
    · rw [given]
      rfl
  · intro alone
    have entryAlone : entry.1.Alone done := by
      unfold Job.Alone
      rw [content, pipeline]
      exact alone
    have listed := shared.listed entry member resultChanged entryAlone
    rw [sameId, content, pipeline] at listed
    simp only [reusedResult, changed, if_true]
    rw [MemoryStore.filter_substitutionsOf
        (by rw [listed]; exact job.pipeline.replaced_ascending job.chunk.content),
      listed, substitutions_of_work default worked, if_pos resultChanged]

/-- A pipeline that shares its store with another, whose rule has another pattern or another
replacement, only uses its own outcomes again.  The replaced occurrences it reads back are its
own too, unless both rules have the same name and the other pipeline changed the same content
before. -/
theorem cached_substitutions_own {leftSettings rightSettings : PipelineSettings}
    {left right : Pipeline} (leftMade : make leftSettings none = .ok left)
    (rightMade : make rightSettings none = .ok right)
    (leftIncremental : leftSettings.incremental = true)
    (rightIncremental : rightSettings.incremental = true)
    (leftClear : 0 ∉ left.rule.pattern) (rightClear : 0 ∉ right.rule.pattern)
    (different : left.rule.pattern ≠ right.rule.pattern ∨
      left.rule.replacement ≠ right.rule.replacement)
    {jobs : List Job} (ours : ∀ job ∈ jobs, job.pipeline ∈ [left, right])
    (paths : ∀ job ∈ jobs, 0 ∉ job.chunk.path)
    (apart : DigestsApart (jobs.flatMap Job.messages))
    {before after : List (Job × Except Error ChunkResult)} {job : Job} {result : ChunkResult}
    (split : sharedAnswers jobs .memory = before ++ (job, .ok result) :: after)
    (cached : result.cached = true) (changed : result.changed = true) :
    ∃ fresh, (job.pipeline.process job.chunk .memory).1 = .ok fresh ∧
      result = { fresh with cached := true, substitutions := result.substitutions } ∧
      (result.substitutions = fresh.substitutions ∨
        (left.rule.id = right.rule.id ∧
          ∃ earlier output, (earlier, .ok output) ∈ before ∧ output.changed = true ∧
            earlier.pipeline ≠ job.pipeline ∧
            earlier.chunk.content = job.chunk.content)) := by
  have family : Family [left, right] := by
    constructor
    · simp [transform_of_make leftMade, transform_of_make rightMade]
    · simp [incremental_of_make leftMade, incremental_of_make rightMade, leftIncremental,
        rightIncremental]
    · simp [← structuralId_of_make leftMade, ← structuralId_of_make rightMade]
    · simp [leftClear, rightClear]
    · intro first firstMember second secondMember pattern replacement
      simp only [List.mem_cons, List.not_mem_nil, or_false] at firstMember secondMember
      rcases firstMember with rfl | rfl <;> rcases secondMember with rfl | rfl
      · rfl
      · exact absurd different (by simp [pattern, replacement])
      · exact absurd different (by simp [pattern, replacement])
      · rfl
  have admitted : ∀ job ∈ jobs, job.Admitted [left, right] (jobs.flatMap Job.messages) := by
    intro job member
    refine ⟨ours job member, paths job member, ?_⟩
    intro message hashed
    exact List.mem_flatMap.mpr ⟨job, member, hashed⟩
  obtain ⟨records, done, shared, jobAdmitted, answered, origins⟩ :=
    (Shared.empty [left, right] (jobs.flatMap Job.messages)).answers_split family apart
      admitted split
  have default := family.default _ jobAdmitted.member
  have incremental := family.incremental _ jobAdmitted.member
  obtain ⟨stored, found, rfl⟩ :=
    exists_stored_of_cached default incremental answered.symm cached changed
  obtain ⟨fresh, worked, same, own⟩ :=
    shared.reusedResult_eq family apart jobAdmitted found changed
  refine ⟨fresh, (process_memory incremental job.chunk).trans worked, same, ?_⟩
  by_cases alone : job.Alone done
  · exact .inl (own alone)
  · right
    unfold Job.Alone at alone
    push Not at alone
    obtain ⟨entry, member, entryChanged, content, sameName, other⟩ := alone
    have names : left.rule.id = right.rule.id := by
      have entryPipeline := (shared.admitted entry member).member
      have jobPipeline := jobAdmitted.member
      simp only [List.mem_cons, List.not_mem_nil, or_false] at entryPipeline jobPipeline
      rcases entryPipeline with entryIs | entryIs <;> rcases jobPipeline with jobIs | jobIs
      · exact absurd (entryIs.trans jobIs.symm) other
      · rw [← entryIs, ← jobIs, sameName]
      · rw [← entryIs, ← jobIs, sameName]
      · exact absurd (entryIs.trans jobIs.symm) other
    refine ⟨names, entry.1, entry.2, ?_, entryChanged, other, content⟩
    exact (origins entry member).resolve_left (by simp)

/-- A chunk that both of two rules change. -/
def contestedChunk : Chunk :=
  ⟨utf8 "x.js", utf8 "a", [], none⟩

/-- Two pipelines one after the other, the second of them twice. -/
def contestedJobs (left right : Rule) : List Job :=
  [⟨barePipeline left, contestedChunk⟩, ⟨barePipeline right, contestedChunk⟩,
    ⟨barePipeline right, contestedChunk⟩]

/-- Under different names, the second pipeline reads its own record back. -/
theorem cached_substitutions_own_named :
    ∃ before result fresh,
      let jobs := contestedJobs (bareRule "first" "a" "b") (bareRule "second" "a" "c")
      sharedAnswers jobs .memory =
        before ++ [(⟨barePipeline (bareRule "second" "a" "c"), contestedChunk⟩, .ok result)] ∧
      ((barePipeline (bareRule "second" "a" "c")).process contestedChunk .memory).1 = .ok fresh ∧
      (result.cached = true ∧ result.changed = true) ∧
      result.substitutions = fresh.substitutions := by
  let left := bareRule "first" "a" "b"
  let right := bareRule "second" "a" "c"
  have leftMade := make_bareSettings (show left.validate = .ok () by decide +kernel)
  have rightMade := make_bareSettings (show right.validate = .ok () by decide +kernel)
  let first := (barePipeline left).process contestedChunk .memory
  let second := (barePipeline right).process contestedChunk first.2
  let third := (barePipeline right).process contestedChunk second.2
  obtain ⟨result, answered, viewed⟩ :=
    exists_ok_of_map_eq
      (show (third.1.map fun result => (result.cached, result.changed)) = .ok (true, true) by
        decide +kernel)
  rw [Prod.mk.injEq] at viewed
  have split : sharedAnswers (contestedJobs left right) .memory =
      [(⟨barePipeline left, contestedChunk⟩, first.1),
        (⟨barePipeline right, contestedChunk⟩, second.1)]
          ++ [(⟨barePipeline right, contestedChunk⟩, .ok result)] := by
    rw [← answered]
    rfl
  obtain ⟨fresh, alone, -, own⟩ :=
    cached_substitutions_own leftMade rightMade rfl rfl (by decide) (by decide) (by decide)
      (by simp [contestedJobs]) (by decide) (by decide +kernel) split viewed.1 viewed.2
  refine ⟨_, result, fresh, split, alone, viewed, own.resolve_right ?_⟩
  rintro ⟨names, -⟩
  exact absurd names (by decide)

/-- Under one name, the second pipeline reads the record of the first one back. -/
theorem cached_substitutions_foreign :
    ∃ before result fresh,
      let jobs := contestedJobs (bareRule "shared" "a" "b") (bareRule "shared" "a" "c")
      let left := barePipeline (bareRule "shared" "a" "b")
      let right := barePipeline (bareRule "shared" "a" "c")
      make (bareSettings (bareRule "shared" "a" "b")) none = .ok left ∧
        make (bareSettings (bareRule "shared" "a" "c")) none = .ok right ∧
        DigestsApart (jobs.flatMap Job.messages) ∧
        sharedAnswers jobs .memory = before ++ [(⟨right, contestedChunk⟩, .ok result)] ∧
        (right.process contestedChunk .memory).1 = .ok fresh ∧
        (result.cached = true ∧ result.changed = true) ∧
        result.substitutions.map Substitution.replacement = [utf8 "b"] ∧
        fresh.substitutions.map Substitution.replacement = [utf8 "c"] := by
  let left := bareRule "shared" "a" "b"
  let right := bareRule "shared" "a" "c"
  let first := (barePipeline left).process contestedChunk .memory
  let second := (barePipeline right).process contestedChunk first.2
  let third := (barePipeline right).process contestedChunk second.2
  obtain ⟨result, answered, viewed⟩ :=
    exists_ok_of_map_eq
      (show (third.1.map fun result => ((result.cached, result.changed),
          result.substitutions.map Substitution.replacement)) =
            .ok ((true, true), [utf8 "b"]) by
        decide +kernel)
  obtain ⟨fresh, alone, freshViewed⟩ :=
    exists_ok_of_map_eq
      (show (((barePipeline right).process contestedChunk .memory).1.map fun result =>
          result.substitutions.map Substitution.replacement) = .ok [utf8 "c"] by
        decide +kernel)
  simp only [Prod.mk.injEq] at viewed
  refine ⟨[(⟨barePipeline left, contestedChunk⟩, first.1),
      (⟨barePipeline right, contestedChunk⟩, second.1)], result, fresh,
    make_bareSettings (by decide +kernel), make_bareSettings (by decide +kernel),
    by decide +kernel, ?_, alone, viewed.1, viewed.2, freshViewed⟩
  rw [← answered]
  rfl

end Pipeline

end Reroute
