import Mathlib
import Reroute.Pipeline.Basic
import Reroute.Proofs.Overlay.Cutting
import Reroute.Proofs.Store.Records

/-!
# The steps of an incremental pipeline

A pipeline that transforms by its rule works on a chunk in one of two ways: the chunk stays
as it is, or its occurrences are replaced and recorded in ascending order.  An incremental
pipeline on a store in memory then has four things it can do with a chunk: use a stored
outcome, recognize output, fail, or work and record.
-/

namespace Reroute

/-! ### Records of replaced occurrences -/

theorem ascending_occurrences (pattern text : Bytes) :
    (occurrences pattern text).Pairwise fun left right => left.start < right.start := by
  by_cases empty : pattern = []
  · simp [occurrences, empty]
  · have cut := cut_occurrences empty text
    have positive : 0 < pattern.length := List.length_pos_iff.mpr empty
    refine (List.Pairwise.and_mem.mp cut.pairwise).imp ?_
    rintro left right ⟨leftMember, -, apart⟩
    have bounds := cut.bounds left leftMember
    omega

theorem exists_substitutionsFrom (rule : Rule) (chunk : ChunkId) {text : Bytes}
    {spans : List Span} (inside : ∀ span ∈ spans, span.within text.length = true)
    (walk : Walk) : ∃ records, substitutionsFrom rule chunk text walk spans = some records := by
  induction spans generalizing walk with
  | nil => exact ⟨[], rfl⟩
  | cons span spans induction =>
      obtain ⟨later, made⟩ := induction (fun other member => inside other (by simp [member]))
        ((walk.goTo span.start).goTo span.stop)
      rw [substitutionsFrom, if_pos (inside span List.mem_cons_self), made]
      exact ⟨_, rfl⟩

theorem within_of_mem_occurrences {pattern text : Bytes} {span : Span}
    (member : span ∈ occurrences pattern text) : span.within text.length = true := by
  by_cases empty : pattern = []
  · rw [occurrences, dif_pos empty] at member
    cases member
  · have bounds := (cut_occurrences empty text).bounds span member
    simp only [Span.within, Bool.and_eq_true, decide_eq_true_eq]
    omega

theorem substitutionsFrom_spec {rule : Rule} {chunk : ChunkId} {text : Bytes} {walk : Walk}
    {spans : List Span} {records : List Substitution}
    (made : substitutionsFrom rule chunk text walk spans = some records) :
    records.map Substitution.offset = spans ∧
      ∀ record ∈ records, record.chunk = chunk ∧ record.ruleId = rule.id := by
  induction spans generalizing walk records with
  | nil =>
      cases made
      simp
  | cons span spans induction =>
      rw [substitutionsFrom] at made
      split at made
      · split at made
        · next later laterMade =>
            cases made
            obtain ⟨offsets, owned⟩ := induction laterMade
            refine ⟨by rw [List.map_cons, offsets], ?_⟩
            intro record member
            rcases List.mem_cons.mp member with rfl | inLater
            · exact ⟨rfl, rfl⟩
            · exact owned record inLater
        · cases made
      · cases made

theorem Rule.spans_of_changed {rule : Rule} {options : TransformOptions}
    {code parent output : Bytes} {map : SourceMap} {spans : List Span}
    (changed : rule.transformWithParent options code parent = .ok (.changed output map spans)) :
    spans = occurrences rule.pattern code := by
  have direct {output : Bytes} {map : SourceMap} {spans : List Span}
      (made : rule.transform options code = .ok (.changed output map spans)) :
      spans = occurrences rule.pattern code := by
    unfold transform at made
    simp only at made
    split at made
    · cases made
    · split at made
      · cases made
      · cases made
        rfl
  unfold transformWithParent at changed
  split at changed
  · cases changed
  · cases changed
  · next made =>
      split at changed
      · cases changed
        exact direct made
      · split at changed
        · cases changed
          exact direct made
        · cases changed

/-- The result has the path and the identifier of a chunk. -/
def ChunkResult.Names (result : ChunkResult) (chunk : Chunk) : Prop :=
  result.path = chunk.path ∧ result.id = chunk.id

namespace Pipeline

/-- The records for all occurrences of the rule in a content. -/
def replaced (pipeline : Pipeline) (content : Bytes) : List Substitution :=
  (substitutions pipeline.rule (ChunkId.ofContent content) content
    (occurrences pipeline.rule.pattern content)).getD []

theorem replaced_owned (pipeline : Pipeline) (content : Bytes) :
    ∀ record ∈ pipeline.replaced content,
      record.chunk = ChunkId.ofContent content ∧ record.ruleId = pipeline.rule.id := by
  unfold replaced substitutions
  cases made : substitutionsFrom pipeline.rule (ChunkId.ofContent content) content
      (.start content) (occurrences pipeline.rule.pattern content) with
  | none => simp
  | some records => exact (substitutionsFrom_spec made).2

theorem replaced_ascending (pipeline : Pipeline) (content : Bytes) :
    (pipeline.replaced content).Pairwise fun left right =>
      left.offset.start < right.offset.start := by
  unfold replaced substitutions
  cases made : substitutionsFrom pipeline.rule (ChunkId.ofContent content) content
      (.start content) (occurrences pipeline.rule.pattern content) with
  | none => simp
  | some records =>
      have ascending := ascending_occurrences pipeline.rule.pattern content
      rw [← (substitutionsFrom_spec made).1, List.pairwise_map] at ascending
      exact ascending

/-! ### Setting up -/

theorem make_spec {settings : PipelineSettings} {transform : Option Transform}
    {pipeline : Pipeline} (made : make settings transform = .ok pipeline) :
    ∃ mode rule, Mode.parse settings.mode = .ok mode ∧ ruleOf settings = .ok rule ∧
      pipeline =
        { mode := mode, rule := rule, incremental := settings.incremental
          includeContent := settings.sourcesContent.getD mode.isDevelopment
          transform := transform } := by
  unfold make at made
  split at made
  · cases made
  · next mode modeParsed =>
      split at made
      · cases made
      · next rule ruleFound =>
          cases made
          exact ⟨mode, rule, modeParsed, ruleFound, rfl⟩

theorem incremental_of_make {settings : PipelineSettings} {transform : Option Transform}
    {pipeline : Pipeline} (made : make settings transform = .ok pipeline) :
    pipeline.incremental = settings.incremental := by
  obtain ⟨mode, rule, -, -, rfl⟩ := make_spec made
  rfl

theorem transform_of_make {settings : PipelineSettings} {transform : Option Transform}
    {pipeline : Pipeline} (made : make settings transform = .ok pipeline) :
    pipeline.transform = transform := by
  obtain ⟨mode, rule, -, -, rfl⟩ := make_spec made
  rfl

/-! ### Working on a chunk -/

/-- Work on a chunk depends on its content, path and parent map only. -/
theorem work_congr (pipeline : Pipeline) {left right : Chunk}
    (content : left.content = right.content) (path : left.path = right.path)
    (map : left.map = right.map) : pipeline.work left = pipeline.work right := by
  obtain ⟨leftPath, leftContent, leftMap, leftProvenance⟩ := left
  obtain ⟨rightPath, rightContent, rightMap, rightProvenance⟩ := right
  dsimp only at content path map
  subst content path map
  rfl

/-- The result of replacing the occurrences of a chunk. -/
def changedResult (pipeline : Pipeline) (chunk : Chunk) (code map : Bytes) : ChunkResult :=
  { path := chunk.path, id := chunk.id, changed := true, cached := false, code := code
    map := some map, substitutions := pipeline.replaced chunk.content }

theorem work_cases {pipeline : Pipeline} (default : pipeline.transform = none) {chunk : Chunk}
    {result : ChunkResult} (worked : pipeline.work chunk = .ok result) :
    result = unchangedResult chunk false ∨
      ∃ code map, result = pipeline.changedResult chunk code map := by
  unfold work at worked
  split at worked
  · split at worked
    · next outcome transformed =>
        cases outcome with
        | unchanged =>
            cases worked
            exact .inl rfl
        | changed code map spans =>
            rw [transformChunk, default, Option.getD_none, Rule.runWithParent] at transformed
            split at transformed
            · next changed =>
                cases transformed
                obtain rfl := Rule.spans_of_changed changed
                simp only [resultOf] at worked
                split at worked
                · cases worked
                · next records recorded =>
                    cases worked
                    refine .inr ⟨code, map.json, ?_⟩
                    rw [changedResult, replaced]
                    simp only [Chunk.id] at recorded
                    rw [recorded]
                    rfl
            · cases transformed
            · cases transformed
    · cases worked
  · cases worked
    exact .inl rfl

theorem faultOf_eq_breakdown {path message : Bytes} {fault : TransformFault}
    (broken : faultOf path fault = .breakdown message) : fault = .breakdown message := by
  cases fault with
  | breakdown text =>
      cases broken
      rfl
  | _ => cases broken

/-- Only a transform that is put in the rule's place breaks down. -/
theorem work_ne_breakdown {pipeline : Pipeline} (default : pipeline.transform = none)
    (chunk : Chunk) (message : Bytes) : pipeline.work chunk ≠ .error (.breakdown message) := by
  intro broken
  unfold work at broken
  split at broken
  · split at broken
    · next outcome transformed =>
        cases outcome with
        | unchanged => cases broken
        | changed code map spans =>
            rw [transformChunk, default, Option.getD_none, Rule.runWithParent] at transformed
            split at transformed
            · next changed =>
                cases transformed
                obtain rfl := Rule.spans_of_changed changed
                have inside : ∀ span ∈ occurrences pipeline.rule.pattern chunk.content,
                    span.within chunk.content.length = true :=
                  fun _ => within_of_mem_occurrences
                obtain ⟨records, made⟩ := exists_substitutionsFrom pipeline.rule chunk.id inside
                  (.start chunk.content)
                simp only [resultOf, substitutions, made] at broken
                cases broken
            · cases transformed
            · cases transformed
    · next fault transformed =>
        rw [transformChunk, default, Option.getD_none, Rule.runWithParent,
          faultOf_eq_breakdown (Except.error.inj broken)] at transformed
        split at transformed
        · cases transformed
        · cases transformed
        · cases transformed
  · cases broken

theorem substitutions_of_work {pipeline : Pipeline} (default : pipeline.transform = none)
    {chunk : Chunk} {result : ChunkResult} (worked : pipeline.work chunk = .ok result) :
    result.substitutions =
      if result.changed then pipeline.replaced chunk.content else [] := by
  rcases work_cases default worked with rfl | ⟨code, map, rfl⟩
  · rfl
  · rfl

theorem exists_ok_of_map_eq {α β ε : Type} {outcome : Except ε α} {view : α → β} {value : β}
    (viewed : outcome.map view = .ok value) :
    ∃ found, outcome = .ok found ∧ view found = value := by
  cases outcome with
  | error error => cases viewed
  | ok found => exact ⟨found, rfl, Except.ok.inj viewed⟩

/-! ### Results name their chunks -/

section

variable {pipeline : Pipeline} {chunk : Chunk} {result : ChunkResult}

theorem names_of_work (worked : pipeline.work chunk = .ok result) : result.Names chunk := by
  unfold work at worked
  split at worked
  · split at worked
    · next outcome transformed =>
        cases outcome with
        | unchanged =>
            cases worked
            exact ⟨rfl, rfl⟩
        | changed code map spans =>
            simp only [resultOf] at worked
            split at worked
            · cases worked
            · cases worked
              exact ⟨rfl, rfl⟩
    · cases worked
  · cases worked
    exact ⟨rfl, rfl⟩

theorem names_of_workAndRecord {store after : Store}
    (answered : pipeline.workAndRecord chunk store = (.ok result, after)) :
    result.Names chunk := by
  unfold workAndRecord at answered
  split at answered
  · cases answered
  · next worked =>
      split at answered
      · cases answered
        exact names_of_work worked
      · cases answered

theorem names_of_reuse {stored : StoredResult} {store after : Store}
    (answered : pipeline.reuse chunk stored store = (.ok result, after)) :
    result.Names chunk := by
  unfold reuse at answered
  split at answered
  · cases answered
  · split at answered
    · split at answered
      · cases answered
      · cases answered
        exact ⟨rfl, rfl⟩
    · cases answered
      exact ⟨rfl, rfl⟩

theorem names_of_processUnless {canceled : Bool} {store after : Store}
    (answered : pipeline.processUnless canceled chunk store = (.ok result, after)) :
    result.Names chunk := by
  unfold processUnless process at answered
  split at answered
  · cases answered
  · split at answered
    · unfold processIncremental at answered
      split at answered
      · exact names_of_reuse answered
      · split at answered
        · cases answered
          exact ⟨rfl, rfl⟩
        · exact names_of_workAndRecord answered
        · cases answered
      · cases answered
    · exact names_of_workAndRecord answered

end

/-! ### Batches -/

theorem processBatch_cons (pipeline : Pipeline) (chunk : Chunk) (chunks : List Chunk)
    (store : Store) :
    pipeline.processBatch none (chunk :: chunks) store =
      match pipeline.process chunk store with
      | (.error error, store) => (.error error, store)
      | (.ok result, store) =>
          match pipeline.processBatch none chunks store with
          | (.error error, store) => (.error error, store)
          | (.ok results, store) => (.ok (result :: results), store) :=
  rfl

/-! ### Recording -/

def storedResult (pipeline : Pipeline) (chunk : Chunk) (result : ChunkResult) : StoredResult :=
  { chunk := result.id, key := pipeline.resultKey chunk, changed := result.changed
    code := result.code, map := result.map }

def outputMark (pipeline : Pipeline) (result : ChunkResult) : StoredResult :=
  { chunk := outputId result.code, key := pipeline.outputKey, changed := false, code := []
    map := none }

/-- Records with a result recorded in them. -/
def recorded (pipeline : Pipeline) (chunk : Chunk) (result : ChunkResult)
    (records : MemoryStore) : MemoryStore :=
  (pipeline.recordings chunk result).foldl
    (fun records recording => records.write recording.change) records

theorem carryOut_ofRecords (path : Bytes) (recordings : List Recording)
    (records : MemoryStore) :
    carryOut path recordings (Store.ofRecords records) =
      (.ok (),
        Store.ofRecords
          (recordings.foldl (fun records recording => records.write recording.change)
            records)) := by
  induction recordings generalizing records with
  | nil => rfl
  | cons recording recordings induction =>
      rw [carryOut, Store.write_ofRecords]
      exact induction (records.write recording.change)

theorem workAndRecord_ofRecords (pipeline : Pipeline) (chunk : Chunk) (records : MemoryStore) :
    pipeline.workAndRecord chunk (Store.ofRecords records) =
      match pipeline.work chunk with
      | .error error => (.error error, Store.ofRecords records)
      | .ok result =>
          (.ok result, Store.ofRecords (pipeline.recorded chunk result records)) := by
  unfold workAndRecord
  cases pipeline.work chunk with
  | error error => rfl
  | ok result =>
      simp only [carryOut_ofRecords]
      rfl

/-- Writing records of replaced occurrences touches nothing else. -/
theorem foldl_write_substitutions (fresh : List Substitution) (records : MemoryStore) :
    (fresh.map fun record => (⟨.substitution, .substitution record⟩ : Recording)).foldl
        (fun records recording => records.write recording.change) records =
      { records with substitutions := insertAll fresh records.substitutions } := by
  induction fresh generalizing records with
  | nil => rfl
  | cons record fresh induction =>
      rw [List.map_cons, List.foldl_cons, induction]
      rfl

theorem substitutions_recorded (pipeline : Pipeline) (chunk : Chunk) (result : ChunkResult)
    (records : MemoryStore) :
    (pipeline.recorded chunk result records).substitutions =
      insertAll result.substitutions records.substitutions := by
  unfold recorded recordings
  simp only [List.foldl_append, foldl_write_substitutions]
  cases result.changed <;> rfl

theorem result?_recorded (pipeline : Pipeline) (chunk : Chunk) (result : ChunkResult)
    (records : MemoryStore) (id : ChunkId) (key : Bytes) :
    (pipeline.recorded chunk result records).result? id key =
      if result.changed = true ∧ outputId result.code = id ∧ pipeline.outputKey = key then
        some (pipeline.outputMark result)
      else if result.id = id ∧ pipeline.resultKey chunk = key then
        some (pipeline.storedResult chunk result)
      else records.result? id key := by
  unfold recorded recordings
  simp only [List.foldl_append, foldl_write_substitutions]
  cases changed : result.changed with
  | false =>
      simp only [List.foldl_cons, List.foldl_nil, Bool.false_eq_true, if_false, false_and,
        MemoryStore.result?_write_result]
      rw [storedResult, changed]
      rfl
  | true =>
      simp only [List.foldl_cons, List.foldl_nil, if_true, true_and,
        MemoryStore.result?_write_result]
      rw [storedResult, changed]
      rfl

/-! ### Processing a chunk -/

/-- The result of using a stored outcome again. -/
def reusedResult (pipeline : Pipeline) (chunk : Chunk) (stored : StoredResult)
    (records : MemoryStore) : ChunkResult :=
  { path := chunk.path, id := chunk.id, changed := stored.changed, cached := true
    code := stored.code, map := stored.map
    substitutions :=
      if stored.changed then
        (records.substitutionsOf chunk.id).filter fun record =>
          record.ruleId == pipeline.rule.id
      else [] }

/-- Records in which a chunk was seen. -/
def seen (chunk : Chunk) (records : MemoryStore) : MemoryStore :=
  records.write (.chunk chunk.id chunk.content.length (some chunk.source))

theorem reuse_ofRecords (pipeline : Pipeline) (chunk : Chunk) (stored : StoredResult)
    (records : MemoryStore) :
    pipeline.reuse chunk stored (Store.ofRecords records) =
      (.ok (pipeline.reusedResult chunk stored records), Store.ofRecords (seen chunk records)) := by
  unfold reuse reusedResult
  simp only [Store.write_ofRecords, Store.getSubstitutions_ofRecords]
  cases changed : stored.changed with
  | false => simp only [cachedResult, changed, Bool.false_eq_true, if_false, seen]
  | true =>
      simp only [withSubstitutions, cachedResult, changed, if_true, seen]
      rfl

/-- What an incremental pipeline does with a chunk, by what the records hold for it. -/
theorem process_ofRecords {pipeline : Pipeline} (incremental : pipeline.incremental = true)
    (chunk : Chunk) (records : MemoryStore) :
    pipeline.process chunk (Store.ofRecords records) =
      match records.result? chunk.id (pipeline.resultKey chunk) with
      | some stored =>
          (.ok (pipeline.reusedResult chunk stored records),
            Store.ofRecords (seen chunk records))
      | none =>
          match records.result? (outputId chunk.content) pipeline.outputKey with
          | some _ => (.ok (unchangedResult chunk true), Store.ofRecords records)
          | none =>
              match pipeline.work chunk with
              | .error error => (.error error, Store.ofRecords records)
              | .ok result =>
                  (.ok result, Store.ofRecords (pipeline.recorded chunk result records)) := by
  unfold process processIncremental
  rw [if_pos incremental, Store.getResult_ofRecords]
  cases records.result? chunk.id (pipeline.resultKey chunk) with
  | some stored => exact reuse_ofRecords pipeline chunk stored records
  | none =>
      simp only [Store.getResult_ofRecords]
      cases records.result? (outputId chunk.content) pipeline.outputKey with
      | some mark => rfl
      | none => exact workAndRecord_ofRecords pipeline chunk records

end Pipeline

end Reroute
