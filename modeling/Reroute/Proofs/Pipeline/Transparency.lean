import Mathlib
import Reroute.Proofs.Pipeline.Ledger

/-!
# The cache is transparent

An incremental pipeline answers every chunk of a sequence as a pipeline without a cache
would answer that chunk alone.  The one exception is on purpose: a chunk that agrees, up to
the comment that names its map, with earlier output is left as it is.
-/

namespace Reroute

namespace Pipeline

/-- The answers to chunks that are processed one after the other, whether or not some of
them fail. -/
def answers (pipeline : Pipeline) :
    List Chunk → Store → List (Chunk × Except Error ChunkResult)
  | [], _ => []
  | chunk :: chunks, store =>
      (chunk, (pipeline.process chunk store).1)
        :: pipeline.answers chunks (pipeline.process chunk store).2

/-- The messages that are hashed to answer a chunk. -/
def answerMessages (pipeline : Pipeline) (chunk : Chunk) (answer : Except Error ChunkResult) :
    List Bytes :=
  pipeline.lookupMessages chunk
    ++ match answer with
      | .ok result => outputMessages result
      | .error _ => []

/-- The messages that are hashed in a sequence of answers. -/
def hashedMessages (pipeline : Pipeline) (answered : List (Chunk × Except Error ChunkResult)) :
    List Bytes :=
  answered.flatMap fun (chunk, answer) => pipeline.answerMessages chunk answer

/-- A result without regard to where it came from. -/
def withoutCache (result : ChunkResult) : ChunkResult :=
  { result with cached := false }

theorem map_fst_answers (pipeline : Pipeline) (chunks : List Chunk) (store : Store) :
    (pipeline.answers chunks store).map Prod.fst = chunks := by
  induction chunks generalizing store with
  | nil => rfl
  | cons chunk chunks induction => rw [answers, List.map_cons, induction]

namespace Ledger

variable {pipeline : Pipeline} {messages : List Bytes} {records : MemoryStore}
  {entries : List Entry} {chunk : Chunk}

/-- The answer to a chunk is its work, or the chunk is recognized as output. -/
theorem answer_cases (ledger : Ledger pipeline messages records entries)
    (default : pipeline.transform = none) (apart : DigestsApart messages)
    (hashed : pipeline.Hashed messages chunk) {answer : Except Error ChunkResult}
    {next : List Entry} (answered : Answered pipeline records entries chunk answer next) :
    answer.map withoutCache = (pipeline.work chunk).map withoutCache ∨
      (answer = .ok (unchangedResult chunk true) ∧
        ∃ entry ∈ entries, entry.result.changed = true ∧
          Comment.strip entry.result.code = Comment.strip chunk.content) := by
  cases answered with
  | reused found =>
      obtain ⟨result, worked, reused⟩ := ledger.reusedResult_eq default apart hashed found
      left
      rw [reused, worked]
      rfl
  | recognized member changed stripped => exact .inr ⟨rfl, _, member, changed, stripped⟩
  | failed worked => exact .inl (by rw [worked])
  | worked worked => exact .inl (by rw [worked])

/-- Every answer of a sequence is given on records that are accounted for by the answers
before it. -/
theorem answers_split (ledger : Ledger pipeline messages records entries)
    (default : pipeline.transform = none) (incremental : pipeline.incremental = true)
    (apart : DigestsApart messages) {chunks : List Chunk}
    (paths : ∀ chunk ∈ chunks, 0 ∉ chunk.path)
    (subset : pipeline.hashedMessages (pipeline.answers chunks (.ofRecords records)) ⊆ messages)
    {before after : List (Chunk × Except Error ChunkResult)}
    {answer : Except Error ChunkResult}
    (split : pipeline.answers chunks (.ofRecords records) = before ++ (chunk, answer) :: after) :
    ∃ reached accounted next, Ledger pipeline messages reached accounted ∧
      pipeline.Hashed messages chunk ∧
      Answered pipeline reached accounted chunk answer next ∧
      ∀ entry ∈ accounted, entry ∈ entries ∨ (entry.chunk, .ok entry.result) ∈ before := by
  induction chunks generalizing records entries before with
  | nil => simp [answers] at split
  | cons first chunks induction =>
      obtain ⟨firstAnswer, store, processed⟩ :
          ∃ firstAnswer store,
            pipeline.process first (.ofRecords records) = (firstAnswer, store) :=
        ⟨_, _, rfl⟩
      rw [answers, processed] at split subset
      have firstHashed : pipeline.Hashed messages first := by
        refine ⟨paths first (by simp), ?_⟩
        intro message member
        exact subset (by simp [hashedMessages, answerMessages, member])
      obtain ⟨between, accounted, stored, nextLedger, firstAnswered⟩ :=
        ledger.process default incremental apart firstHashed processed (by
          intro result answered message member
          exact subset (by simp [hashedMessages, answerMessages, answered, member]))
      cases before with
      | nil =>
          rw [List.nil_append, List.cons.injEq, Prod.mk.injEq] at split
          obtain ⟨⟨rfl, rfl⟩, -⟩ := split
          exact ⟨records, entries, accounted, ledger, firstHashed, firstAnswered,
            fun entry member => .inl member⟩
      | cons head before =>
          rw [List.cons_append, List.cons.injEq] at split
          obtain ⟨rfl, rest⟩ := split
          rw [stored] at rest subset
          obtain ⟨reached, last, next, lastLedger, hashed, answered, origins⟩ :=
            induction nextLedger
              (fun other member => paths other (List.mem_cons_of_mem _ member))
              (fun message member => subset (List.mem_append_right _ member)) rest
          refine ⟨reached, last, next, lastLedger, hashed, answered, ?_⟩
          intro entry member
          rcases origins entry member with known | later
          · rcases firstAnswered.mem_or_eq known with earlier | same
            · exact .inl earlier
            · right
              rw [same]
              exact List.mem_cons_self
          · exact .inr (List.mem_cons_of_mem _ later)

end Ledger

/-- Whether a pipeline is incremental is all that the setting decides. -/
theorem eq_of_make {settings : PipelineSettings} {pipeline plain : Pipeline}
    (made : make settings none = .ok pipeline)
    (plainMade : make { settings with incremental := false } none = .ok plain) :
    plain = { pipeline with incremental := false } := by
  obtain ⟨mode, rule, modeParsed, ruleFound, rfl⟩ := make_spec made
  obtain ⟨plainMode, plainRule, plainParsed, plainFound, rfl⟩ := make_spec plainMade
  obtain rfl : mode = plainMode := Except.ok.inj (modeParsed.symm.trans plainParsed)
  obtain rfl : rule = plainRule := Except.ok.inj (ruleFound.symm.trans plainFound)
  rfl

/-- A pipeline without a cache answers a chunk with its work. -/
theorem process_without_cache (pipeline : Pipeline) (chunk : Chunk) :
    (process { pipeline with incremental := false } chunk .memory).1 = pipeline.work chunk := by
  have worked := workAndRecord_ofRecords { pipeline with incremental := false } chunk .empty
  have same : work { pipeline with incremental := false } chunk = pipeline.work chunk := rfl
  rw [same] at worked
  change (workAndRecord { pipeline with incremental := false } chunk (.ofRecords .empty)).1 = _
  rw [worked]
  cases pipeline.work chunk with
  | error error => rfl
  | ok result => rfl

/-- Every chunk of a sequence is answered as a pipeline without a cache answers it alone,
or it is left as it is because it agrees with the code of an earlier changed result up to
the comment that names its map. -/
theorem incremental_transparent {settings : PipelineSettings} {pipeline plain : Pipeline}
    (incremental : settings.incremental = true) (made : make settings none = .ok pipeline)
    (plainMade : make { settings with incremental := false } none = .ok plain)
    {chunks : List Chunk} (paths : ∀ chunk ∈ chunks, 0 ∉ chunk.path)
    (apart : DigestsApart (pipeline.hashedMessages (pipeline.answers chunks .memory))) :
    (pipeline.answers chunks .memory).map Prod.fst = chunks ∧
      ∀ before chunk answer after,
        pipeline.answers chunks .memory = before ++ (chunk, answer) :: after →
        answer.map withoutCache = (plain.process chunk .memory).1.map withoutCache ∨
          (answer = .ok (unchangedResult chunk true) ∧
            ∃ earlier result, (earlier, .ok result) ∈ before ∧ result.changed = true ∧
              Comment.strip result.code = Comment.strip chunk.content) := by
  refine ⟨map_fst_answers pipeline chunks .memory, ?_⟩
  intro before chunk answer after split
  have isIncremental := (incremental_of_make made).trans incremental
  have default := transform_of_make made
  have start := Ledger.empty pipeline
    (pipeline.hashedMessages (pipeline.answers chunks .memory))
  obtain ⟨records, entries, next, ledger, hashed, answered, origins⟩ :=
    start.answers_split default isIncremental apart paths (List.Subset.refl _) split
  rw [eq_of_make made plainMade, process_without_cache]
  rcases ledger.answer_cases default apart hashed answered with same | recognized
  · exact .inl same
  · obtain ⟨unchanged, entry, member, changed, stripped⟩ := recognized
    refine .inr ⟨unchanged, entry.chunk, entry.result, ?_, changed, stripped⟩
    exact (origins entry member).resolve_left (by simp)

/-- Settings for an incremental pipeline with the builtin rule. -/
def incrementalSettings : PipelineSettings :=
  { mode := [], incremental := true, sourcesContent := none, rule := none }

/-- A chunk with a call, and a chunk that is its output with a comment. -/
def callChunk : Chunk :=
  ⟨utf8 "a.js", utf8 "import(x)", [], none⟩

def calledChunk : Chunk :=
  ⟨utf8 "b.js", utf8 "window.import(x)\n//# sourceMappingURL=a.map", [], none⟩

/-- Output that comes back under another name and with a comment is recognized, where a
pipeline without a cache would transform it again. -/
theorem incremental_transparent_output :
    ∃ pipeline plain before,
      make incrementalSettings none = .ok pipeline ∧
      make { incrementalSettings with incremental := false } none = .ok plain ∧
      pipeline.answers [callChunk, callChunk, calledChunk] .memory =
        before ++ [(calledChunk, .ok (unchangedResult calledChunk true))] ∧
      ((plain.process calledChunk .memory).1.map fun result => result.changed) = .ok true ∧
      ∃ earlier result, (earlier, .ok result) ∈ before ∧ result.changed = true ∧
        Comment.strip result.code = Comment.strip calledChunk.content := by
  let pipeline : Pipeline := ⟨.production, Rule.builtin, true, false, none⟩
  let plain : Pipeline := ⟨.production, Rule.builtin, false, false, none⟩
  let chunks := [callChunk, callChunk, calledChunk]
  have parsed : Mode.parse [] = .ok .production := by decide +kernel
  have made : make incrementalSettings none = .ok pipeline := by
    rw [make, incrementalSettings, parsed]
    rfl
  have plainMade : make { incrementalSettings with incremental := false } none = .ok plain := by
    rw [make, incrementalSettings, parsed]
    rfl
  have answered : pipeline.answers chunks .memory =
      (pipeline.answers chunks .memory).dropLast
        ++ [(calledChunk, .ok (unchangedResult calledChunk true))] := by
    decide +kernel
  have again : ((plain.process calledChunk .memory).1.map fun result => result.changed) =
      .ok true := by
    decide +kernel
  obtain ⟨-, transparent⟩ :=
    incremental_transparent rfl made plainMade (show ∀ chunk ∈ chunks, 0 ∉ chunk.path by decide)
      (by decide +kernel)
  refine ⟨pipeline, plain, _, made, plainMade, answered, again, ?_⟩
  rcases transparent _ _ _ _ answered with same | recognized
  · have forget (answer : Except Error ChunkResult) :
        ((answer.map withoutCache).map fun result => result.changed) =
          answer.map fun result => result.changed := by
      cases answer <;> rfl
    have unchanged := congrArg (Except.map fun result => result.changed) same
    rw [forget, forget, again] at unchanged
    cases unchanged
  · exact recognized.2

end Pipeline

end Reroute
