import Mathlib
import Reroute.CommandLine.Transform
import Reroute.Proofs.Files.Placing
import Reroute.Proofs.Pipeline.Failing
import Reroute.Proofs.Pipeline.Workers

/-!
# A failed transform touches no file

The results of a transform are only written when the whole batch has succeeded.  If a chunk
fails, the tree is the one before the call, apart from the file of the store, and with a store
in memory it is that tree altogether.
-/

namespace Reroute

open Pipeline

namespace CommandLine

/-- What a call comes to before its chunks are processed: its configuration, the open store,
the tree from then on, and the chunks. -/
inductive TransformCall.Reaches (call : TransformCall) (files : Files) :
    Config → PlacedStore → Files → List Chunk → Prop where
  | intro {isDirectory : Bool} {config : Config} {placed : PlacedStore} {opened : Files}
      {found : List ChunkFile} :
      call.prepare files = .ok (isDirectory, config) →
      files.openStore config.storePath = (.ok placed, opened) →
      (config.search call.target).run opened false = .ok found →
      Reaches call files config placed opened
        ((ChunkFile.sort found).map (chunkOf call.target isDirectory))

/-- However the results are brought together, nothing is written if that fails. -/
theorem TransformCall.Reaches.runBy_of_error {call : TransformCall} {files : Files}
    {config : Config} {placed : PlacedStore} {opened : Files} {chunks : List Chunk}
    {gather : Gather} {error : Error} {store : Store}
    (reaches : call.Reaches files config placed opened chunks)
    (failed : gather config.pipeline chunks placed.store = (.error error, store)) :
    call.runBy gather files =
      (.error (.batch error), opened.keepStore { placed with store := store }) := by
  cases reaches with
  | intro prepared answered found =>
      rw [runBy, prepared]
      simp only [answered]
      rw [transformFilesBy, found]
      simp only [failed]

theorem TransformCall.Reaches.agreeOutside {call : TransformCall} {files : Files}
    {config : Config} {placed : PlacedStore} {opened : Files} {chunks : List Chunk}
    (reaches : call.Reaches files config placed opened chunks) (store : Store) :
    Files.AgreeOutside placed.names (opened.keepStore { placed with store := store }) files := by
  cases reaches with
  | intro _ answered _ =>
      have opening := Files.openStore_agreeOutside answered
      exact (Files.keepStore_agreeOutside opened { placed with store := store }).trans opening

theorem TransformCall.Reaches.keepStore_of_memory {call : TransformCall} {files : Files}
    {config : Config} {placed : PlacedStore} {opened : Files} {chunks : List Chunk}
    (reaches : call.Reaches files config placed opened chunks)
    (inMemory : config.storePath = memoryPath) (store : Store) :
    opened.keepStore { placed with store := store } = files := by
  cases reaches with
  | intro _ answered _ =>
      rw [inMemory, Files.openStore_memoryPath] at answered
      obtain ⟨placement, rfl⟩ := Prod.mk.inj answered
      obtain rfl := Except.ok.inj placement
      rfl

/-- What a failed batch leaves of the tree. -/
theorem TransformCall.Reaches.intact {call : TransformCall} {files : Files} {config : Config}
    {placed : PlacedStore} {opened : Files} {chunks : List Chunk} {gather : Gather}
    {error : Error} {store : Store} (reaches : call.Reaches files config placed opened chunks)
    (failed : gather config.pipeline chunks placed.store = (.error error, store)) :
    ∃ afterwards, call.runBy gather files = (.error (.batch error), afterwards) ∧
      (config.storePath = memoryPath → afterwards = files) ∧
      Files.AgreeOutside placed.names afterwards files := by
  refine ⟨_, reaches.runBy_of_error failed, ?_, reaches.agreeOutside store⟩
  intro inMemory
  exact reaches.keepStore_of_memory inMemory store

/-- A chunk that fails leaves a store in memory as it was.  A batch answers with the first
failure and no results, whether the chunks behind it are left out or find processing canceled,
and leaves the store that the chunks before the failure left.  A transform of files then
changes no file but that of its store, and none at all if the store is in memory.  That is also
so if any number of workers take turns and one of them fails at any time. -/
theorem failure_leaves_intact :
    (∀ pipeline canceled chunk records error store,
      processUnless canceled pipeline chunk (.ofRecords records) = (.error error, store) →
      store = .ofRecords records) ∧
    (∀ pipeline cancelAt records before chunk after error,
      FirstFailure pipeline cancelAt (.ofRecords records) before chunk error →
      processBatch cancelAt pipeline (before ++ chunk :: after) (.ofRecords records) =
          (.error error, storeAfter pipeline cancelAt before (.ofRecords records)) ∧
        processGroup pipeline cancelAt (before ++ chunk :: after) (.ofRecords records) =
          (.error error, storeAfter pipeline cancelAt before (.ofRecords records))) ∧
    (∀ call files config placed opened before chunk after error,
      TransformCall.Reaches call files config placed opened (before ++ chunk :: after) →
      FirstFailure config.pipeline none placed.store before chunk error →
      ∃ afterwards, call.run files = (.error (.batch error), afterwards) ∧
        (config.storePath = memoryPath → afterwards = files) ∧
        Files.AgreeOutside placed.names afterwards files) ∧
    ∀ asked call files config placed opened chunks gather answer group last,
      TransformCall.Reaches call files config placed opened chunks →
      Relation.ReflTransGen (Group.Step asked config.pipeline) (.start chunks placed.store)
        group →
      group.Failing →
      Relation.ReflTransGen (Group.Step asked config.pipeline) group last →
      last.Ends asked answer →
      gather config.pipeline chunks placed.store = (answer, last.store) →
      ∃ error afterwards, answer = .error error ∧
        call.runBy gather files = (.error (.batch error), afterwards) ∧
        (config.storePath = memoryPath → afterwards = files) ∧
        Files.AgreeOutside placed.names afterwards files := by
  refine ⟨?_, ?_, ?_, ?_⟩
  · intro pipeline canceled chunk records error store failed
    exact processUnless_ofRecords_error failed
  · intro pipeline cancelAt records before chunk after error failure
    rw [processGroup_eq]
    exact ⟨failure.processBatch_ofRecords after, failure.processBatch_ofRecords after⟩
  · intro call files config placed opened before chunk after error reaches failure
    obtain ⟨canceled, -, batch⟩ := failure.processBatch after
    exact reaches.intact batch
  · intro asked call files config placed opened chunks gather answer group last reaches _ failing
      reached ends gathered
    obtain ⟨error, rfl⟩ := failing.answer reached ends
    obtain ⟨afterwards, ran, untouched⟩ := reaches.intact gathered
    exact ⟨error, afterwards, rfl, ran, untouched⟩

/-- Two chunks, of which the second has a parent map that is no map. -/
def spoiltEntries : List (Bytes × Entry) :=
  [(utf8 "a.js", .file (utf8 "import(x)")), (utf8 "b.js", .file (utf8 "import(y)")),
    (utf8 "b.js.map", .file (utf8 "["))]

def spoiltTree : Files :=
  ⟨.directory [(utf8 "d", .directory spoiltEntries)], []⟩

def spoiltCall : TransformCall :=
  { target := utf8 "d", configPath := [], outDir := [], format := utf8 "human", mode := []
    store := [], incremental := false, inlineMap := false, includeHidden := false
    workers := 0 }

def soundChunk : Chunk :=
  ⟨utf8 "a.js", utf8 "import(x)", [], some (.file (utf8 "d/a.js"))⟩

def spoiltChunk : Chunk :=
  ⟨utf8 "b.js", utf8 "import(y)", utf8 "[", some (.file (utf8 "d/b.js"))⟩

theorem spoiltCall_reaches :
    spoiltCall.Reaches spoiltTree Config.standard ⟨none, .memory⟩ spoiltTree
      [soundChunk, spoiltChunk] := by
  have configured : Config.load spoiltTree [] = .ok Config.standard := by cbv
  have target : spoiltTree.stat (utf8 "d") = .ok (.directory spoiltEntries) := by cbv
  have prepared : spoiltCall.prepare spoiltTree = .ok (true, Config.standard) := by
    simp only [TransformCall.prepare, show spoiltCall.target = utf8 "d" from rfl,
      show spoiltCall.configPath = [] from rfl, configured, target]
    rfl
  have found : (Config.standard.search spoiltCall.target).run spoiltTree false =
      .ok [⟨utf8 "d/a.js", utf8 "import(x)", none⟩,
        ⟨utf8 "d/b.js", utf8 "import(y)", some (utf8 "[")⟩] := by
    cbv
  have reaches := TransformCall.Reaches.intro prepared spoiltTree.openStore_memoryPath found
  rw [ChunkFile.sort, List.mergeSort_of_pairwise (by decide)] at reaches
  exact reaches

/-- Of two workers, the one with the second chunk fails before the other began. -/
theorem exists_failing_spoilt :
    ∃ group : Group, group.Failing ∧ group.Sound ∧
      Relation.ReflTransGen (Group.Step 2 Config.standard.pipeline)
        (.start [soundChunk, spoiltChunk] .memory) group := by
  let cause := Error.composition (utf8 "b.js") (.parent .malformed)
  have worked : Config.standard.pipeline.work spoiltChunk = .error cause := by decide +kernel
  have reachable : Relation.ReflTransGen (Group.Step 2 Config.standard.pipeline)
      (.start [soundChunk, spoiltChunk] .memory)
      ⟨[], [.busy soundChunk .arrive, .busy spoiltChunk (.done (.error cause))], none,
        .memory⟩ := by
    refine .head (.handOver (by decide)) (.head (.handOver (by decide)) ?_)
    have advance (task : Task) (going : task.isDone = false) :=
      @Group.Step.advance 2 Config.standard.pipeline [] [.busy soundChunk .arrive] [] spoiltChunk
        task none .memory going
    have last := advance .work rfl
    rw [Task.step, worked] at last
    exact .head (advance .arrive rfl) (.single last)
  refine ⟨_, .inr ⟨spoiltChunk, cause, by simp⟩, ?_, reachable⟩
  intro _ error member
  simp at member

/-- The second chunk fails after the first succeeded, and no file is changed. -/
theorem failure_leaves_intact_spoilt :
    let pipeline := Config.standard.pipeline
    let error := Error.composition (utf8 "b.js") (.parent .malformed)
    pipeline.process spoiltChunk .memory = (.error error, .memory) ∧
      pipeline.processBatch none [soundChunk, spoiltChunk, soundChunk] .memory =
        (.error error, storeAfter pipeline none [soundChunk] .memory) ∧
      storeAfter pipeline none [soundChunk] .memory ≠ .memory ∧
      spoiltCall.run spoiltTree = (.error (.batch error), spoiltTree) ∧
      ∃ gather cause store,
        Gathers 2 pipeline [soundChunk, spoiltChunk] .memory (.error cause) store ∧
          spoiltCall.runBy gather spoiltTree = (.error (.batch cause), spoiltTree) := by
  intro pipeline error
  obtain ⟨single, batch, files, turns⟩ := failure_leaves_intact
  obtain ⟨result, succeeded, -⟩ :=
    exists_ok_of_map_eq
      (show (pipeline.processUnless false soundChunk .memory).1.map ChunkResult.changed =
        .ok true by decide +kernel)
  have failed : (pipeline.processUnless false spoiltChunk .memory).1 = .error error := by
    decide +kernel
  have failure : FirstFailure pipeline none .memory [soundChunk] spoiltChunk error :=
    .later (Prod.ext succeeded rfl) (.here (by decide +kernel))
  obtain ⟨afterwards, ran, untouched, -⟩ :=
    files spoiltCall spoiltTree Config.standard ⟨none, .memory⟩ spoiltTree [soundChunk]
      spoiltChunk [] error spoiltCall_reaches failure
  refine ⟨?_, (batch pipeline none .empty _ _ [soundChunk] _ failure).1, by decide +kernel, ?_, ?_⟩
  · have kept := single pipeline false spoiltChunk .empty error _ (Prod.ext failed rfl)
    exact Prod.ext failed kept
  · rw [ran, untouched rfl]
  · obtain ⟨group, failing, sound, reachable⟩ := exists_failing_spoilt
    obtain ⟨last, answer, reached, ends⟩ := sound.exists_ends 2 pipeline
    let gather : Gather := fun _ _ _ => (answer, last.store)
    obtain ⟨cause, afterwards, rfl, left, intact, -⟩ :=
      turns 2 spoiltCall spoiltTree Config.standard ⟨none, .memory⟩ spoiltTree
        [soundChunk, spoiltChunk] gather answer group last spoiltCall_reaches reachable failing
        reached ends rfl
    refine ⟨gather, cause, last.store, ⟨last, reachable.trans reached, ends, rfl⟩, ?_⟩
    rw [left, intact rfl]

end CommandLine

end Reroute
