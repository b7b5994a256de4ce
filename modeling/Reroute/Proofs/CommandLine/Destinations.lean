import Mathlib
import Reroute.CommandLine.Transform
import Reroute.Proofs.Files.Walking
import Reroute.Proofs.Pipeline.Steps

/-!
# What a transform writes twice

A chunk file is written at its own path or at the same place below another directory, and its
map beside it under a name that has a suffix more.  Different chunk files have different
places.  The map of one can only meet the code of another: that happens if the other one is
called what the map is called.  Map files are not kept from being chunk files, so it can happen
when the suffix ends in an extension of chunk files, and in no other case.
-/

namespace Reroute

/-! ### Results keep paths -/

namespace Pipeline

theorem paths_of_processBatch {pipeline : Pipeline} {cancelAt : Option Nat} {chunks : List Chunk}
    {store after : Store} {results : List ChunkResult}
    (answered : processBatch cancelAt pipeline chunks store = (.ok results, after)) :
    List.Forall₂ (fun chunk result => result.path = chunk.path) chunks results := by
  induction chunks generalizing cancelAt store after results with
  | nil =>
      cases answered
      exact .nil
  | cons chunk chunks induction =>
      rw [processBatch] at answered
      split at answered
      · cases answered
      · next first =>
          split at answered
          · cases answered
          · next rest =>
              cases answered
              exact .cons (names_of_processUnless first).1 (induction rest)

end Pipeline

/-! ### Chunk files of a directory -/

namespace ChunkSearch

/-- The path consists of the start that all chunk files below a root have and of names. -/
def Below (root path : Bytes) : Prop :=
  ∃ names, names ≠ [] ∧ (∀ name ∈ names, Path.Proper name) ∧
    path = Path.lead root ++ Bytes.join [Bytes.slash] names

variable {search : ChunkSearch} {verdict : Ignore.Verdict} {files : Files}

theorem path_of_readFile {path : Bytes} {file : ChunkFile}
    (found : search.readFile files path = .ok (some file)) : file.path = path := by
  unfold readFile at found
  split at found
  · cases found
  · split at found
    · cases found
    · split at found
      · cases found
        rfl
      · split at found
        · cases found
          rfl
        · cases found
          rfl
        · cases found

theorem paths_of_readFiles {paths : List Bytes} {found : List ChunkFile}
    (answered : search.readFiles files paths = .ok found) :
    (found.map ChunkFile.path).Sublist paths := by
  induction paths generalizing found with
  | nil =>
      cases answered
      exact .slnil
  | cons path paths induction =>
      rw [readFiles] at answered
      split at answered
      · cases answered
      · next file read =>
          split at answered
          · cases answered
          · next others rest =>
              cases answered
              cases file with
              | none => exact (induction rest).cons path
              | some file =>
                  rw [Option.toList_some, List.singleton_append, List.map_cons,
                    path_of_readFile read]
                  exact (induction rest).cons_cons path

theorem pathOf_eq (given : search.root ≠ []) {leaf : Leaf} (nonempty : leaf.names ≠ [])
    (proper : ∀ name ∈ leaf.names, Path.Proper name) :
    search.pathOf leaf = Path.lead search.root ++ Bytes.join [Bytes.slash] leaf.names := by
  rw [pathOf, if_neg (by simpa using nonempty)]
  exact Path.join_names nonempty given proper

/-- The leaves of a proper directory have different paths. -/
theorem nodup_map_pathOf (given : search.root ≠ []) {leaves : List Leaf}
    (distinct : (leaves.map Leaf.names).Nodup)
    (named : ∀ leaf ∈ leaves, leaf.names ≠ [] ∧ ∀ name ∈ leaf.names, Path.Proper name) :
    (leaves.map search.pathOf).Nodup := by
  apply List.Nodup.map_on _ (List.Nodup.of_map _ distinct)
  intro left leftListed right rightListed same
  obtain ⟨leftSome, leftProper⟩ := named left leftListed
  obtain ⟨rightSome, rightProper⟩ := named right rightListed
  rw [pathOf_eq given leftSome leftProper, pathOf_eq given rightSome rightProper] at same
  apply List.inj_on_of_nodup_map distinct leftListed rightListed
  exact Path.names_eq_of_join_eq leftSome leftProper rightSome rightProper
    (List.append_cancel_left same)

/-- Below a directory every chunk file is found at another path. -/
theorem eligible_spec (proper : files.top.Proper) (given : search.root ≠ [])
    {paths : List Bytes} (answered : search.eligible verdict files = .ok paths) :
    paths.length ≤ 1 ∨
      paths.Nodup ∧ ∀ path ∈ paths, search.hasExtension path = true ∧ Below search.root path := by
  unfold eligible at answered
  split at answered
  · cases answered
  · next entry started =>
      dsimp only at answered
      split at answered
      · cases answered
      · cases answered
        have entryProper := Files.proper_of_walkStart proper started
        cases entry with
        | file content => exact .inl ((List.length_map _).trans_le (List.length_filter_le _ _))
        | database tables => exact .inl ((List.length_map _).trans_le (List.length_filter_le _ _))
        | link target => exact .inl ((List.length_map _).trans_le (List.length_filter_le _ _))
        | directory members =>
            right
            obtain ⟨distinct, named⟩ := entryProper.leaves
              fun name => !search.includeHidden && isHidden name
            constructor
            · apply (List.filter_sublist.map search.pathOf).nodup
              exact nodup_map_pathOf given distinct named
            · intro path member
              obtain ⟨leaf, selected, rfl⟩ := List.mem_map.mp member
              obtain ⟨listed, chosen⟩ := List.mem_filter.mp selected
              obtain ⟨nonempty, allProper⟩ := named leaf listed
              refine ⟨?_, leaf.names, nonempty, allProper, pathOf_eq given nonempty allProper⟩
              simp only [selects, Bool.and_eq_true] at chosen
              exact chosen.1.1.2

theorem run_spec (proper : files.top.Proper) {entry : Entry}
    (target : files.stat search.root = .ok entry) {found : List ChunkFile}
    (answered : search.runBy verdict files false = .ok found) :
    found.length ≤ 1 ∨
      entry.isDirectory = true ∧ (found.map ChunkFile.path).Nodup ∧
        ∀ file ∈ found, search.hasExtension file.path = true ∧ Below search.root file.path := by
  have few {paths : List Bytes} (short : paths.length ≤ 1)
      (read : search.readFiles files paths = .ok found) : found.length ≤ 1 := by
    have part := (paths_of_readFiles read).length_le
    rw [List.length_map] at part
    omega
  unfold runBy at answered
  rw [target] at answered
  simp only [Bool.false_eq_true, if_false] at answered
  split at answered
  · cases answered
  · next paths listed =>
      split at answered
      · cases answered
      · unfold candidates at listed
        split at listed
        · next isDirectory =>
            rcases eligible_spec proper (Files.ne_nil_of_entryAt target) listed with
              short | ⟨distinct, below⟩
            · exact .inl (few short answered)
            · have part := paths_of_readFiles answered
              refine .inr ⟨isDirectory, part.nodup distinct, ?_⟩
              intro file member
              exact below file.path (part.subset (List.mem_map_of_mem member))
        · cases listed
          exact .inl (few le_rfl answered)

end ChunkSearch

namespace CommandLine

/-! ### Where results are written -/

/-- The code of a chunk is written: always if it was changed, and otherwise if it is copied. -/
def WritesCode (config : Config) (pair : ChunkFile × ChunkResult) : Prop :=
  pair.2.changed = true ∨ destination config pair.1 pair.2.path ≠ pair.1.path

/-- A map is written beside the code: a new one unless it is part of the code, or a copy. -/
def WritesMap (config : Config) (pair : ChunkFile × ChunkResult) : Prop :=
  if pair.2.changed then config.inlineMap = false
  else destination config pair.1 pair.2.path ≠ pair.1.path ∧ pair.1.map.isSome = true

theorem mem_paths_iff {config : Config} {pair : ChunkFile × ChunkResult}
    {writes : List FileWrite} (written : writesFor config pair.1 pair.2 = .ok writes)
    (path : Bytes) :
    path ∈ writes.map FileWrite.path ↔
      path = destination config pair.1 pair.2.path ∧ WritesCode config pair ∨
        path = destination config pair.1 pair.2.path ++ config.mapSuffix ∧
          WritesMap config pair := by
  obtain ⟨file, result⟩ := pair
  unfold writesFor at written
  dsimp only at written ⊢
  cases changed : result.changed with
  | true =>
      rw [changed, if_pos rfl, outputs] at written
      dsimp only at written
      cases inlined : config.inlineMap with
      | true =>
          rw [inlined, if_pos rfl] at written
          split at written
          · cases written
          · cases written
            simp [WritesCode, WritesMap, changed, inlined]
      | false =>
          rw [inlined, if_neg Bool.false_ne_true] at written
          cases written
          simp [WritesCode, WritesMap, changed, inlined, or_comm]
  | false =>
      rw [changed, if_neg Bool.false_ne_true, copies] at written
      split at written
      · next same =>
          cases written
          simp [WritesCode, WritesMap, changed, beq_iff_eq.mp same]
      · next away =>
          cases written
          rw [beq_iff_eq] at away
          cases map : file.map with
          | none => simp [WritesCode, WritesMap, changed, map, away]
          | some content => simp [WritesCode, WritesMap, changed, map, away]

/-- The code of a chunk is written where the map of another is. -/
structure Overwrites (config : Config) (owner other : ChunkFile × ChunkResult) : Prop where
  named : other.1.path = owner.1.path ++ config.mapSuffix
  map : WritesMap config owner
  code : WritesCode config other

/-- Chunk files and what is written for them have paths that differ in their starts only. -/
def Parallel (config : Config) (root place : Bytes) (pair : ChunkFile × ChunkResult) : Prop :=
  ∃ rest, pair.1.path = root ++ rest ∧
    destination config pair.1 pair.2.path = place ++ rest

/-- One chunk file has a suffix more than another exactly if what is written for it has. -/
theorem Parallel.suffix_iff {config : Config} {root place : Bytes}
    {owner other : ChunkFile × ChunkResult} (ownerParallel : Parallel config root place owner)
    (otherParallel : Parallel config root place other) (suffix : Bytes) :
    other.1.path = owner.1.path ++ suffix ↔
      destination config other.1 other.2.path =
        destination config owner.1 owner.2.path ++ suffix := by
  obtain ⟨ownerRest, ownerPath, ownerPlace⟩ := ownerParallel
  obtain ⟨otherRest, otherPath, otherPlace⟩ := otherParallel
  rw [ownerPath, ownerPlace, otherPath, otherPlace, List.append_assoc, List.append_assoc,
    List.append_cancel_left_eq, List.append_cancel_left_eq]

theorem disjoint_iff_of_parallel {config : Config} {root place : Bytes}
    {left right : ChunkFile × ChunkResult} (leftParallel : Parallel config root place left)
    (rightParallel : Parallel config root place right) (apart : left.1.path ≠ right.1.path)
    {leftWrites rightWrites : List FileWrite}
    (leftWritten : writesFor config left.1 left.2 = .ok leftWrites)
    (rightWritten : writesFor config right.1 right.2 = .ok rightWrites) :
    (leftWrites.map FileWrite.path).Disjoint (rightWrites.map FileWrite.path) ↔
      ¬Overwrites config left right ∧ ¬Overwrites config right left := by
  have leftMember := mem_paths_iff leftWritten
  have rightMember := mem_paths_iff rightWritten
  have places : destination config left.1 left.2.path ≠
      destination config right.1 right.2.path := by
    have same := rightParallel.suffix_iff leftParallel []
    rw [List.append_nil, List.append_nil] at same
    exact fun equal => apart (same.mpr equal)
  constructor
  · intro disjoint
    constructor
    · intro clash
      have named := (leftParallel.suffix_iff rightParallel _).mp clash.named
      exact disjoint ((leftMember _).mpr (.inr ⟨named, clash.map⟩))
        ((rightMember _).mpr (.inl ⟨rfl, clash.code⟩))
    · intro clash
      have named := (rightParallel.suffix_iff leftParallel _).mp clash.named
      exact disjoint ((leftMember _).mpr (.inl ⟨rfl, clash.code⟩))
        ((rightMember _).mpr (.inr ⟨named, clash.map⟩))
  · rintro ⟨noLeft, noRight⟩ path inLeft inRight
    rcases (leftMember path).mp inLeft with ⟨rfl, leftCode⟩ | ⟨rfl, leftMap⟩
    · rcases (rightMember _).mp inRight with ⟨same, -⟩ | ⟨same, rightMap⟩
      · exact places same
      · exact noRight ⟨(rightParallel.suffix_iff leftParallel _).mpr same, rightMap, leftCode⟩
    · rcases (rightMember _).mp inRight with ⟨same, rightCode⟩ | ⟨same, -⟩
      · refine noLeft ⟨?_, leftMap, rightCode⟩
        exact (leftParallel.suffix_iff rightParallel _).mpr same.symm
      · exact places (List.append_cancel_right same)

/-- A chunk file of a directory and its result are written at the same place below the
output directory. -/
theorem parallel_of_below {config : Config} {target : Bytes} {file : ChunkFile}
    {result : ChunkResult}
    (below : ChunkSearch.Below target file.path)
    (named : result.path = chunkName target true file.path) :
    Parallel config (Path.lead target)
      (if config.outDir.isEmpty then Path.lead target else Path.lead config.outDir)
      (file, result) := by
  obtain ⟨names, nonempty, proper, path⟩ := below
  refine ⟨Bytes.join [Bytes.slash] names, path, ?_⟩
  unfold destination
  dsimp only
  split
  · exact path
  · next elsewhere =>
      have below := Path.below?_names target nonempty proper
      rw [named, chunkName, if_pos rfl, path, below, Option.getD_some]
      exact Path.join_relative nonempty (by simpa using elsewhere) proper

/-- What a transform comes to before it writes: at most one chunk file, or chunk files of a
directory at different paths, with their results in parallel. -/
theorem transformFiles_spec {call : TransformCall} {config : Config} {files : Files}
    {entry : Entry} {store after : Store} {pairs : List (ChunkFile × ChunkResult)}
    (proper : files.top.Proper) (target : files.stat call.target = .ok entry)
    (answered : transformFiles call entry.isDirectory config files store = (.ok pairs, after)) :
    pairs.length ≤ 1 ∨
      pairs.Pairwise (fun left right => left.1.path ≠ right.1.path) ∧
        ∃ root place, ∀ pair ∈ pairs,
          (config.search call.target).hasExtension pair.1.path = true ∧
            Parallel config root place pair := by
  unfold transformFiles transformFilesBy at answered
  split at answered
  · cases answered
  · next found searched =>
      dsimp only at answered
      split at answered
      · cases answered
      · next results reached batch =>
          cases answered
          have sorted : (ChunkFile.sort found).Perm found := List.mergeSort_perm _ _
          have aligned := Pipeline.paths_of_processBatch batch
          rw [List.forall₂_map_left_iff, List.forall₂_iff_zip] at aligned
          obtain ⟨equal, named⟩ := aligned
          rcases ChunkSearch.run_spec proper target searched with
            short | ⟨isDirectory, distinct, below⟩
          · left
            rw [List.length_zip, sorted.length_eq]
            omega
          · right
            constructor
            · have firsts : ((ChunkFile.sort found).zip results).map Prod.fst =
                  ChunkFile.sort found := List.map_fst_zip equal.le
              have apart := (sorted.map ChunkFile.path).nodup_iff.mpr distinct
              rw [← firsts, List.map_map] at apart
              exact List.pairwise_map.mp apart
            · refine ⟨Path.lead call.target,
                if config.outDir.isEmpty then Path.lead call.target else Path.lead config.outDir,
                ?_⟩
              rintro ⟨file, result⟩ member
              have listed := sorted.mem_iff.mp (List.of_mem_zip member).1
              have own := named member
              rw [isDirectory] at own
              exact ⟨(below file listed).1, parallel_of_below (below file listed).2 own⟩

/-! ### Settings -/

theorem slash_not_mem_mapSuffix {draft : Draft} {mode : Mode}
    (valid : draft.validate = .ok mode) :
    Bytes.slash ∉ (draft.complete mode).mapSuffix := by
  have checked : Bytes.slash ∉ draft.mapSuffix := by
    unfold Draft.validate at valid
    split at valid
    · cases valid
    · split at valid
      · cases valid
      · next passed =>
          unfold Config.check at passed
          split at passed
          · cases passed
          · split at passed
            · cases passed
            · split at passed
              · cases passed
              · next clear =>
                  intro inside
                  exact clear (List.any_eq_true.mpr ⟨Bytes.slash, inside, by decide⟩)
  unfold Draft.complete
  dsimp only
  split
  · decide
  · exact checked

theorem TransformCall.mapSuffix_of_applyTo {call : TransformCall} {before after : Config}
    (applied : call.applyTo before = .ok after) : after.mapSuffix = before.mapSuffix := by
  unfold applyTo at applied
  split at applied
  · cases applied
  · cases applied
    rfl

theorem pairwise_of_length_le_one {α : Type} {relation : α → α → Prop} {elements : List α}
    (short : elements.length ≤ 1) : elements.Pairwise relation := by
  match elements with
  | [] => exact .nil
  | [element] => exact List.pairwise_singleton relation element

/-- Under valid settings, two chunk files that one transform finds in a proper tree are written
to different paths exactly if neither of them is written where the map of the other one is.
That cannot happen if the suffix of maps has an extension that chunk files do not have. -/
theorem written_paths_disjoint_iff {draft : Draft} {mode : Mode} {call : TransformCall}
    {config : Config} {files : Files} {entry : Entry} {store after : Store}
    {pairs : List (ChunkFile × ChunkResult)} (valid : draft.validate = .ok mode)
    (applied : call.applyTo (draft.complete mode) = .ok config) (proper : files.top.Proper)
    (target : files.stat call.target = .ok entry)
    (answered : transformFiles call entry.isDirectory config files store = (.ok pairs, after)) :
    pairs.Pairwise fun left right =>
      left.1.path ≠ right.1.path ∧
      ∀ leftWrites rightWrites, writesFor config left.1 left.2 = .ok leftWrites →
        writesFor config right.1 right.2 = .ok rightWrites →
        ((leftWrites.map FileWrite.path).Disjoint (rightWrites.map FileWrite.path) ↔
          ¬Overwrites config left right ∧ ¬Overwrites config right left) ∧
        (Bytes.dot ∈ config.mapSuffix →
          (config.search call.target).hasExtension config.mapSuffix = false →
          (leftWrites.map FileWrite.path).Disjoint (rightWrites.map FileWrite.path)) := by
  have inside : Bytes.slash ∉ config.mapSuffix := by
    rw [TransformCall.mapSuffix_of_applyTo applied]
    exact slash_not_mem_mapSuffix valid
  rcases transformFiles_spec proper target answered with short | ⟨apart, root, place, found⟩
  · exact pairwise_of_length_le_one short
  · refine (List.Pairwise.and_mem.mp apart).imp ?_
    rintro left right ⟨leftMember, rightMember, different⟩
    refine ⟨different, ?_⟩
    intro leftWrites rightWrites leftWritten rightWritten
    obtain ⟨leftExtension, leftParallel⟩ := found left leftMember
    obtain ⟨rightExtension, rightParallel⟩ := found right rightMember
    have exactly := disjoint_iff_of_parallel leftParallel rightParallel different leftWritten
      rightWritten
    refine ⟨exactly, ?_⟩
    intro dotted foreign
    have unlike {owner other : ChunkFile × ChunkResult}
        (extension : (config.search call.target).hasExtension other.1.path = true) :
        ¬Overwrites config owner other := by
      intro clash
      rw [clash.named, ChunkSearch.hasExtension, Path.extension_append inside dotted] at extension
      exact Bool.false_ne_true (foreign.symm.trans extension)
    exact exactly.mpr ⟨unlike rightExtension, unlike leftExtension⟩

-- The standard settings are of that kind.
example : Bytes.dot ∈ Config.standard.mapSuffix ∧
    (Config.standard.search []).hasExtension Config.standard.mapSuffix = false := by
  decide +kernel

/-! ### Siblings -/

/-- Only a map that is to be part of the code can be refused. -/
theorem exists_writesFor {config : Config} (beside : config.inlineMap = false)
    (pair : ChunkFile × ChunkResult) :
    ∃ writes, writesFor config pair.1 pair.2 = .ok writes := by
  unfold writesFor outputs
  dsimp only
  rw [beside]
  split
  · exact ⟨_, rfl⟩
  · exact ⟨_, rfl⟩

/-- In place, a changed chunk file and its map are written. -/
theorem mem_paths_of_changed {config : Config} (inPlace : config.outDir = [])
    (beside : config.inlineMap = false) {pair : ChunkFile × ChunkResult}
    (changed : pair.2.changed = true) {writes : List FileWrite}
    (written : writesFor config pair.1 pair.2 = .ok writes) :
    pair.1.path ∈ writes.map FileWrite.path ∧
      pair.1.path ++ config.mapSuffix ∈ writes.map FileWrite.path := by
  have place : destination config pair.1 pair.2.path = pair.1.path := by
    rw [destination, inPlace]
    rfl
  have members := mem_paths_iff written
  rw [place] at members
  constructor
  · exact (members _).mpr (.inl ⟨rfl, .inl changed⟩)
  · refine (members _).mpr (.inr ⟨rfl, ?_⟩)
    rw [WritesMap, if_pos changed]
    exact beside

theorem exists_transformFiles {call : TransformCall} {config : Config} {files : Files}
    {found : List ChunkFile} (isDirectory : Bool) (flags : List Bool)
    (searched : (config.search call.target).run files false = .ok found)
    (ordered : found.Pairwise fun left right => Bytes.notAfter left.path right.path = true)
    (batch : (Pipeline.processBatch none config.pipeline
      (found.map (chunkOf call.target isDirectory)) .memory).1.map
        (List.map ChunkResult.changed) = .ok flags) :
    ∃ results after, transformFiles call isDirectory config files .memory =
        (.ok (found.zip results), after) ∧ results.map ChunkResult.changed = flags := by
  have sorted : ChunkFile.sort found = found := List.mergeSort_of_pairwise ordered
  cases processed : Pipeline.processBatch none config.pipeline
      (found.map (chunkOf call.target isDirectory)) .memory with
  | mk answer after =>
      rw [processed] at batch
      obtain ⟨results, rfl, changed⟩ := Pipeline.exists_ok_of_map_eq batch
      refine ⟨results, after, ?_, changed⟩
      rw [transformFiles, transformFilesBy, searched]
      simp only [sorted, processed]

/-- A map that has the pattern of the builtin rule in it. -/
def siblingMap : Bytes :=
  utf8 "\x7b\"version\":3,\"sources\":[\"import(1).ts\"],\"mappings\":\"AAAA\"\x7d"

/-- A chunk file with its map, and another chunk file. -/
def siblings : List (Bytes × Entry) :=
  [(utf8 "a.js", .file (utf8 "import(1)")), (utf8 "a.js.map", .file siblingMap),
    (utf8 "b.js", .file (utf8 "import(2)"))]

def siblingTree : Files :=
  ⟨.directory [(utf8 "d", .directory siblings)], []⟩

theorem proper_siblingTree : siblingTree.top.Proper := by
  have proper (name : Bytes)
      (named : name ≠ [] ∧ Bytes.slash ∉ name ∧ name ≠ Path.here ∧ name ≠ Path.above) :
      Path.Proper name :=
    ⟨named.1, named.2.1, named.2.2.1, named.2.2.2⟩
  simp only [siblingTree, siblings, Entry.Proper, Entry.MembersProper]
  exact ⟨by decide, proper _ (by decide),
    ⟨by decide, proper _ (by decide), trivial, proper _ (by decide), trivial,
      proper _ (by decide), trivial, trivial⟩, trivial⟩

def siblingCall : TransformCall :=
  { target := utf8 "d", configPath := [], outDir := [], format := utf8 "human", mode := []
    store := [], incremental := false, inlineMap := false, includeHidden := false
    workers := 0 }

theorem stat_siblingTree :
    siblingTree.stat siblingCall.target = .ok (.directory siblings) := by
  cbv

/-- Settings under which map files are chunk files, too. -/
def mapDraft : Draft :=
  { (default : Draft) with extensions := [utf8 ".js", utf8 ".map"] }

def mapConfig : Config :=
  mapDraft.complete .production

theorem mapDraft_validate : mapDraft.validate = .ok .production := by
  decide +kernel

theorem siblingCall_applyTo : siblingCall.applyTo mapConfig = .ok mapConfig := by
  decide +kernel

/-- All three files are chunk files then, and all of them are changed. -/
theorem transformFiles_siblingTree :
    ∃ code map other after,
      transformFiles siblingCall true mapConfig siblingTree .memory =
        (.ok [(⟨utf8 "d/a.js", utf8 "import(1)", some siblingMap⟩, code),
          (⟨utf8 "d/a.js.map", siblingMap, none⟩, map),
          (⟨utf8 "d/b.js", utf8 "import(2)", none⟩, other)], after) ∧
      code.changed = true ∧ map.changed = true ∧ other.changed = true := by
  have searched : (mapConfig.search siblingCall.target).run siblingTree false =
      .ok [⟨utf8 "d/a.js", utf8 "import(1)", some siblingMap⟩,
        ⟨utf8 "d/a.js.map", siblingMap, none⟩, ⟨utf8 "d/b.js", utf8 "import(2)", none⟩] := by
    cbv
  obtain ⟨results, after, answered, changed⟩ :=
    exists_transformFiles true [true, true, true] searched (by decide) (by decide +kernel)
  obtain ⟨code, rest, rfl, codeChanged, restChanged⟩ := List.map_eq_cons_iff.mp changed
  obtain ⟨map, last, rfl, mapChanged, lastChanged⟩ := List.map_eq_cons_iff.mp restChanged
  obtain ⟨other, none, rfl, otherChanged, noneChanged⟩ := List.map_eq_cons_iff.mp lastChanged
  obtain rfl := List.map_eq_nil_iff.mp noneChanged
  exact ⟨code, map, other, after, answered, codeChanged, mapChanged, otherChanged⟩

/-- The first and the last of the three chunk files are not named like the map of the other
one, and they are written apart. -/
theorem written_paths_disjoint_iff_siblings :
    ∃ left map right after leftWrites rightWrites,
      transformFiles siblingCall true mapConfig siblingTree .memory =
        (.ok [left, map, right], after) ∧
      writesFor mapConfig left.1 left.2 = .ok leftWrites ∧
      writesFor mapConfig right.1 right.2 = .ok rightWrites ∧
      utf8 "d/a.js.map" ∈ leftWrites.map FileWrite.path ∧
      utf8 "d/b.js.map" ∈ rightWrites.map FileWrite.path ∧
      (leftWrites.map FileWrite.path).Disjoint (rightWrites.map FileWrite.path) := by
  obtain ⟨code, map, other, after, answered, codeChanged, -, otherChanged⟩ :=
    transformFiles_siblingTree
  have apart := written_paths_disjoint_iff mapDraft_validate siblingCall_applyTo
    proper_siblingTree stat_siblingTree answered
  have both := List.rel_of_pairwise_cons apart (List.mem_cons_of_mem _ List.mem_cons_self)
  have beside : mapConfig.inlineMap = false := rfl
  obtain ⟨leftWrites, leftWritten⟩ := exists_writesFor beside
    (⟨utf8 "d/a.js", utf8 "import(1)", some siblingMap⟩, code)
  obtain ⟨rightWrites, rightWritten⟩ := exists_writesFor beside
    (⟨utf8 "d/b.js", utf8 "import(2)", none⟩, other)
  refine ⟨_, _, _, after, leftWrites, rightWrites, answered, leftWritten, rightWritten,
    ?_, ?_, ?_⟩
  · exact (mem_paths_of_changed rfl rfl codeChanged leftWritten).2
  · exact (mem_paths_of_changed rfl rfl otherChanged rightWritten).2
  · apply (both.2 leftWrites rightWrites leftWritten rightWritten).1.mpr
    have unlike : utf8 "d/b.js" ≠ utf8 "d/a.js" ++ mapConfig.mapSuffix ∧
        utf8 "d/a.js" ≠ utf8 "d/b.js" ++ mapConfig.mapSuffix := by decide
    exact ⟨fun clash => unlike.1 clash.named, fun clash => unlike.2 clash.named⟩

/-- The settings are valid, and the map of the first chunk file is overwritten by the code of
the second one. -/
theorem map_overwritten :
    ∃ left right others after leftWrites rightWrites,
      mapDraft.validate = .ok .production ∧
      siblingCall.applyTo (mapDraft.complete .production) = .ok mapConfig ∧
      transformFiles siblingCall true mapConfig siblingTree .memory =
        (.ok (left :: right :: others), after) ∧
      left.1.path ≠ right.1.path ∧
      writesFor mapConfig left.1 left.2 = .ok leftWrites ∧
      writesFor mapConfig right.1 right.2 = .ok rightWrites ∧
      ¬(leftWrites.map FileWrite.path).Disjoint (rightWrites.map FileWrite.path) := by
  obtain ⟨code, map, other, after, answered, codeChanged, mapChanged, -⟩ :=
    transformFiles_siblingTree
  have beside : mapConfig.inlineMap = false := rfl
  obtain ⟨leftWrites, leftWritten⟩ := exists_writesFor beside
    (⟨utf8 "d/a.js", utf8 "import(1)", some siblingMap⟩, code)
  obtain ⟨rightWrites, rightWritten⟩ := exists_writesFor beside
    (⟨utf8 "d/a.js.map", siblingMap, none⟩, map)
  have different : utf8 "d/a.js" ≠ utf8 "d/a.js.map" := by decide
  refine ⟨_, _, _, after, leftWrites, rightWrites, mapDraft_validate, siblingCall_applyTo,
    answered, different, leftWritten, rightWritten, ?_⟩
  intro disjoint
  apply disjoint (a := utf8 "d/a.js.map")
  · exact (mem_paths_of_changed rfl rfl codeChanged leftWritten).2
  · exact (mem_paths_of_changed rfl rfl mapChanged rightWritten).1

end CommandLine

end Reroute
