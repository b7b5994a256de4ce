import Mathlib
import Reroute.Proofs.Store.Listing

/-!
# What stores in memory and in files say about chunks

A store in memory holds of the chunks what a store file holds, except that it does not tell
a path that a file has from the same path that a bundler has named.  Recording a chunk in
both keeps it that way.  The two therefore know the same chunks, and their records agree up
to paths that the file lists twice.
-/

namespace Reroute

/-! ### Lists without repetition -/

section

variable {α β : Type} [BEq β]

theorem mem_insertFirst [LawfulBEq β] {record other : β} {records : List β} :
    other ∈ insertFirst (· == ·) record records ↔ other ∈ records ∨ other = record := by
  unfold insertFirst
  split
  · next known =>
      have listed : record ∈ records := by simpa using known
      constructor
      · exact .inl
      · rintro (member | rfl)
        · exact member
        · exact listed
  · simp

theorem nodup_insertFirst [LawfulBEq β] (record : β) {records : List β} (distinct : records.Nodup) :
    (insertFirst (· == ·) record records).Nodup := by
  unfold insertFirst
  split
  · exact distinct
  · next unknown =>
      have absent : record ∉ records := by simpa using unknown
      refine List.nodup_append'.mpr ⟨distinct, List.nodup_singleton record, ?_⟩
      exact List.disjoint_singleton.mpr absent

/-- Where records are told apart by one field, adding a record adds its field. -/
theorem map_insertFirst {same : α → α → Bool} (field : α → β)
    (compared : ∀ left right, same left right = (field left == field right)) (record : α)
    (records : List α) :
    (insertFirst same record records).map field =
      insertFirst (· == ·) (field record) (records.map field) := by
  have known : (records.map field).any (field record == ·) = records.any (same record) := by
    rw [List.any_map]
    congr 1
    funext other
    exact (compared record other).symm
  unfold insertFirst
  rw [known]
  split
  · rfl
  · simp

end

theorem MemoryStore.addPath_eq (path : Bytes) (paths : List Bytes) :
    addPath path paths = insertFirst (· == ·) path paths := by
  rw [addPath, insertFirst, List.contains_eq_any_beq]

namespace Tables

/-! ### Chunks in memory as an image of the tables -/

/-- The keys of the tables: identifiers of chunks and places are different, and every place
is of a chunk that is listed. -/
structure Sound (tables : Tables) : Prop where
  distinct : (tables.chunks.map ChunkSize.id).Nodup
  apart : tables.places.Nodup
  owned : ∀ place ∈ tables.places, place.chunk ∈ tables.chunks.map ChunkSize.id

theorem sound_empty : Sound .empty :=
  ⟨List.nodup_nil, List.nodup_nil, by simp [empty]⟩

theorem ids_write (tables : Tables) (id : ChunkId) (size : Int)
    (provenance : Option Provenance) :
    (tables.write (.chunk id size provenance)).chunks.map ChunkSize.id =
      insertFirst (· == ·) id (tables.chunks.map ChunkSize.id) :=
  map_insertFirst ChunkSize.id (fun _ _ => rfl) ⟨id, size⟩ tables.chunks

theorem chunks_write_of_mem {tables : Tables} {id : ChunkId}
    (known : id ∈ tables.chunks.map ChunkSize.id) (size : Int)
    (provenance : Option Provenance) :
    (tables.write (.chunk id size provenance)).chunks = tables.chunks := by
  obtain ⟨chunk, member, rfl⟩ := List.mem_map.mp known
  apply if_pos
  rw [List.any_eq_true]
  exact ⟨chunk, member, beq_self_eq_true chunk.id⟩

theorem chunks_write_of_not_mem {tables : Tables} {id : ChunkId}
    (unknown : id ∉ tables.chunks.map ChunkSize.id) (size : Int)
    (provenance : Option Provenance) :
    (tables.write (.chunk id size provenance)).chunks = tables.chunks ++ [⟨id, size⟩] := by
  apply if_neg
  rw [List.any_eq_true]
  rintro ⟨chunk, member, same⟩
  exact unknown (List.mem_map.mpr ⟨chunk, member, (beq_iff_eq.mp same).symm⟩)

theorem mem_places_write {tables : Tables} {id : ChunkId} {size : Int}
    {provenance : Option Provenance} (place : Place) :
    place ∈ (tables.write (.chunk id size provenance)).places ↔
      place ∈ tables.places ∨ (place.chunk = id ∧ provenance = some place.provenance) := by
  obtain ⟨chunk, source⟩ := place
  cases provenance with
  | none => simp [write, addPlace]
  | some provenance =>
      change _ ∈ insertFirst (· == ·) _ tables.places ↔ _
      rw [mem_insertFirst, Place.mk.injEq, Option.some.injEq, eq_comm (a := source)]

/-- Recording a chunk keeps the keys. -/
theorem Sound.write {tables : Tables} (sound : tables.Sound) (id : ChunkId) (size : Int)
    (provenance : Option Provenance) : (tables.write (.chunk id size provenance)).Sound where
  distinct := by
    rw [ids_write]
    exact nodup_insertFirst id sound.distinct
  apart := by
    cases provenance with
    | none => exact sound.apart
    | some provenance => exact nodup_insertFirst _ sound.apart
  owned := by
    intro place member
    rw [ids_write, mem_insertFirst]
    rcases (mem_places_write place).mp member with earlier | ⟨same, -⟩
    · exact .inl (sound.owned place earlier)
    · exact .inr same

/-- Paths without those that were there before. -/
def firstPaths (paths : List Bytes) : List Bytes :=
  paths.foldl (fun known path => MemoryStore.addPath path known) []

/-- What a store in memory holds of the chunks when a store file holds the tables. -/
def seen (tables : Tables) : List SeenChunk :=
  tables.chunks.map fun chunk =>
    ⟨chunk.id, chunk.size, firstPaths (tables.pathsOf chunk.id)⟩

theorem firstPaths_append_singleton (paths : List Bytes) (path : Bytes) :
    firstPaths (paths ++ [path]) = MemoryStore.addPath path (firstPaths paths) := by
  simp [firstPaths]

theorem mem_firstPaths {paths : List Bytes} {path : Bytes} :
    path ∈ firstPaths paths ↔ path ∈ paths := by
  induction paths using List.reverseRecOn with
  | nil => simp [firstPaths]
  | append_singleton paths last induction =>
      rw [firstPaths_append_singleton, MemoryStore.addPath_eq, mem_insertFirst, induction]
      simp

theorem nodup_firstPaths (paths : List Bytes) : (firstPaths paths).Nodup := by
  induction paths using List.reverseRecOn with
  | nil => exact List.nodup_nil
  | append_singleton paths last induction =>
      rw [firstPaths_append_singleton, MemoryStore.addPath_eq]
      exact nodup_insertFirst last induction

/-- A path is added to those in memory, whether or not its place is new. -/
theorem firstPaths_write (tables : Tables) (id : ChunkId) (size : Int)
    (provenance : Option Provenance) :
    firstPaths ((tables.write (.chunk id size provenance)).pathsOf id) =
      MemoryStore.addProvenance provenance (firstPaths (tables.pathsOf id)) := by
  cases provenance with
  | none => rfl
  | some provenance =>
      unfold write addPlace pathsOf placesOf MemoryStore.addProvenance
      dsimp only
      rw [insertFirst]
      split
      · next known =>
          have listed : (⟨id, provenance⟩ : Place) ∈ tables.places := by simpa using known
          rw [MemoryStore.addPath, if_pos]
          rw [List.contains_iff_mem, mem_firstPaths, List.mem_map]
          exact ⟨⟨id, provenance⟩, List.mem_filter.mpr ⟨listed, beq_self_eq_true _⟩, rfl⟩
      · simp [firstPaths_append_singleton]

theorem pathsOf_write_of_ne (tables : Tables) {id other : ChunkId} (different : other ≠ id)
    (size : Int) (provenance : Option Provenance) :
    (tables.write (.chunk id size provenance)).pathsOf other = tables.pathsOf other := by
  cases provenance with
  | none => rfl
  | some provenance =>
      unfold write addPlace pathsOf placesOf
      dsimp only
      rw [insertFirst]
      split
      · rfl
      · simp [Ne.symm different]

theorem map_id_seen (tables : Tables) :
    tables.seen.map SeenChunk.id = tables.chunks.map ChunkSize.id := by
  simp [seen]

end Tables

namespace MemoryStore

/-- A known chunk is seen at one more place, and the others stay as they are. -/
theorem addChunk_of_mem {id : ChunkId} (size : Int) (provenance : Option Provenance)
    {chunks : List SeenChunk} (distinct : (chunks.map SeenChunk.id).Nodup)
    (known : id ∈ chunks.map SeenChunk.id) :
    addChunk id size provenance chunks =
      chunks.map fun chunk =>
        if chunk.id = id then { chunk with paths := addProvenance provenance chunk.paths }
        else chunk := by
  induction chunks with
  | nil => simp at known
  | cons chunk chunks induction =>
      rw [List.map_cons, List.nodup_cons] at distinct
      by_cases here : chunk.id = id
      · have others : (chunks.map fun other =>
            if other.id = id then { other with paths := addProvenance provenance other.paths }
            else other) = chunks := by
          conv_rhs => rw [← List.map_id chunks]
          apply List.map_congr_left
          intro other member
          rw [if_neg]
          · rfl
          · rintro same
            rw [here, ← same] at distinct
            exact distinct.1 (List.mem_map_of_mem member)
        simp [addChunk, here, others]
      · have later : id ∈ chunks.map SeenChunk.id := by
          simpa [Ne.symm here] using known
        simp [addChunk, here, induction distinct.2 later]

theorem addChunk_of_not_mem {id : ChunkId} (size : Int) (provenance : Option Provenance)
    {chunks : List SeenChunk} (unknown : id ∉ chunks.map SeenChunk.id) :
    addChunk id size provenance chunks =
      chunks ++ [⟨id, size, addProvenance provenance []⟩] := by
  induction chunks with
  | nil => rfl
  | cons chunk chunks induction =>
      rw [List.map_cons, List.mem_cons, not_or] at unknown
      rw [addChunk, if_neg (by simpa using Ne.symm unknown.1), induction unknown.2]
      rfl

end MemoryStore

namespace Tables

/-- Recording a chunk in a file and in memory comes to the same. -/
theorem seen_write {tables : Tables} (sound : tables.Sound) (id : ChunkId) (size : Int)
    (provenance : Option Provenance) :
    (tables.write (.chunk id size provenance)).seen =
      MemoryStore.addChunk id size provenance tables.seen := by
  have distinct := sound.distinct
  rw [← map_id_seen] at distinct
  by_cases known : id ∈ tables.chunks.map ChunkSize.id
  · rw [seen, chunks_write_of_mem known]
    rw [← map_id_seen] at known
    rw [MemoryStore.addChunk_of_mem size provenance distinct known, seen, List.map_map]
    apply List.map_congr_left
    intro chunk _
    by_cases here : chunk.id = id
    · subst here
      simp [firstPaths_write]
    · simp [pathsOf_write_of_ne, here]
  · have none : tables.pathsOf id = [] := by
      rw [pathsOf, placesOf, List.map_eq_nil_iff, List.filter_eq_nil_iff]
      intro place member own
      exact known (beq_iff_eq.mp own ▸ sound.owned place member)
    rw [seen, chunks_write_of_not_mem known, List.map_append, List.map_singleton,
      firstPaths_write, none]
    rw [← map_id_seen] at known
    rw [MemoryStore.addChunk_of_not_mem size provenance known, seen]
    congr 1
    apply List.map_congr_left
    intro chunk member
    have different : chunk.id ≠ id := by
      rintro rfl
      exact known (by rw [map_id_seen]; exact List.mem_map_of_mem member)
    rw [pathsOf_write_of_ne tables different]

end Tables

/-! ### Answers -/

/-- A chunk to record, with the place where it was seen, if any. -/
structure ChunkCall where
  id : ChunkId
  size : Int
  provenance : Option Provenance
  deriving DecidableEq, Repr

def ChunkCall.change (call : ChunkCall) : Write :=
  .chunk call.id call.size call.provenance

/-- A record with every path once. -/
def ChunkRecord.withoutRepeats (record : ChunkRecord) : ChunkRecord :=
  { record with paths := record.paths.dedup }

theorem map_withoutRepeats_sortChunks (records : List ChunkRecord) :
    (sortChunks records).map ChunkRecord.withoutRepeats =
      sortChunks (records.map ChunkRecord.withoutRepeats) :=
  List.map_mergeSort fun _ _ _ _ => rfl

theorem map_withoutRepeats_eq_iff {records : List ChunkRecord} :
    records.map ChunkRecord.withoutRepeats = records ↔
      ∀ record ∈ records, record.paths.Nodup := by
  have once (record : ChunkRecord) :
      record.withoutRepeats = id record ↔ record.paths.Nodup := by
    obtain ⟨chunk, size, paths⟩ := record
    simp [ChunkRecord.withoutRepeats, List.dedup_eq_self]
  conv_lhs => rhs; rw [← List.map_id records]
  rw [List.map_inj_left]
  simp only [once]

namespace Tables

/-- The tables of a new store file in which chunks were recorded. -/
def ofCalls (calls : List ChunkCall) : Tables :=
  calls.foldl (fun tables call => tables.write call.change) .empty

theorem ofCalls_append (calls : List ChunkCall) (call : ChunkCall) :
    ofCalls (calls ++ [call]) = (ofCalls calls).write call.change := by
  simp [ofCalls]

theorem sound_ofCalls (calls : List ChunkCall) : (ofCalls calls).Sound := by
  induction calls using List.reverseRecOn with
  | nil => exact sound_empty
  | append_singleton calls call induction =>
      rw [ofCalls_append]
      exact induction.write call.id call.size call.provenance

theorem mem_places_ofCalls {calls : List ChunkCall} {id : ChunkId} {provenance : Provenance} :
    ⟨id, provenance⟩ ∈ (ofCalls calls).places ↔
      ∃ size, ⟨id, size, some provenance⟩ ∈ calls := by
  induction calls using List.reverseRecOn with
  | nil => simp [ofCalls, empty]
  | append_singleton calls call induction =>
      obtain ⟨callId, callSize, callProvenance⟩ := call
      rw [ofCalls_append, ChunkCall.change, mem_places_write, induction]
      simp [exists_or, eq_comm]

/-- Sorted, the paths in memory are those of the file without repeats. -/
theorem sort_firstPaths (paths : List Bytes) :
    Bytes.sort (firstPaths paths) = (Bytes.sort paths).dedup := by
  have members (path : Bytes) : path ∈ Bytes.sort paths ↔ path ∈ paths :=
    List.mem_mergeSort
  apply Bytes.eq_of_sorted_of_perm
  · apply (List.mergeSort_perm _ _).trans
    rw [List.perm_ext_iff_of_nodup (nodup_firstPaths paths) (List.nodup_dedup _)]
    intro path
    rw [mem_firstPaths, List.mem_dedup, members]
  · exact Bytes.sorted_sort _
  · exact (Bytes.sorted_sort paths).sublist (List.dedup_sublist _)

/-- A path is listed twice exactly if a file and a bundler have named it. -/
theorem nodup_sort_pathsOf_iff {tables : Tables} (sound : tables.Sound) (id : ChunkId) :
    (Bytes.sort (tables.pathsOf id)).Nodup ↔
      ∀ path, ¬(⟨id, .file path⟩ ∈ tables.places ∧ ⟨id, .hook path⟩ ∈ tables.places) := by
  unfold Bytes.sort pathsOf placesOf
  rw [(List.mergeSort_perm _ _).nodup_iff,
    List.nodup_map_iff_inj_on (sound.apart.filter _)]
  constructor
  · rintro different path ⟨byFile, byHook⟩
    have same := different ⟨id, .file path⟩ (by simpa using byFile) ⟨id, .hook path⟩
      (by simpa using byHook) rfl
    cases same
  · rintro once ⟨leftId, left⟩ leftMember ⟨rightId, right⟩ rightMember samePath
    obtain ⟨leftListed, leftOwn⟩ := List.mem_filter.mp leftMember
    obtain ⟨rightListed, rightOwn⟩ := List.mem_filter.mp rightMember
    obtain rfl : leftId = id := by simpa using leftOwn
    obtain rfl : rightId = leftId := by simpa using rightOwn
    dsimp only at samePath
    cases left with
    | file path =>
        cases right with
        | file other =>
            obtain rfl : path = other := samePath
            rfl
        | hook other =>
            obtain rfl : path = other := samePath
            exact absurd ⟨leftListed, rightListed⟩ (once path)
    | hook path =>
        cases right with
        | file other =>
            obtain rfl : path = other := samePath
            exact absurd ⟨rightListed, leftListed⟩ (once path)
        | hook other =>
            obtain rfl : path = other := samePath
            rfl

end Tables

namespace Store

/-- A store after chunks were recorded in it. -/
def recordChunks (calls : List ChunkCall) (store : Store) : Store :=
  calls.foldl (fun store call => (store.write call.change).2) store

theorem recordChunks_append (calls : List ChunkCall) (call : ChunkCall) (store : Store) :
    recordChunks (calls ++ [call]) store =
      ((recordChunks calls store).write call.change).2 := by
  simp [recordChunks]

theorem recordChunks_ofTables (calls : List ChunkCall) :
    recordChunks calls (ofTables .empty) = ofTables (.ofCalls calls) := by
  induction calls using List.reverseRecOn with
  | nil => rfl
  | append_singleton calls call induction =>
      rw [recordChunks_append, induction, Tables.ofCalls_append]
      rfl

theorem recordChunks_memory (calls : List ChunkCall) :
    recordChunks calls memory = ofRecords ⟨(Tables.ofCalls calls).seen, [], []⟩ := by
  induction calls using List.reverseRecOn with
  | nil => rfl
  | append_singleton calls call induction =>
      rw [recordChunks_append, induction, Tables.ofCalls_append, ChunkCall.change,
        Tables.seen_write (Tables.sound_ofCalls calls)]
      rfl

theorem chunkRecords_recordChunks_ofTables (calls : List ChunkCall) :
    (recordChunks calls (ofTables .empty)).chunkRecords =
      .ok (sortChunks ((Tables.ofCalls calls).chunks.map (Tables.ofCalls calls).recordOf)) := by
  rw [recordChunks_ofTables]
  exact congrArg Except.ok (Tables.chunkRecords_eq (Tables.sound_ofCalls calls).distinct)

theorem chunkRecords_recordChunks_memory (calls : List ChunkCall) :
    (recordChunks calls memory).chunkRecords =
      .ok ((sortChunks ((Tables.ofCalls calls).chunks.map (Tables.ofCalls calls).recordOf)).map
        ChunkRecord.withoutRepeats) := by
  rw [recordChunks_memory]
  refine congrArg Except.ok ?_
  dsimp only
  rw [MemoryStore.chunkRecords, map_withoutRepeats_sortChunks, List.map_map, Tables.seen,
    List.map_map]
  congr 1
  apply List.map_congr_left
  intro chunk _
  simp [ChunkRecord.withoutRepeats, Tables.recordOf, Tables.sort_firstPaths]

/-- A store in memory and a store file know the same chunks, after whatever chunks were
recorded in both.  The records that the one lists are those of the other without repeated
paths, so that they are the same exactly if no chunk was seen under one path both in a file
and through a bundler. -/
theorem chunk_answers_agree (calls : List ChunkCall) :
    (∀ id, (recordChunks calls memory).hasChunk id =
      (recordChunks calls (ofTables .empty)).hasChunk id) ∧
    (recordChunks calls memory).chunkRecords =
      (recordChunks calls (ofTables .empty)).chunkRecords.map
        (List.map ChunkRecord.withoutRepeats) ∧
    ((recordChunks calls memory).chunkRecords =
        (recordChunks calls (ofTables .empty)).chunkRecords ↔
      ∀ id path, ¬((∃ size, ⟨id, size, some (.file path)⟩ ∈ calls) ∧
        ∃ size, ⟨id, size, some (.hook path)⟩ ∈ calls)) := by
  refine ⟨?_, ?_, ?_⟩
  · intro id
    rw [recordChunks_memory, recordChunks_ofTables]
    refine congrArg Except.ok ?_
    simp [MemoryStore.hasChunk, Tables.hasChunk, Tables.seen, Function.comp_def]
  · rw [chunkRecords_recordChunks_memory, chunkRecords_recordChunks_ofTables]
    rfl
  · have sound := Tables.sound_ofCalls calls
    rw [chunkRecords_recordChunks_memory, chunkRecords_recordChunks_ofTables, Except.ok.injEq,
      map_withoutRepeats_eq_iff]
    constructor
    · rintro once id path ⟨byFile, byHook⟩
      rw [← Tables.mem_places_ofCalls] at byFile byHook
      obtain ⟨chunk, member, rfl⟩ := List.mem_map.mp (sound.owned _ byFile)
      have nodup := once ((Tables.ofCalls calls).recordOf chunk)
        (List.mem_mergeSort.mpr (List.mem_map_of_mem member))
      rw [Tables.recordOf, Tables.nodup_sort_pathsOf_iff sound] at nodup
      exact nodup path ⟨byFile, byHook⟩
    · intro never record member
      obtain ⟨chunk, -, rfl⟩ := List.mem_map.mp (List.mem_mergeSort.mp member)
      rw [Tables.recordOf, Tables.nodup_sort_pathsOf_iff sound]
      intro path both
      rw [Tables.mem_places_ofCalls, Tables.mem_places_ofCalls] at both
      exact never chunk.id path both

/-- A chunk that a file has, and that a bundler then hands over under the same path. -/
def twiceNamed (id : ChunkId) : List ChunkCall :=
  [⟨id, 1, some (.file (utf8 "a"))⟩, ⟨id, 1, some (.hook (utf8 "a"))⟩]

/-- The path of such a chunk is listed once in memory and twice in a file. -/
theorem chunk_answers_differ :
    (recordChunks (twiceNamed (ChunkId.ofContent [1])) memory).chunkRecords =
        .ok [⟨ChunkId.ofContent [1], 1, [utf8 "a"]⟩] ∧
      (recordChunks (twiceNamed (ChunkId.ofContent [1])) (ofTables .empty)).chunkRecords =
        .ok [⟨ChunkId.ofContent [1], 1, [utf8 "a", utf8 "a"]⟩] := by
  have tables : Tables.ofCalls (twiceNamed (ChunkId.ofContent [1])) =
      ⟨1, [⟨ChunkId.ofContent [1], 1⟩],
        [⟨ChunkId.ofContent [1], .file (utf8 "a")⟩, ⟨ChunkId.ofContent [1], .hook (utf8 "a")⟩],
        [], []⟩ := by
    decide +kernel
  have paths : Bytes.sort [utf8 "a", utf8 "a"] = [utf8 "a", utf8 "a"] :=
    List.mergeSort_of_pairwise (by decide)
  have sorted : sortChunks ((Tables.ofCalls (twiceNamed (ChunkId.ofContent [1]))).chunks.map
      (Tables.ofCalls (twiceNamed (ChunkId.ofContent [1]))).recordOf) =
        [⟨ChunkId.ofContent [1], 1, [utf8 "a", utf8 "a"]⟩] := by
    rw [tables]
    simp [sortChunks, Tables.recordOf, Tables.pathsOf, Tables.placesOf, Provenance.path, paths]
  rw [chunkRecords_recordChunks_memory, chunkRecords_recordChunks_ofTables, sorted]
  exact ⟨by simp [ChunkRecord.withoutRepeats], rfl⟩

end Store

end Reroute
