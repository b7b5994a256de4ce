import Mathlib
import Reroute.Proofs.Store.Views

/-!
# How a store file lists its chunks

A store file lists its chunks from sorted rows, in which every chunk is joined with each of
its paths.  Rows are sorted by identifier and then by path, so that the rows of a chunk are
neighbours as long as no two chunks share an identifier.  The listing then has one record a
chunk, in the order of the identifiers, with all its paths in order.
-/

namespace Reroute

/-! ### Order of joined rows -/

namespace Sighting

theorem pathNotAfter_trans {first second third : Option Bytes}
    (before : pathNotAfter first second = true) (after : pathNotAfter second third = true) :
    pathNotAfter first third = true := by
  cases first with
  | none => rfl
  | some first =>
      cases second with
      | none => cases before
      | some second =>
          cases third with
          | none => cases after
          | some third =>
              rw [pathNotAfter, Bytes.notAfter_iff] at before after ⊢
              exact List.le_trans before after

theorem pathNotAfter_total (left right : Option Bytes) :
    pathNotAfter left right = true ∨ pathNotAfter right left = true := by
  cases left with
  | none => exact .inl rfl
  | some left =>
      cases right with
      | none => exact .inr rfl
      | some right =>
          rw [pathNotAfter, pathNotAfter, Bytes.notAfter_iff, Bytes.notAfter_iff]
          exact List.le_total left right

theorem pathNotAfter_antisymm {left right : Option Bytes}
    (before : pathNotAfter left right = true) (after : pathNotAfter right left = true) :
    left = right := by
  cases left with
  | none =>
      cases right with
      | none => rfl
      | some right => cases after
  | some left =>
      cases right with
      | none => cases before
      | some right =>
          rw [pathNotAfter, Bytes.notAfter_iff] at before after
          rw [List.le_antisymm before after]

/-- The order is by the numbers of the identifiers first. -/
theorem notAfter_iff (left right : Sighting) :
    left.notAfter right = true ↔
      left.chunk.id.value.toNat < right.chunk.id.value.toNat ∨
        (left.chunk.id = right.chunk.id ∧ pathNotAfter left.path right.path = true) := by
  unfold notAfter
  by_cases same : left.chunk.id = right.chunk.id
  · simp [same]
  · have apart : left.chunk.id.value.toNat ≠ right.chunk.id.value.toNat :=
      fun equal => same (Digest.toNat_inj.mp equal)
    simp [same, Digest.notAfter]
    omega

theorem notAfter_trans (first second third : Sighting)
    (before : first.notAfter second = true) (after : second.notAfter third = true) :
    first.notAfter third = true := by
  rw [notAfter_iff] at before after ⊢
  rcases before with less | ⟨same, path⟩
  · rcases after with later | ⟨same, -⟩
    · exact .inl (less.trans later)
    · exact .inl (same ▸ less)
  · rcases after with later | ⟨again, rest⟩
    · exact .inl (same ▸ later)
    · exact .inr ⟨same.trans again, pathNotAfter_trans path rest⟩

theorem notAfter_total (left right : Sighting) :
    (left.notAfter right || right.notAfter left) = true := by
  rw [Bool.or_eq_true, notAfter_iff, notAfter_iff]
  rcases lt_trichotomy left.chunk.id.value.toNat right.chunk.id.value.toNat with
    less | same | greater
  · exact .inl (.inl less)
  · have sameId := Digest.toNat_inj.mp same
    rcases pathNotAfter_total left.path right.path with before | after
    · exact .inl (.inr ⟨sameId, before⟩)
    · exact .inr (.inr ⟨sameId.symm, after⟩)
  · exact .inr (.inl greater)

/-- Rows that stand at the same place of the order agree on identifier and path. -/
theorem of_notAfter_antisymm {left right : Sighting} (before : left.notAfter right = true)
    (after : right.notAfter left = true) :
    left.chunk.id = right.chunk.id ∧ left.path = right.path := by
  rw [notAfter_iff] at before after
  rcases before with less | ⟨same, path⟩
  · rcases after with greater | ⟨same, -⟩
    · omega
    · rw [same] at less
      omega
  · rcases after with greater | ⟨-, rest⟩
    · rw [same] at greater
      omega
    · exact ⟨same, pathNotAfter_antisymm path rest⟩

/-! ### Records from sorted rows -/

/-- The paths that a chunk is joined with. -/
def joinedPaths : List Bytes → List (Option Bytes)
  | [] => [none]
  | path :: paths => some path :: paths.map some

/-- A chunk joined with paths. -/
def block (chunk : ChunkSize) (paths : List Bytes) : List Sighting :=
  (joinedPaths paths).map fun path => ⟨chunk, path⟩

theorem chunk_of_mem_block {chunk : ChunkSize} {paths : List Bytes} {sighting : Sighting}
    (member : sighting ∈ block chunk paths) : sighting.chunk = chunk := by
  obtain ⟨path, -, rfl⟩ := List.mem_map.mp member
  rfl

theorem joinedPaths_perm {left right : List Bytes} (permutation : left.Perm right) :
    (joinedPaths left).Perm (joinedPaths right) := by
  cases left with
  | nil =>
      rw [List.nil_perm.mp permutation]
  | cons first left =>
      cases right with
      | nil => exact absurd permutation.eq_nil (List.cons_ne_nil first left)
      | cons second right => exact permutation.map some

/-- Rows of one chunk are sorted when their paths are. -/
theorem sorted_block {paths : List Bytes}
    (sorted : paths.Pairwise fun first second => Bytes.notAfter first second = true)
    (chunk : ChunkSize) :
    (block chunk paths).Pairwise fun first second => first.notAfter second = true := by
  have joined : (joinedPaths paths).Pairwise
      fun first second => pathNotAfter first second = true := by
    cases paths with
    | nil => exact List.pairwise_singleton _ _
    | cons path paths =>
        change ((path :: paths).map some).Pairwise _
        rw [List.pairwise_map]
        exact sorted
  rw [block, List.pairwise_map]
  refine joined.imp ?_
  intro first second before
  exact (notAfter_iff _ _).mpr (.inr ⟨rfl, before⟩)

/-- A record goes on with every row of its own chunk. -/
theorem foldl_gather_same (chunk : ChunkSize) (done paths : List Bytes)
    (earlier : List ChunkRecord) :
    (paths.map fun path => (⟨chunk, some path⟩ : Sighting)).foldl gather
        (⟨chunk.id, chunk.size, done⟩ :: earlier) =
      ⟨chunk.id, chunk.size, done ++ paths⟩ :: earlier := by
  induction paths generalizing done with
  | nil => simp
  | cons path paths induction =>
      have step : gather (⟨chunk.id, chunk.size, done⟩ :: earlier) ⟨chunk, some path⟩ =
          ⟨chunk.id, chunk.size, done ++ [path]⟩ :: earlier := by
        simp [gather]
      rw [List.map_cons, List.foldl_cons, step, induction]
      simp

/-- The rows of a chunk make one record behind records of other chunks. -/
theorem foldl_gather_block (chunk : ChunkSize) (paths : List Bytes)
    {earlier : List ChunkRecord} (other : ∀ record ∈ earlier, record.id ≠ chunk.id) :
    (block chunk paths).foldl gather earlier = ⟨chunk.id, chunk.size, paths⟩ :: earlier := by
  have started (path : Option Bytes) :
      gather earlier ⟨chunk, path⟩ = ⟨chunk.id, chunk.size, path.toList⟩ :: earlier := by
    cases earlier with
    | nil => rfl
    | cons latest earlier =>
        have different : latest.id ≠ chunk.id := other latest List.mem_cons_self
        simp [gather, record, different]
  cases paths with
  | nil => exact started none
  | cons path paths =>
      rw [block, joinedPaths, List.map_cons, List.foldl_cons, started, List.map_map]
      exact foldl_gather_same chunk [path] paths earlier

/-- The rows of different chunks, one chunk after the other, make one record a chunk. -/
theorem foldl_gather_blocks (pathsOf : ChunkId → List Bytes) {chunks : List ChunkSize}
    (distinct : (chunks.map ChunkSize.id).Nodup) {earlier : List ChunkRecord}
    (other : ∀ record ∈ earlier, record.id ∉ chunks.map ChunkSize.id) :
    (chunks.flatMap fun chunk => block chunk (pathsOf chunk.id)).foldl gather earlier =
      (chunks.map fun chunk => ⟨chunk.id, chunk.size, pathsOf chunk.id⟩).reverse ++ earlier := by
  induction chunks generalizing earlier with
  | nil => rfl
  | cons chunk chunks induction =>
      rw [List.map_cons, List.nodup_cons] at distinct
      rw [List.flatMap_cons, List.foldl_append, foldl_gather_block, induction distinct.2]
      · simp
      · intro record member
        rcases List.mem_cons.mp member with rfl | known
        · exact distinct.1
        · exact fun listed => other record known (List.mem_cons_of_mem _ listed)
      · intro record member same
        exact other record member (by simp [same])

end Sighting

namespace Tables

/-- The paths of a chunk, in the order of recording. -/
def pathsOf (tables : Tables) (id : ChunkId) : List Bytes :=
  (tables.placesOf id).map fun place => place.provenance.path

theorem sightingsOf_eq (tables : Tables) (chunk : ChunkSize) :
    tables.sightingsOf chunk = Sighting.block chunk (tables.pathsOf chunk.id) := by
  unfold sightingsOf pathsOf
  cases tables.placesOf chunk.id with
  | nil => rfl
  | cons place places => simp [Sighting.block, Sighting.joinedPaths, Function.comp_def]

/-- The chunks in the order of their identifiers. -/
def sortedChunks (tables : Tables) : List ChunkSize :=
  tables.chunks.mergeSort fun left right => left.id.notAfter right.id

theorem sortedChunks_perm (tables : Tables) : tables.sortedChunks.Perm tables.chunks :=
  List.mergeSort_perm _ _

theorem sorted_sortedChunks (tables : Tables) :
    tables.sortedChunks.Pairwise fun left right =>
      left.id.value.toNat ≤ right.id.value.toNat :=
  sorted_sortByRank (fun chunk : ChunkSize => chunk.id.value.toNat) tables.chunks

/-- The sorted rows are the rows of the sorted chunks, each with its paths in order. -/
theorem mergeSort_sightings {tables : Tables}
    (distinct : (tables.chunks.map ChunkSize.id).Nodup) :
    (tables.chunks.flatMap tables.sightingsOf).mergeSort Sighting.notAfter =
      tables.sortedChunks.flatMap fun chunk =>
        Sighting.block chunk (Bytes.sort (tables.pathsOf chunk.id)) := by
  have permutation : (tables.chunks.flatMap tables.sightingsOf).Perm
      (tables.sortedChunks.flatMap fun chunk =>
        Sighting.block chunk (Bytes.sort (tables.pathsOf chunk.id))) := by
    apply List.Perm.flatMap tables.sortedChunks_perm.symm
    intro chunk _
    rw [sightingsOf_eq]
    exact (Sighting.joinedPaths_perm (List.mergeSort_perm _ _).symm).map _
  have listed {sighting : Sighting}
      (member : sighting ∈ tables.sortedChunks.flatMap fun chunk =>
        Sighting.block chunk (Bytes.sort (tables.pathsOf chunk.id))) :
      sighting.chunk ∈ tables.chunks := by
    obtain ⟨chunk, chunkMember, inBlock⟩ := List.mem_flatMap.mp member
    rw [Sighting.chunk_of_mem_block inBlock]
    exact tables.sortedChunks_perm.mem_iff.mp chunkMember
  apply ((List.mergeSort_perm _ _).trans permutation).eq_of_pairwise
  · intro left right leftMember rightMember before after
    obtain ⟨sameId, samePath⟩ := Sighting.of_notAfter_antisymm before after
    have leftListed := listed (permutation.mem_iff.mp (List.mem_mergeSort.mp leftMember))
    have sameChunk := List.inj_on_of_nodup_map distinct leftListed (listed rightMember) sameId
    obtain ⟨leftChunk, leftPath⟩ := left
    obtain ⟨rightChunk, rightPath⟩ := right
    dsimp only at sameChunk samePath
    rw [sameChunk, samePath]
  · exact List.pairwise_mergeSort Sighting.notAfter_trans Sighting.notAfter_total _
  · rw [List.pairwise_flatMap]
    constructor
    · intro chunk _
      exact Sighting.sorted_block (Bytes.sorted_sort _) chunk
    · -- Different chunks are in the order of their numbers, which are all different.
      have apart : (tables.sortedChunks.map ChunkSize.id).Nodup :=
        (tables.sortedChunks_perm.map _).nodup_iff.mpr distinct
      refine (tables.sorted_sortedChunks.and (List.pairwise_map.mp apart)).imp ?_
      rintro left right ⟨ascending, different⟩ leftSighting leftMember rightSighting rightMember
      rw [Sighting.notAfter_iff, Sighting.chunk_of_mem_block leftMember,
        Sighting.chunk_of_mem_block rightMember]
      left
      apply lt_of_le_of_ne ascending
      exact fun equal => different (Digest.toNat_inj.mp equal)

/-- The record of a chunk, with its paths in order. -/
def recordOf (tables : Tables) (chunk : ChunkSize) : ChunkRecord :=
  ⟨chunk.id, chunk.size, Bytes.sort (tables.pathsOf chunk.id)⟩

/-- A store file lists one record a chunk, in the order of the identifiers. -/
theorem chunkRecords_eq {tables : Tables} (distinct : (tables.chunks.map ChunkSize.id).Nodup) :
    tables.chunkRecords = sortChunks (tables.chunks.map tables.recordOf) := by
  have apart : (tables.sortedChunks.map ChunkSize.id).Nodup :=
    (tables.sortedChunks_perm.map _).nodup_iff.mpr distinct
  have nothing : ∀ record ∈ ([] : List ChunkRecord),
      record.id ∉ tables.sortedChunks.map ChunkSize.id := by simp
  have gathered := Sighting.foldl_gather_blocks (fun id => Bytes.sort (tables.pathsOf id))
    apart nothing
  rw [List.append_nil] at gathered
  unfold chunkRecords
  dsimp only
  rw [mergeSort_sightings distinct, gathered, List.reverse_reverse]
  exact List.map_mergeSort fun left _ right _ => rfl

end Tables

end Reroute
