import Mathlib
import Reroute.Proofs.Store.Records

/-!
# What the answers of a store in memory depend on

A store in memory keeps its records in the order of recording, but its answers do not show all
of that order.  Places of a chunk are answered sorted, and so are chunks and replaced
occurrences; only occurrences that agree on chunk and start stay as they were recorded.  The
view of a store is what is left of its records when the order that no answer shows is
forgotten.

Writes that do not contradict each other change a view alike in either order, so that a view
depends on which of them were carried out and not on their order.
-/

namespace Reroute

/-! ### Stable sorting -/

section

variable {α κ : Type} [LinearOrder κ] (rank : α → κ)

def sortByRank (elements : List α) : List α :=
  elements.mergeSort fun left right => decide (rank left ≤ rank right)

/-- The elements of one rank, in their order. -/
def ofRank (value : κ) (elements : List α) : List α :=
  elements.filter fun element => decide (rank element = value)

theorem ranked_trans (first second third : α)
    (before : decide (rank first ≤ rank second) = true)
    (after : decide (rank second ≤ rank third) = true) :
    decide (rank first ≤ rank third) = true :=
  decide_eq_true (le_trans (of_decide_eq_true before) (of_decide_eq_true after))

theorem ranked_total (left right : α) :
    (decide (rank left ≤ rank right) || decide (rank right ≤ rank left)) = true := by
  simpa using le_total (rank left) (rank right)

theorem sorted_sortByRank (elements : List α) :
    (sortByRank rank elements).Pairwise fun left right => rank left ≤ rank right := by
  simpa [sortByRank] using
    List.pairwise_mergeSort (ranked_trans rank) (ranked_total rank) elements

/-- Sorting leaves the elements of one rank in their order. -/
theorem ofRank_sortByRank (value : κ) (elements : List α) :
    ofRank rank value (sortByRank rank elements) = ofRank rank value elements := by
  have level : (ofRank rank value elements).Pairwise
      fun left right => decide (rank left ≤ rank right) = true := by
    apply List.pairwise_of_forall_mem_list
    intro left leftMember right rightMember
    have leftRank := (List.mem_filter.mp leftMember).2
    have rightRank := (List.mem_filter.mp rightMember).2
    simp only [decide_eq_true_eq] at leftRank rightRank ⊢
    rw [leftRank, rightRank]
  have kept : (ofRank rank value elements).Sublist (sortByRank rank elements) :=
    List.sublist_mergeSort (ranked_trans rank) (ranked_total rank) level List.filter_sublist
  have inside := kept.filter fun element => decide (rank element = value)
  rw [ofRank, List.filter_filter] at inside
  simp only [Bool.and_self] at inside
  have permutation : (sortByRank rank elements).Perm elements := List.mergeSort_perm elements _
  exact (inside.eq_of_length (permutation.filter _).length_eq.symm).symm

theorem ofRank_cons_of_eq {value : κ} {first : α} (same : rank first = value)
    (rest : List α) : ofRank rank value (first :: rest) = first :: ofRank rank value rest :=
  List.filter_cons_of_pos (decide_eq_true same)

theorem ofRank_cons_of_ne {value : κ} {first : α} (different : rank first ≠ value)
    (rest : List α) : ofRank rank value (first :: rest) = ofRank rank value rest :=
  List.filter_cons_of_neg (by simpa using different)

theorem rank_head_le {first second : α} {left right : List α}
    (sorted : (first :: left).Pairwise fun first second => rank first ≤ rank second)
    (level : ofRank rank (rank second) (first :: left) =
      ofRank rank (rank second) (second :: right)) :
    rank first ≤ rank second := by
  have member : second ∈ ofRank rank (rank second) (first :: left) := by
    rw [level, ofRank_cons_of_eq rank rfl]
    exact List.mem_cons_self
  rcases List.mem_cons.mp (List.mem_of_mem_filter member) with rfl | later
  · exact le_rfl
  · exact List.rel_of_pairwise_cons sorted later

/-- Two sorted lists with the same elements of every rank, in the same order, are equal. -/
theorem eq_of_sorted_of_ofRank_eq {left right : List α}
    (leftSorted : left.Pairwise fun first second => rank first ≤ rank second)
    (rightSorted : right.Pairwise fun first second => rank first ≤ rank second)
    (level : ∀ sample, ofRank rank (rank sample) left = ofRank rank (rank sample) right) :
    left = right := by
  induction left generalizing right with
  | nil =>
      cases right with
      | nil => rfl
      | cons second right =>
          have lacking := level second
          rw [ofRank_cons_of_eq rank rfl] at lacking
          cases lacking
  | cons first left induction =>
      cases right with
      | nil =>
          have lacking := level first
          rw [ofRank_cons_of_eq rank rfl] at lacking
          cases lacking
      | cons second right =>
          have same : rank second = rank first := by
            apply le_antisymm
            · exact rank_head_le rank rightSorted (level first).symm
            · exact rank_head_le rank leftSorted (level second)
          -- Both heads are first of their rank, so that they are one element.
          have heads := level first
          rw [ofRank_cons_of_eq rank rfl, ofRank_cons_of_eq rank same] at heads
          obtain ⟨rfl, -⟩ := List.cons.inj heads
          congr 1
          apply induction leftSorted.of_cons rightSorted.of_cons
          intro sample
          have rest := level sample
          by_cases here : rank first = rank sample
          · rw [ofRank_cons_of_eq rank here, ofRank_cons_of_eq rank here] at rest
            exact (List.cons.inj rest).2
          · rw [ofRank_cons_of_ne rank here, ofRank_cons_of_ne rank here] at rest
            exact rest

theorem sortByRank_eq {left right : List α}
    (level : ∀ sample, ofRank rank (rank sample) left = ofRank rank (rank sample) right) :
    sortByRank rank left = sortByRank rank right := by
  apply eq_of_sorted_of_ofRank_eq rank (sorted_sortByRank rank left)
    (sorted_sortByRank rank right)
  intro sample
  rw [ofRank_sortByRank, ofRank_sortByRank, level sample]

end

/-- Sorting forgets the order of elements that the order tells apart. -/
theorem mergeSort_eq_of_perm {α : Type} {notAfter : α → α → Bool}
    (trans : ∀ first second third, notAfter first second = true → notAfter second third = true →
      notAfter first third = true)
    (total : ∀ left right, (notAfter left right || notAfter right left) = true)
    {left right : List α} (permutation : left.Perm right)
    (antisymm : ∀ first ∈ left, ∀ second ∈ left, notAfter first second = true →
      notAfter second first = true → first = second) :
    left.mergeSort notAfter = right.mergeSort notAfter := by
  have both : (left.mergeSort notAfter).Perm (right.mergeSort notAfter) :=
    (List.mergeSort_perm left _).trans (permutation.trans (List.mergeSort_perm right _).symm)
  refine both.eq_of_pairwise ?_ (List.pairwise_mergeSort trans total left)
    (List.pairwise_mergeSort trans total right)
  intro first second firstMember secondMember
  rw [List.mem_mergeSort] at firstMember secondMember
  exact antisymm first firstMember second (permutation.mem_iff.mpr secondMember)

theorem Bytes.notAfter_iff (first second : Bytes) :
    notAfter first second = true ↔ first ≤ second := by
  simp [notAfter, before]

theorem Bytes.notAfter_trans (first second third : Bytes) (before : notAfter first second = true)
    (after : notAfter second third = true) : notAfter first third = true := by
  rw [notAfter_iff] at before after ⊢
  exact List.le_trans before after

theorem Bytes.notAfter_total (first second : Bytes) :
    (notAfter first second || notAfter second first) = true := by
  rw [Bool.or_eq_true, notAfter_iff, notAfter_iff]
  exact List.le_total first second

theorem Bytes.sorted_sort (texts : List Bytes) :
    (Bytes.sort texts).Pairwise fun first second => notAfter first second = true :=
  List.pairwise_mergeSort notAfter_trans notAfter_total texts

/-- Sorted texts are determined by which texts they are. -/
theorem Bytes.eq_of_sorted_of_perm {left right : List Bytes} (permutation : left.Perm right)
    (leftSorted : left.Pairwise fun first second => notAfter first second = true)
    (rightSorted : right.Pairwise fun first second => notAfter first second = true) :
    left = right := by
  apply permutation.eq_of_pairwise _ leftSorted rightSorted
  intro first second _ _
  rw [notAfter_iff, notAfter_iff]
  exact List.le_antisymm

/-- Sorting texts forgets their order. -/
theorem Bytes.sort_eq_of_perm {left right : List Bytes} (permutation : left.Perm right) :
    Bytes.sort left = Bytes.sort right := by
  refine mergeSort_eq_of_perm notAfter_trans notAfter_total permutation ?_
  intro first _ second _
  rw [notAfter_iff, notAfter_iff]
  exact List.le_antisymm

theorem Digest.toNat_inj {left right : Digest} :
    left.value.toNat = right.value.toNat ↔ left = right := by
  constructor
  · intro equal
    exact congrArg Digest.mk (BitVec.eq_of_toNat_eq equal)
  · rintro rfl
    rfl

/-! ### Views -/

/-- Change what a table holds at one place. -/
def alter {κ β : Type} [DecidableEq κ] (place : κ) (change : β → β) (table : κ → β) : κ → β :=
  Function.update table place (change (table place))

theorem alter_comm {κ β : Type} [DecidableEq κ] {place other : κ} {change otherChange : β → β}
    (swap : place = other → ∀ value, change (otherChange value) = otherChange (change value))
    (table : κ → β) :
    alter place change (alter other otherChange table) =
      alter other otherChange (alter place change table) := by
  unfold alter
  by_cases same : place = other
  · subst same
    simp only [Function.update_self, Function.update_idem, swap rfl]
  · rw [Function.update_of_ne same, Function.update_of_ne (Ne.symm same),
      Function.update_comm same]

/-- What the answers of a store in memory depend on: the sizes and the paths of the chunks by
identifier, the replaced occurrences by chunk and start, and the outcomes by chunk and key. -/
@[ext] structure View where
  chunks : ChunkId → List (Int × Multiset Bytes)
  substitutions : ChunkId × Int → List Substitution
  results : ChunkId × Bytes → Option StoredResult

namespace View

def addPlace (provenance : Option Provenance) (paths : Multiset Bytes) : Multiset Bytes :=
  match provenance with
  | none => paths
  | some provenance => paths.ndinsert provenance.path

/-- The chunks of an identifier after one of them was seen at one more place. -/
def see (size : Int) (provenance : Option Provenance) :
    List (Int × Multiset Bytes) → List (Int × Multiset Bytes)
  | [] => [(size, addPlace provenance 0)]
  | (first, paths) :: rest => (first, addPlace provenance paths) :: rest

def write (view : View) : Write → View
  | .chunk id size provenance =>
      { view with chunks := alter id (see size provenance) view.chunks }
  | .substitution record =>
      { view with
        substitutions :=
          alter (record.chunk, record.offset.start)
            (insertFirst Substitution.sameKey record) view.substitutions }
  | .result result =>
      { view with
        results := alter (result.chunk, result.key) (Function.const _ (some result)) view.results }

theorem addPlace_comm (left right : Option Provenance) (paths : Multiset Bytes) :
    addPlace left (addPlace right paths) = addPlace right (addPlace left paths) := by
  have smaller (left right : Bytes) :
      (paths.ndinsert right).ndinsert left ≤ (paths.ndinsert left).ndinsert right := by
    rw [Multiset.ndinsert_le, Multiset.ndinsert_le]
    refine ⟨⟨?_, ?_⟩, ?_⟩
    · exact (Multiset.le_ndinsert_self left paths).trans (Multiset.le_ndinsert_self right _)
    · exact Multiset.mem_ndinsert_self right _
    · exact Multiset.mem_ndinsert_of_mem (Multiset.mem_ndinsert_self left paths)
  cases left with
  | none => rfl
  | some left =>
      cases right with
      | none => rfl
      | some right => exact le_antisymm (smaller _ _) (smaller _ _)

theorem see_comm (size : Int) (left right : Option Provenance)
    (seen : List (Int × Multiset Bytes)) :
    see size left (see size right seen) = see size right (see size left seen) := by
  cases seen with
  | nil => rw [see, see, see, see, addPlace_comm]
  | cons first rest => rw [see, see, see, see, addPlace_comm]

end View

/-- The two writes do not contradict each other: a chunk has one size, an occurrence one record
and a key one outcome. -/
def Write.Compatible : Write → Write → Prop
  | .chunk left leftSize _, .chunk right rightSize _ => left = right → leftSize = rightSize
  | .substitution left, .substitution right =>
      left.chunk = right.chunk → left.offset.start = right.offset.start → left = right
  | .result left, .result right => left.chunk = right.chunk → left.key = right.key → left = right
  | _, _ => True

/-- Compatible writes change a view alike in either order. -/
theorem View.write_comm {left right : Write} (compatible : left.Compatible right) (view : View) :
    (view.write left).write right = (view.write right).write left := by
  cases left with
  | chunk leftId leftSize leftProvenance =>
      cases right with
      | chunk rightId rightSize rightProvenance =>
          refine View.ext (alter_comm ?_ view.chunks) rfl rfl
          intro same
          rw [compatible same.symm]
          exact see_comm rightSize rightProvenance leftProvenance
      | substitution => rfl
      | result => rfl
  | substitution leftRecord =>
      cases right with
      | chunk => rfl
      | substitution rightRecord =>
          refine View.ext rfl (alter_comm ?_ view.substitutions) rfl
          intro same records
          obtain ⟨sameChunk, sameStart⟩ := Prod.mk.inj same
          rw [compatible sameChunk.symm sameStart.symm]
      | result => rfl
  | result leftResult =>
      cases right with
      | chunk => rfl
      | substitution => rfl
      | result rightResult =>
          refine View.ext rfl rfl (alter_comm ?_ view.results)
          intro same outcome
          obtain ⟨sameChunk, sameKey⟩ := Prod.mk.inj same
          rw [compatible sameChunk.symm sameKey.symm]

/-- Compatible writes change a view alike in whatever order they are carried out. -/
theorem View.foldl_write_eq_of_perm {left right : List Write} (permutation : left.Perm right)
    (compatible : ∀ first ∈ left, ∀ second ∈ left, first.Compatible second) (view : View) :
    left.foldl View.write view = right.foldl View.write view := by
  apply permutation.foldl_eq'
  intro first firstMember second secondMember view
  exact View.write_comm (compatible first firstMember second secondMember) view

namespace MemoryStore

/-! ### The view of a store -/

def sortPaths (paths : Multiset Bytes) : List Bytes :=
  Quot.liftOn paths Bytes.sort fun _ _ => Bytes.sort_eq_of_perm

/-- The chunks of an identifier, without the order of their paths. -/
def shownChunks (chunks : List SeenChunk) (id : ChunkId) : List (Int × Multiset Bytes) :=
  (chunks.filter fun chunk => chunk.id == id).map fun chunk =>
    (chunk.size, (chunk.paths : Multiset Bytes))

/-- The replaced occurrences with a chunk and a start, in the order of recording. -/
def shownSubstitutions (records : List Substitution) (place : ChunkId × Int) :
    List Substitution :=
  records.filter fun record => (record.chunk, record.offset.start) == place

def view (store : MemoryStore) : View where
  chunks := shownChunks store.chunks
  substitutions := shownSubstitutions store.substitutions
  results place := store.result? place.1 place.2

theorem coe_addProvenance (provenance : Option Provenance) (paths : List Bytes) :
    (addProvenance provenance paths : Multiset Bytes) = View.addPlace provenance paths := by
  cases provenance with
  | none => rfl
  | some provenance =>
      by_cases listed : provenance.path ∈ paths
      · simp [addProvenance, addPath, View.addPlace, listed]
      · simp [addProvenance, addPath, View.addPlace, listed]

theorem shownChunks_addChunk (id : ChunkId) (size : Int) (provenance : Option Provenance)
    (chunks : List SeenChunk) :
    shownChunks (addChunk id size provenance chunks) =
      alter id (View.see size provenance) (shownChunks chunks) := by
  funext other
  by_cases here : other = id
  · subst here
    rw [alter, Function.update_self]
    induction chunks with
    | nil => simp [addChunk, shownChunks, View.see, coe_addProvenance]
    | cons chunk chunks induction =>
        by_cases own : chunk.id = other
        · simp [addChunk, shownChunks, View.see, own, coe_addProvenance]
        · simpa [addChunk, shownChunks, own] using induction
  · rw [alter, Function.update_of_ne here]
    induction chunks with
    | nil => simp [addChunk, shownChunks, Ne.symm here]
    | cons chunk chunks induction =>
        by_cases own : chunk.id = id
        · simp [addChunk, shownChunks, own, Ne.symm here]
        · by_cases theirs : chunk.id = other
          · subst theirs
            simpa [addChunk, shownChunks, own] using induction
          · simpa [addChunk, shownChunks, own, theirs] using induction

theorem shownSubstitutions_insertFirst (record : Substitution) (records : List Substitution) :
    shownSubstitutions (insertFirst Substitution.sameKey record records) =
      alter (record.chunk, record.offset.start) (insertFirst Substitution.sameKey record)
        (shownSubstitutions records) := by
  have known : (shownSubstitutions records (record.chunk, record.offset.start)).any
      record.sameKey = records.any record.sameKey := by
    rw [shownSubstitutions, List.any_filter]
    congr 1
    funext other
    by_cases same : record.sameKey other
    · simp only [Substitution.sameKey, Bool.and_eq_true, beq_iff_eq] at same
      simp [Substitution.sameKey, same]
    · simp [same]
  funext place
  by_cases here : place = (record.chunk, record.offset.start)
  · subst here
    rw [alter, Function.update_self, insertFirst, insertFirst, known]
    split
    · rfl
    · simp [shownSubstitutions]
  · rw [alter, Function.update_of_ne here, insertFirst]
    split
    · rfl
    · simp [shownSubstitutions, Ne.symm here]

/-- A write changes the view as it changes the store. -/
theorem view_write (store : MemoryStore) (change : Write) :
    (store.write change).view = store.view.write change := by
  cases change with
  | chunk id size provenance =>
      exact View.ext (shownChunks_addChunk id size provenance store.chunks) rfl rfl
  | substitution record =>
      exact View.ext rfl (shownSubstitutions_insertFirst record store.substitutions) rfl
  | result result =>
      refine View.ext rfl rfl ?_
      funext ⟨id, key⟩
      change (store.write (.result result)).result? id key = _
      rw [result?_write_result]
      by_cases here : result.chunk = id ∧ result.key = key
      · obtain ⟨rfl, rfl⟩ := here
        simp [View.write, alter]
      · have elsewhere : (id, key) ≠ (result.chunk, result.key) := by
          intro same
          obtain ⟨sameChunk, sameKey⟩ := Prod.mk.inj same
          exact here ⟨sameChunk.symm, sameKey.symm⟩
        simp [View.write, alter, here, elsewhere]
        rfl

theorem view_foldl_write (changes : List Write) (store : MemoryStore) :
    (changes.foldl write store).view = changes.foldl View.write store.view := by
  induction changes generalizing store with
  | nil => rfl
  | cons change changes induction =>
      rw [List.foldl_cons, List.foldl_cons, induction, view_write]

/-! ### Answers -/

theorem hasChunk_eq (store : MemoryStore) (id : ChunkId) :
    store.hasChunk id = !(store.view.chunks id).isEmpty := by
  rw [Bool.eq_iff_iff]
  simp [hasChunk, view, shownChunks]

/-- The records of an identifier, of which the view shows all but the order of paths. -/
theorem ofRank_chunkRecords (store : MemoryStore) (id : ChunkId) :
    ofRank (fun record : ChunkRecord => record.id.value.toNat) id.value.toNat
        (store.chunks.map fun chunk => ⟨chunk.id, chunk.size, Bytes.sort chunk.paths⟩) =
      (store.view.chunks id).map fun chunk => ⟨id, chunk.1, sortPaths chunk.2⟩ := by
  have own (chunk : SeenChunk) :
      decide (chunk.id.value.toNat = id.value.toNat) = (chunk.id == id) := by
    simp [Digest.toNat_inj, Bool.beq_eq_decide_eq]
  simp only [ofRank, view, shownChunks, List.filter_map, List.map_map, Function.comp_def, own]
  apply List.map_congr_left
  intro chunk member
  have sameId : chunk.id = id := by simpa using (List.mem_filter.mp member).2
  rw [sameId]
  rfl

theorem chunkRecords_eq {left right : MemoryStore} (same : left.view = right.view) :
    left.chunkRecords = right.chunkRecords := by
  apply sortByRank_eq fun record : ChunkRecord => record.id.value.toNat
  intro sample
  rw [ofRank_chunkRecords, ofRank_chunkRecords, same]

/-- The rank by which replaced occurrences are sorted. -/
def rank (record : Substitution) : ℕ ×ₗ ℤ :=
  toLex (record.chunk.value.toNat, record.offset.start)

theorem notAfter_eq_rank :
    Substitution.notAfter = fun left right => decide (rank left ≤ rank right) := by
  funext left right
  unfold Substitution.notAfter
  by_cases same : left.chunk = right.chunk
  · simp [rank, same, Prod.Lex.le_iff]
  · have apart : left.chunk.value.toNat ≠ right.chunk.value.toNat :=
      fun equal => same (Digest.toNat_inj.mp equal)
    simp [rank, same, Prod.Lex.le_iff, apart, Digest.notAfter]
    omega

theorem ofRank_substitutions (store : MemoryStore) (sample : Substitution) :
    ofRank rank (rank sample) store.substitutions =
      store.view.substitutions (sample.chunk, sample.offset.start) := by
  simp only [ofRank, view, shownSubstitutions]
  congr 1
  funext record
  simp [rank, Digest.toNat_inj, Bool.beq_eq_decide_eq]

theorem allSubstitutions_eq {left right : MemoryStore} (same : left.view = right.view) :
    left.allSubstitutions = right.allSubstitutions := by
  unfold allSubstitutions
  rw [notAfter_eq_rank]
  apply sortByRank_eq rank
  intro sample
  rw [ofRank_substitutions, ofRank_substitutions, same]

theorem substitutionsOf_eq {left right : MemoryStore} (same : left.view = right.view)
    (id : ChunkId) : left.substitutionsOf id = right.substitutionsOf id := by
  unfold substitutionsOf
  rw [notAfter_eq_rank]
  apply sortByRank_eq rank
  intro sample
  have level : ofRank rank (rank sample) left.substitutions =
      ofRank rank (rank sample) right.substitutions := by
    rw [ofRank_substitutions, ofRank_substitutions, same]
  unfold ofRank at level ⊢
  rw [List.filter_comm, level, List.filter_comm]

theorem result?_eq {left right : MemoryStore} (same : left.view = right.view) (id : ChunkId)
    (key : Bytes) : left.result? id key = right.result? id key :=
  congrArg (fun view => view.results (id, key)) same

end MemoryStore

/-- The two stores give the same answer to every question. -/
structure Store.SameAnswers (left right : Store) : Prop where
  chunkRecords : left.chunkRecords = right.chunkRecords
  allSubstitutions : left.allSubstitutions = right.allSubstitutions
  getSubstitutions : ∀ id, (left.getSubstitutions id).1 = (right.getSubstitutions id).1
  getResult : ∀ id key, (left.getResult id key).1 = (right.getResult id key).1
  hasChunk : ∀ id, left.hasChunk id = right.hasChunk id

/-- Stores in memory with the same view give the same answers. -/
theorem Store.SameAnswers.of_view_eq {left right : MemoryStore} (same : left.view = right.view) :
    SameAnswers (.ofRecords left) (.ofRecords right) where
  chunkRecords := congrArg Except.ok (MemoryStore.chunkRecords_eq same)
  allSubstitutions := congrArg Except.ok (MemoryStore.allSubstitutions_eq same)
  getSubstitutions id := congrArg Except.ok (MemoryStore.substitutionsOf_eq same id)
  getResult id key := by
    rw [getResult_ofRecords, getResult_ofRecords, MemoryStore.result?_eq same]
    split
    · rfl
    · rfl
  hasChunk id := by
    have seen : left.hasChunk id = right.hasChunk id := by
      rw [MemoryStore.hasChunk_eq, MemoryStore.hasChunk_eq, same]
    exact congrArg Except.ok seen

end Reroute
