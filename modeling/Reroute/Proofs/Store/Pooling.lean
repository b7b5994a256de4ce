import Mathlib
import Reroute.Proofs.Store.Agreement
import Reroute.Proofs.Store.Merging

/-!
# Merging stores that agree

Stores agree if no two of them, nor one of them alone, have different rows with the same key.
Then it does not matter which row of a key is copied first: united tables have exactly the rows
that any of the stores has.  So neither the order nor the grouping of merges shows in the rows,
nor in what an open store answers, and stores whose rows are there already add nothing.
-/

namespace Reroute

/-- A row of one of the four tables. -/
inductive Row where
  | chunk (row : ChunkSize)
  | place (row : Place)
  | substitution (row : Substitution)
  | result (row : StoredResult)

/-- The rows are of the same table and have the same key there. -/
inductive Row.SameKey : Row → Row → Prop where
  | chunk {left right : ChunkSize} : left.id = right.id → SameKey (.chunk left) (.chunk right)
  | place {left right : Place} : left.key = right.key → SameKey (.place left) (.place right)
  | substitution {left right : Substitution} :
      left.key = right.key → SameKey (.substitution left) (.substitution right)
  | result {left right : StoredResult} :
      left.place = right.place → SameKey (.result left) (.result right)

section

variable {α κ : Type} {key : α → κ} {same : α → α → Bool}

/-- Where a key has one row, united tables have the rows of both. -/
theorem Tables.mem_copyRows_iff [BEq κ] [LawfulBEq κ]
    (compared : ∀ left right, same left right = (key left == key right)) {source target : List α}
    (agree : ∀ row other, row ∈ target ∨ row ∈ source → other ∈ target ∨ other ∈ source →
      key row = key other → row = other) {row : α} :
    row ∈ copyRows same source target ↔ row ∈ target ∨ row ∈ source := by
  constructor
  · intro member
    exact (mem_of_mem_copyRows member).symm
  · rintro (old | new)
    · exact subset_copyRows source target old
    · have reflexive (row : α) : same row row = true := by rw [compared, beq_self_eq_true]
      obtain ⟨other, member, known⟩ := exists_same_copyRows reflexive target new
      rw [compared, beq_iff_eq] at known
      obtain rfl := agree row other (.inr new) (mem_of_mem_copyRows member).symm known
      exact member

theorem Tables.nodup_map_copyRows [BEq κ] [LawfulBEq κ]
    (compared : ∀ left right, same left right = (key left == key right)) (source : List α)
    {target : List α} (distinct : (target.map key).Nodup) :
    ((copyRows same source target).map key).Nodup := by
  rw [map_copyRows key compared]
  exact nodup_copyRows (source.map key) distinct

/-- If at most one element is looked for, it is found in any order. -/
theorem find?_eq_of_perm {select : α → Bool} {left right : List α}
    (permutation : left.Perm right)
    (once : ∀ first ∈ left, ∀ second ∈ left, select first = true → select second = true →
      first = second) :
    left.find? select = right.find? select := by
  cases found : left.find? select with
  | none =>
      symm
      rw [List.find?_eq_none] at found ⊢
      intro row member
      exact found row (permutation.mem_iff.mpr member)
  | some first =>
      have member := List.mem_of_find?_eq_some found
      have selected := List.find?_some found
      cases other : right.find? select with
      | none =>
          exact absurd selected (List.find?_eq_none.mp other first (permutation.mem_iff.mp member))
      | some second =>
          have otherMember := permutation.mem_iff.mpr (List.mem_of_find?_eq_some other)
          rw [once first member second otherMember selected (List.find?_some other)]

end

/-- The order of a store file tells records with different keys apart. -/
theorem Substitution.key_eq_of_notAfterWithRule {left right : Substitution}
    (before : left.notAfterWithRule right = true) (after : right.notAfterWithRule left = true) :
    left.key = right.key := by
  rw [notAfterWithRule_iff] at before after
  rcases before with less | ⟨same, rule⟩
  · rcases after with later | ⟨again, -⟩
    · exact absurd later less.asymm
    · exact absurd again less.ne'
  · rcases after with later | ⟨-, back⟩
    · exact absurd same later.ne'
    · simp only [MemoryStore.rank, EmbeddingLike.apply_eq_iff_eq, Prod.mk.injEq,
        Digest.toNat_inj] at same
      rw [key, key, same.1, same.2, List.le_antisymm rule back]

namespace Tables

/-! ### Rows of united tables -/

/-- The row stands in its table. -/
def Has (tables : Tables) : Row → Prop
  | .chunk row => row ∈ tables.chunks
  | .place row => row ∈ tables.places
  | .substitution row => row ∈ tables.substitutions
  | .result row => row ∈ tables.results

/-- One of the stores has the row. -/
def AnyHas (stores : List Tables) (row : Row) : Prop :=
  ∃ store ∈ stores, store.Has row

/-- Rows of the stores that have the same key are equal. -/
def Consistent (stores : List Tables) : Prop :=
  ∀ row other, AnyHas stores row → AnyHas stores other → row.SameKey other → row = other

/-- The same rows stand in every table. -/
def SameRows (left right : Tables) : Prop :=
  ∀ row, left.Has row ↔ right.Has row

/-- No table has a key twice. -/
structure Keyed (tables : Tables) : Prop where
  chunks : (tables.chunks.map ChunkSize.id).Nodup
  places : (tables.places.map Place.key).Nodup
  substitutions : (tables.substitutions.map Substitution.key).Nodup
  results : (tables.results.map StoredResult.place).Nodup

variable {source target left right : Tables} {stores others : List Tables} {row : Row}

@[simp] theorem anyHas_nil : ¬AnyHas [] row := by
  simp [AnyHas]

@[simp] theorem anyHas_cons :
    AnyHas (target :: stores) row ↔ target.Has row ∨ AnyHas stores row := by
  simp [AnyHas]

@[simp] theorem anyHas_append :
    AnyHas (stores ++ others) row ↔ AnyHas stores row ∨ AnyHas others row := by
  simp [AnyHas, or_and_right, exists_or]

theorem anyHas_perm (permutation : stores.Perm others) (row : Row) :
    AnyHas stores row ↔ AnyHas others row := by
  simp only [AnyHas, permutation.mem_iff]

theorem Consistent.mono (consistent : Consistent stores)
    (held : ∀ row, AnyHas others row → AnyHas stores row) : Consistent others :=
  fun row other rowHeld otherHeld => consistent row other (held row rowHeld) (held other otherHeld)

theorem has_unite_iff (consistent : Consistent [target, source]) :
    (unite source target).Has row ↔ target.Has row ∨ source.Has row := by
  have agree (row other : Row) (rowHeld : target.Has row ∨ source.Has row)
      (otherHeld : target.Has other ∨ source.Has other) (same : row.SameKey other) : row = other :=
    consistent row other (by simpa [AnyHas] using rowHeld) (by simpa [AnyHas] using otherHeld) same
  cases row with
  | chunk row =>
      refine mem_copyRows_iff ChunkSize.sameKey_eq fun row other own held same => ?_
      exact Row.chunk.inj (agree (.chunk row) (.chunk other) own held (.chunk same))
  | place row =>
      refine mem_copyRows_iff Place.beq_eq fun row other own held same => ?_
      exact Row.place.inj (agree (.place row) (.place other) own held (.place same))
  | substitution row =>
      refine mem_copyRows_iff Substitution.sameKey_eq fun row other own held same => ?_
      exact Row.substitution.inj
        (agree (.substitution row) (.substitution other) own held (.substitution same))
  | result row =>
      refine mem_copyRows_iff StoredResult.sameKey_eq fun row other own held same => ?_
      exact Row.result.inj (agree (.result row) (.result other) own held (.result same))

/-- Tables united with stores have the rows that the tables or one of the stores had. -/
theorem has_uniteAll_iff (consistent : Consistent (target :: stores)) :
    (uniteAll stores target).Has row ↔ AnyHas (target :: stores) row := by
  induction stores generalizing target with
  | nil => simp [uniteAll, AnyHas]
  | cons store stores induction =>
      have front : Consistent [target, store] :=
        consistent.mono fun row => by
          simp only [anyHas_cons, anyHas_nil, or_false]
          exact Or.imp_right .inl
      have step (row : Row) :
          AnyHas (unite store target :: stores) row ↔ AnyHas (target :: store :: stores) row := by
        rw [anyHas_cons, has_unite_iff front, anyHas_cons, anyHas_cons, or_assoc]
      rw [uniteAll_cons, induction (consistent.mono fun row => (step row).mp), step]

theorem Keyed.unite (keyed : target.Keyed) (source : Tables) : (unite source target).Keyed where
  chunks := nodup_map_copyRows ChunkSize.sameKey_eq _ keyed.chunks
  places := nodup_map_copyRows Place.beq_eq _ keyed.places
  substitutions := nodup_map_copyRows Substitution.sameKey_eq _ keyed.substitutions
  results := nodup_map_copyRows StoredResult.sameKey_eq _ keyed.results

theorem Keyed.uniteAll (keyed : target.Keyed) (stores : List Tables) :
    (uniteAll stores target).Keyed := by
  induction stores generalizing target with
  | nil => exact keyed
  | cons store stores induction => exact induction (keyed.unite store)

/-! ### What the rows determine -/

/-- Each table has the same rows, maybe in another order. -/
structure Reordered (left right : Tables) : Prop where
  chunks : left.chunks.Perm right.chunks
  places : left.places.Perm right.places
  substitutions : left.substitutions.Perm right.substitutions
  results : left.results.Perm right.results

theorem SameRows.reordered (same : left.SameRows right) (leftKeyed : left.Keyed)
    (rightKeyed : right.Keyed) : left.Reordered right where
  chunks := (List.perm_ext_iff_of_nodup leftKeyed.chunks.of_map rightKeyed.chunks.of_map).mpr
    fun row => same (.chunk row)
  places := (List.perm_ext_iff_of_nodup leftKeyed.places.of_map rightKeyed.places.of_map).mpr
    fun row => same (.place row)
  substitutions := (List.perm_ext_iff_of_nodup leftKeyed.substitutions.of_map
    rightKeyed.substitutions.of_map).mpr fun row => same (.substitution row)
  results := (List.perm_ext_iff_of_nodup leftKeyed.results.of_map rightKeyed.results.of_map).mpr
    fun row => same (.result row)

namespace Reordered

theorem recordOf_eq (reordered : left.Reordered right) : left.recordOf = right.recordOf := by
  funext chunk
  have paths : (left.pathsOf chunk.id).Perm (right.pathsOf chunk.id) :=
    (reordered.places.filter _).map _
  rw [recordOf, recordOf, Bytes.sort_eq_of_perm paths]

theorem chunkRecords_eq (reordered : left.Reordered right) (keyed : left.Keyed) :
    left.chunkRecords = right.chunkRecords := by
  have distinct : (right.chunks.map ChunkSize.id).Nodup :=
    (reordered.chunks.map _).nodup_iff.mp keyed.chunks
  rw [Tables.chunkRecords_eq keyed.chunks, Tables.chunkRecords_eq distinct, reordered.recordOf_eq]
  refine mergeSort_eq_of_perm (ranked_trans fun record : ChunkRecord => record.id.value.toNat)
    (ranked_total _) (reordered.chunks.map _) ?_
  simp only [List.forall_mem_map, decide_eq_true_eq]
  intro first firstMember second secondMember before after
  have sameId : first.id = second.id := Digest.toNat_inj.mp (le_antisymm before after)
  rw [List.inj_on_of_nodup_map keyed.chunks firstMember secondMember sameId]

theorem sorted_eq (reordered : left.Reordered right) (keyed : left.Keyed)
    (select : Substitution → Bool) :
    (left.substitutions.filter select).mergeSort Substitution.notAfterWithRule =
      (right.substitutions.filter select).mergeSort Substitution.notAfterWithRule := by
  refine mergeSort_eq_of_perm Substitution.notAfterWithRule_trans
    Substitution.notAfterWithRule_total (reordered.substitutions.filter _) ?_
  intro first firstMember second secondMember before after
  exact List.inj_on_of_nodup_map keyed.substitutions (List.mem_of_mem_filter firstMember)
    (List.mem_of_mem_filter secondMember) (Substitution.key_eq_of_notAfterWithRule before after)

theorem result?_eq (reordered : left.Reordered right) (keyed : left.Keyed) (id : ChunkId)
    (key : Bytes) : left.result? id key = right.result? id key := by
  refine find?_eq_of_perm reordered.results ?_
  simp only [Bool.and_eq_true, beq_iff_eq]
  rintro first firstMember second secondMember ⟨rfl, rfl⟩ ⟨sameChunk, sameKey⟩
  apply List.inj_on_of_nodup_map keyed.results firstMember secondMember
  rw [StoredResult.place, StoredResult.place, sameChunk, sameKey]

/-- Tables with the same rows give the same answers. -/
theorem sameAnswers (reordered : left.Reordered right) (keyed : left.Keyed) :
    Store.SameAnswers (.ofTables left) (.ofTables right) where
  chunkRecords := congrArg Except.ok (reordered.chunkRecords_eq keyed)
  allSubstitutions := congrArg Except.ok (by
    have sorted := reordered.sorted_eq keyed fun _ => true
    rwa [List.filter_true, List.filter_true] at sorted)
  getSubstitutions id := congrArg Except.ok (reordered.sorted_eq keyed _)
  getResult id key := by
    rw [Store.getResult_ofTables, Store.getResult_ofTables, reordered.result?_eq keyed]
  hasChunk id := congrArg Except.ok (reordered.chunks.any_eq)

end Reordered

/-! ### Stores united in any way -/

theorem not_has_of_firstWithRows? (rowless : target.firstWithRows? = none) (row : Row) :
    ¬target.Has row := by
  obtain ⟨chunks, places, substitutions, results⟩ := firstWithRows?_eq_none_iff.mp rowless
  cases row <;> simp [Has, *]

theorem keyed_of_firstWithRows? (rowless : target.firstWithRows? = none) : target.Keyed := by
  obtain ⟨chunks, places, substitutions, results⟩ := firstWithRows?_eq_none_iff.mp rowless
  constructor <;> simp [*]

/-- Tables without rows come to have the rows that any of the stores has. -/
theorem has_uniteAll_iff_anyHas (consistent : Consistent stores)
    (rowless : target.firstWithRows? = none) :
    (uniteAll stores target).Has row ↔ AnyHas stores row := by
  have none := not_has_of_firstWithRows? rowless
  rw [has_uniteAll_iff, anyHas_cons, or_iff_right (none row)]
  refine consistent.mono fun row => ?_
  rw [anyHas_cons, or_iff_right (none row)]
  exact id

/-- Tables take nothing from stores whose rows they have. -/
theorem uniteAll_eq_self (known : ∀ row, AnyHas stores row → target.Has row) :
    uniteAll stores target = target := by
  induction stores with
  | nil => rfl
  | cons store stores induction =>
      simp only [anyHas_cons, or_imp] at known
      have step : unite store target = target := by
        rw [unite,
          copyRows_of_subset ChunkSize.sameKey_eq
            (List.map_subset _ fun row => (known (.chunk row)).1),
          copyRows_of_subset Place.beq_eq (List.map_subset _ fun row => (known (.place row)).1),
          copyRows_of_subset Substitution.sameKey_eq
            (List.map_subset _ fun row => (known (.substitution row)).1),
          copyRows_of_subset StoredResult.sameKey_eq
            (List.map_subset _ fun row => (known (.result row)).1)]
      rw [uniteAll_cons, step, induction fun row => (known row).2]

/-- All rows of tables without rows are new, and the order of the tables does not show in how
many they are. -/
theorem Reordered.gainedOver_eq (reordered : left.Reordered right)
    (rowless : target.firstWithRows? = none) :
    left.gainedOver target = right.gainedOver .empty := by
  obtain ⟨chunks, places, substitutions, results⟩ := firstWithRows?_eq_none_iff.mp rowless
  simp [gainedOver, empty, chunks, places, substitutions, results, reordered.chunks.length_eq,
    reordered.places.length_eq, reordered.substitutions.length_eq, reordered.results.length_eq]

end Tables

namespace Files

open Tables (AnyHas Consistent)

/-- The destination can be opened and written, and the sources that are opened behind it have
the rows of stores. -/
structure Ready (files : Files) (sources : List Bytes) (destination : Bytes)
    (placed : PlacedTables) (stores : List Tables) : Prop where
  given : sources ≠ []
  named : destination ≠ []
  opens : ∃ opened, files.openTables destination = (.ok placed, opened) ∧
    opened.readEach (sources.map .sound) = (stores, none)
  writable : placed.access = .everything

/-- A merge takes in all sources, counts the rows it gained and leaves these tables in its
destination. -/
def MergesTo (files : Files) (sources : List Bytes) (destination : Bytes)
    (place : Option (List Bytes)) (merged : Tables) (gained : Tables.Gained) : Prop :=
  ∃ report after, files.merge sources destination = (.ok report, after) ∧
    report.failure = none ∧ report.sources = sources.length ∧ report.gained = gained ∧
    after.Holds place merged

/-- A merge leaves the rows of a pool in its destination, counts them all, and an open store
answers like the pool. -/
def Fills (files : Files) (sources : List Bytes) (destination : Bytes)
    (place : Option (List Bytes)) (pool : Tables) : Prop :=
  ∃ merged, files.MergesTo sources destination place merged (pool.gainedOver .empty) ∧
    merged.SameRows pool ∧ Store.SameAnswers (.ofTables merged) (.ofTables pool)

variable {files : Files} {sources : List Bytes} {destination : Bytes} {placed : PlacedTables}
  {stores order : List Tables} {pool : Tables}

/-- Sources that are opened without any effect can be opened in any order. -/
theorem readEach_of_standing {tablesAt : Bytes → Tables}
    (standing : ∀ path ∈ sources, files.openSource path = (.ok (tablesAt path), files)) :
    files.readEach (sources.map .sound) = (sources.map tablesAt, none) := by
  induction sources with
  | nil => rfl
  | cons path sources induction =>
      rw [List.forall_mem_cons] at standing
      rw [List.map_cons, readEach_cons standing.1 rfl, induction standing.2, List.map_cons]

/-- A merge whose sources can all be opened unites their rows with those of the destination. -/
theorem Ready.mergesTo (ready : files.Ready sources destination placed stores) :
    files.MergesTo sources destination placed.names (Tables.uniteAll stores placed.tables)
      ((Tables.uniteAll stores placed.tables).gainedOver placed.tables) := by
  obtain ⟨opened, opens, reads⟩ := ready.opens
  have run := (Beside.start opens).mergeStart (sources.map .sound)
  have counted : (opened.readEach (sources.map .sound)).1.length = sources.length :=
    (length_readEach (by rw [reads])).trans (List.length_map _)
  rw [reads] at run counted
  have succeeded := run.writable ready.writable
  have all := (run.ended.mp succeeded).1
  have holds := run.holds
  have taken := run.sources
  have grew := run.grew
  rw [all] at holds taken grew
  have given : sources.map MergeSource.sound ≠ [] := by simpa using ready.given
  refine ⟨_, _, mergeSources_eq opens given ready.named, succeeded, ?_, grew.eq_gainedOver, holds⟩
  rw [taken, ← counted]
  exact Nat.zero_add _

/-- In a destination without rows, stores that together have the rows of a pool leave them. -/
theorem Ready.fills (ready : files.Ready sources destination placed order)
    (rowless : placed.tables.firstWithRows? = none) (consistent : Consistent order)
    (keyed : pool.Keyed) (same : ∀ row, AnyHas order row ↔ pool.Has row) :
    files.Fills sources destination placed.names pool := by
  have rows : (Tables.uniteAll order placed.tables).SameRows pool := fun row =>
    (Tables.has_uniteAll_iff_anyHas consistent rowless).trans (same row)
  have unitedKeyed := (Tables.keyed_of_firstWithRows? rowless).uniteAll order
  have reordered := rows.reordered unitedKeyed keyed
  have merges := ready.mergesTo
  rw [reordered.gainedOver_eq rowless] at merges
  exact ⟨_, merges, rows, reordered.sameAnswers unitedKeyed⟩

/-- Let the rows of stores agree.  Merges of all of them into empty destinations, in any order,
leave the same rows there, count the same and give the same answers; and so does a merge of some
of them with what a merge of the others left.  Where these rows are, a merge of stores that have
no other ones adds nothing. -/
theorem merge_confluent (consistent : Consistent stores) :
    ∃ pool : Tables, (∀ row, pool.Has row ↔ AnyHas stores row) ∧
      (∀ {files sources destination placed order},
        Ready files sources destination placed order → order.Perm stores →
        placed.tables.firstWithRows? = none → files.Fills sources destination placed.names pool) ∧
      (∀ {front rest files sources destination placed order},
        (front ++ rest).Perm stores → Ready files sources destination placed order →
        order.Perm front → placed.tables.firstWithRows? = none →
        ∃ middle gained, files.MergesTo sources destination placed.names middle gained ∧
          ∀ {files sources destination placed order},
            Ready files sources destination placed order → order.Perm (middle :: rest) →
            placed.tables.firstWithRows? = none →
            files.Fills sources destination placed.names pool) ∧
      ∀ {files sources destination placed order},
        Ready files sources destination placed order → placed.tables.SameRows pool →
        (∀ row, AnyHas order row → AnyHas stores row) →
        files.MergesTo sources destination placed.names placed.tables .none := by
  have rowless : Tables.empty.firstWithRows? = none := rfl
  have keyed := (Tables.keyed_of_firstWithRows? rowless).uniteAll stores
  have held (row : Row) : (Tables.uniteAll stores .empty).Has row ↔ AnyHas stores row :=
    Tables.has_uniteAll_iff_anyHas consistent rowless
  refine ⟨Tables.uniteAll stores .empty, held, ?_, ?_, ?_⟩
  · intro files sources destination placed order ready permutation empty
    have same := Tables.anyHas_perm permutation
    exact ready.fills empty (consistent.mono fun row => (same row).mp) keyed
      fun row => (same row).trans (held row).symm
  · intro front rest files sources destination placed order parts ready permutation empty
    have orderHeld (row : Row) : AnyHas order row → AnyHas stores row := by
      rw [Tables.anyHas_perm permutation, ← Tables.anyHas_perm parts, Tables.anyHas_append]
      exact .inl
    have middleHas (row : Row) :
        (Tables.uniteAll order placed.tables).Has row ↔ AnyHas front row :=
      (Tables.has_uniteAll_iff_anyHas (consistent.mono orderHeld) empty).trans
        (Tables.anyHas_perm permutation row)
    refine ⟨_, _, ready.mergesTo, ?_⟩
    intro files sources destination placed order ready permutation empty
    have same (row : Row) : AnyHas order row ↔ AnyHas stores row := by
      rw [Tables.anyHas_perm permutation, Tables.anyHas_cons, middleHas, ← Tables.anyHas_append,
        Tables.anyHas_perm parts]
    exact ready.fills empty (consistent.mono fun row => (same row).mp) keyed
      fun row => (same row).trans (held row).symm
  · intro files sources destination placed order ready rows known
    have merges := ready.mergesTo
    rwa [Tables.uniteAll_eq_self fun row has => (rows row).mpr ((held row).mpr (known row has)),
      Tables.gainedOver_self] at merges

/-! ### Two builds that saw the same chunk -/

def sharedResult : StoredResult :=
  ⟨⟨2⟩, utf8 "rule", false, [], none⟩

def eastTables : Tables :=
  { Tables.empty with
    chunks := [⟨⟨1⟩, 10⟩, ⟨⟨2⟩, 20⟩]
    places := [⟨⟨2⟩, .file (utf8 "east")⟩]
    results := [sharedResult] }

def westTables : Tables :=
  { Tables.empty with
    chunks := [⟨⟨2⟩, 20⟩, ⟨⟨3⟩, 30⟩]
    places := [⟨⟨2⟩, .file (utf8 "west")⟩]
    results := [sharedResult] }

/-- The stores of both builds and one that has these rows. -/
def buildsTree (kept : Tables) : Files :=
  ⟨.directory [(earlyName, .database eastTables), (keptName, .database kept),
    (lateName, .database westTables)], []⟩

theorem consistent_builds : Consistent [eastTables, westTables] := by
  have chunks : ∀ left ∈ eastTables.chunks ++ westTables.chunks,
      ∀ right ∈ eastTables.chunks ++ westTables.chunks, left.id = right.id → left = right := by
    decide
  have results : ∀ left ∈ eastTables.results ++ westTables.results,
      ∀ right ∈ eastTables.results ++ westTables.results, left = right := by
    decide
  intro row other rowHeld otherHeld same
  simp only [Tables.anyHas_cons, Tables.anyHas_nil, or_false] at rowHeld otherHeld
  cases same with
  | chunk equal =>
      rw [chunks _ (List.mem_append.mpr rowHeld) _ (List.mem_append.mpr otherHeld) equal]
  | place equal => rw [Place.key_injective equal]
  | substitution => simp [Tables.Has, eastTables, westTables, Tables.empty] at rowHeld
  | result =>
      rw [results _ (List.mem_append.mpr rowHeld) _ (List.mem_append.mpr otherHeld)]

/-- Both stores can be merged into the third one, in any order and more than once. -/
theorem ready_buildsTree (kept : Tables) (current : kept.version = Tables.currentVersion)
    (sources : List Bytes) (given : sources ≠ [])
    (builds : ∀ path ∈ sources, path = earlyName ∨ path = lateName) :
    Ready (buildsTree kept) sources keptName ⟨some [keptName], kept, .everything⟩
      (sources.map fun path => if path = earlyName then eastTables else westTables) := by
  refine ⟨given, by decide, ⟨_, storeName_keptName.openTables_of_database rfl current, ?_⟩, rfl⟩
  apply readEach_of_standing
  intro path member
  rcases builds path member with rfl | rfl
  · exact storeName_earlyName.openSource rfl rfl
  · exact storeName_lateName.openSource rfl rfl

/-- Either order fills an empty store alike, and a second merge adds nothing. -/
theorem merge_confluent_builds :
    ∃ pool kept, kept.SameRows pool ∧
      (buildsTree .empty).Fills [earlyName, lateName] keptName (some [keptName]) pool ∧
      (buildsTree .empty).Fills [lateName, earlyName] keptName (some [keptName]) pool ∧
      (buildsTree kept).MergesTo [lateName, earlyName] keptName (some [keptName]) kept .none := by
  obtain ⟨pool, held, fills, -, again⟩ := merge_confluent consistent_builds
  let kept := Tables.uniteAll [westTables, eastTables] .empty
  have swapped : [westTables, eastTables].Perm [eastTables, westTables] := .swap ..
  have same : kept.SameRows pool := by
    intro row
    have turned := Tables.anyHas_perm swapped
    rw [held, ← turned]
    exact Tables.has_uniteAll_iff_anyHas (consistent_builds.mono fun row => (turned row).mp) rfl
  have forwards := ready_buildsTree .empty rfl [earlyName, lateName] (by decide) (by simp)
  have backwards (kept : Tables) (current : kept.version = Tables.currentVersion) :=
    ready_buildsTree kept current [lateName, earlyName] (by decide) (by simp)
  refine ⟨pool, kept, same, fills forwards (.refl _) rfl, fills (backwards .empty rfl) swapped rfl,
    again (backwards kept rfl) same fun row => (Tables.anyHas_perm swapped row).mp⟩

end Files

end Reroute
