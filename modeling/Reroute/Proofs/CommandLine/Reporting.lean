import Mathlib
import Reroute.CommandLine.Report
import Reroute.Proofs.Files.Completeness
import Reroute.Proofs.Pipeline.Completeness
import Reroute.Proofs.Pipeline.Scheduling
import Reroute.Proofs.Store.Histories
import Reroute.Proofs.Store.Opening

/-!
# Reports lose nothing

A report goes through the chunks of a store and picks the replaced occurrences of each.  An
occurrence of a chunk that the store does not list would be left out.  Stores that come about
by processing chunks and by merging are complete, so that their reports list every replaced
occurrence once and in the order of the store.
-/

namespace Reroute

/-! ### What a complete store answers -/

theorem sorted_sortChunks (records : List ChunkRecord) :
    (sortChunks records).Pairwise fun left right =>
      left.id.value.toNat ≤ right.id.value.toNat :=
  sorted_sortByRank (fun record : ChunkRecord => record.id.value.toNat) records

theorem map_id_sortChunks_perm (records : List ChunkRecord) :
    ((sortChunks records).map ChunkRecord.id).Perm (records.map ChunkRecord.id) :=
  (List.mergeSort_perm _ _).map ChunkRecord.id

theorem Substitution.InOrder.chunk_le {left right : Substitution} (before : left.InOrder right) :
    left.chunk.value.toNat ≤ right.chunk.value.toNat := by
  rcases before with less | ⟨same, -⟩
  · exact ((Digest.hex_lt_hex_iff _ _).mp less).le
  · rw [same]

/-- The lists that a report is made of: every chunk and every replaced occurrence of a store,
by chunk. -/
structure Store.Lists (store : Store) (records : List ChunkRecord)
    (substitutions : List Substitution) : Prop where
  ids : (records.map ChunkRecord.id).Perm store.backend.chunkIds
  ascending : records.Pairwise fun left right => left.id.value.toNat ≤ right.id.value.toNat
  all : substitutions.Perm store.backend.substitutions
  sorted : substitutions.Pairwise Substitution.InOrder

theorem Backend.Whole.exists_lists {store : Store} (whole : store.backend.Whole) :
    ∃ records substitutions, store.chunkRecords = .ok records ∧
      store.allSubstitutions = .ok substitutions ∧ store.Lists records substitutions := by
  obtain ⟨backend, fault⟩ := store
  cases backend with
  | memory records =>
      refine ⟨records.chunkRecords, records.allSubstitutions, rfl, rfl, ?_, ?_, ?_, ?_⟩
      · refine (map_id_sortChunks_perm _).trans ?_
        rw [List.map_map]
        rfl
      · exact sorted_sortChunks _
      · exact List.mergeSort_perm _ _
      · rw [MemoryStore.allSubstitutions, MemoryStore.notAfter_eq_rank]
        refine (sorted_sortByRank MemoryStore.rank records.substitutions).imp ?_
        exact fun before => (Substitution.inOrder_iff _ _).mpr before
  | file tables access =>
      have asked : access ≠ .nothing := by
        rintro rfl
        exact whole.readable tables rfl
      refine ⟨tables.chunkRecords, tables.allSubstitutions, ?_, ?_, ?_, ?_, ?_, ?_⟩
      · cases access with
        | nothing => exact absurd rfl asked
        | everything => rfl
        | reading => rfl
      · cases access with
        | nothing => exact absurd rfl asked
        | everything => rfl
        | reading => rfl
      · rw [Tables.chunkRecords_eq whole.complete.distinct]
        refine (map_id_sortChunks_perm _).trans ?_
        rw [List.map_map]
        rfl
      · rw [Tables.chunkRecords_eq whole.complete.distinct]
        exact sorted_sortChunks _
      · exact List.mergeSort_perm _ _
      · have sorted := List.pairwise_mergeSort Substitution.notAfterWithRule_trans
          Substitution.notAfterWithRule_total tables.substitutions
        exact sorted.imp fun before => Substitution.inOrder_of_notAfterWithRule _ _ before

/-! ### Bringing chunks and occurrences together -/

/-- In the order of their chunks, the occurrences of the first chunk come first. -/
theorem filter_append_filter_of_first {substitutions : List Substitution} {id : ChunkId}
    (sorted : substitutions.Pairwise Substitution.InOrder)
    (first : ∀ record ∈ substitutions, id.value.toNat ≤ record.chunk.value.toNat) :
    (substitutions.filter fun record => record.chunk == id) ++
      (substitutions.filter fun record => record.chunk != id) = substitutions := by
  induction substitutions with
  | nil => rfl
  | cons head rest induction =>
      by_cases here : head.chunk = id
      · rw [List.filter_cons_of_pos (by simpa using here),
          List.filter_cons_of_neg (by simpa using here), List.cons_append,
          induction sorted.of_cons fun record member => first record (by simp [member])]
      · -- All occurrences behind one of another chunk are of other chunks too.
        have beyond : ∀ record ∈ head :: rest, record.chunk ≠ id := by
          have headBeyond : id.value.toNat < head.chunk.value.toNat := by
            apply lt_of_le_of_ne (first head List.mem_cons_self)
            exact fun equal => here (Digest.toNat_inj.mp equal).symm
          intro record member same
          rcases List.mem_cons.mp member with rfl | later
          · exact here same
          · have before := (List.rel_of_pairwise_cons sorted later).chunk_le
            rw [same] at before
            omega
        have none : ((head :: rest).filter fun record => record.chunk == id) = [] := by
          rw [List.filter_eq_nil_iff]
          exact fun record member => by simpa using beyond record member
        have all : ((head :: rest).filter fun record => record.chunk != id) = head :: rest := by
          rw [List.filter_eq_self]
          exact fun record member => by simpa using beyond record member
        rw [none, all, List.nil_append]

/-- Occurrences in the order of their chunks are the occurrences of one chunk after the
other. -/
theorem flatMap_filter_of_sorted {ids : List ChunkId} {substitutions : List Substitution}
    (ascending : ids.Pairwise fun left right => left.value.toNat < right.value.toNat)
    (sorted : substitutions.Pairwise Substitution.InOrder)
    (owned : ∀ record ∈ substitutions, record.chunk ∈ ids) :
    (ids.flatMap fun id => substitutions.filter fun record => record.chunk == id) =
      substitutions := by
  induction ids generalizing substitutions with
  | nil =>
      cases substitutions with
      | nil => rfl
      | cons record rest => cases owned record List.mem_cons_self
  | cons id ids induction =>
      have later {other : ChunkId} (member : other ∈ ids) :
          id.value.toNat < other.value.toNat :=
        List.rel_of_pairwise_cons ascending member
      have first : ∀ record ∈ substitutions, id.value.toNat ≤ record.chunk.value.toNat := by
        intro record member
        rcases List.mem_cons.mp (owned record member) with same | other
        · rw [same]
        · exact (later other).le
      have others := induction ascending.of_cons
        (sorted.filter fun record => record.chunk != id) (by
          intro record member
          obtain ⟨listed, away⟩ := List.mem_filter.mp member
          rcases List.mem_cons.mp (owned record listed) with same | other
          · simp [same] at away
          · exact other)
      have same : ∀ other ∈ ids,
          ((substitutions.filter fun record => record.chunk != id).filter fun record =>
            record.chunk == other) =
          substitutions.filter fun record => record.chunk == other := by
        intro other member
        rw [List.filter_filter]
        apply List.filter_congr
        intro record _
        have different : other ≠ id := by
          rintro rfl
          exact lt_irrefl _ (later member)
        by_cases here : record.chunk = other
        · simp [here, different]
        · simp [here]
      rw [List.flatMap_cons, ← List.flatMap_congr same, others]
      exact filter_append_filter_of_first sorted first

namespace CommandLine

/-- The report accounts for all chunks and all replaced occurrences: these are in it in their
order, each with its own chunk and with no other, and every chunk is reported or counted. -/
structure Report.Accounts (report : Report) (records : List ChunkRecord)
    (substitutions : List Substitution) : Prop where
  listed : report.chunks.flatMap ReportedChunk.substitutions = substitutions
  once : ∀ record ∈ substitutions,
    ∃! chunk, chunk ∈ report.chunks ∧ record ∈ chunk.substitutions
  distinct : (report.chunks.map ReportedChunk.record).Nodup
  own : ∀ chunk ∈ report.chunks, chunk.record ∈ records ∧ chunk.substitutions ≠ [] ∧
    chunk.substitutions = substitutions.filter fun record => record.chunk == chunk.record.id
  counted : report.chunks.length + report.unchanged = records.length

namespace Report

/-- Nothing is lost by leaving out chunks without replaced occurrences. -/
theorem flatMap_filter_nonempty (chunks : List ReportedChunk) :
    (chunks.filter fun chunk => !chunk.substitutions.isEmpty).flatMap
      ReportedChunk.substitutions = chunks.flatMap ReportedChunk.substitutions := by
  induction chunks with
  | nil => rfl
  | cons chunk chunks induction =>
      rw [List.flatMap_cons, ← induction]
      by_cases empty : chunk.substitutions = []
      · rw [List.filter_cons_of_neg (by simp [empty]), empty, List.nil_append]
      · rw [List.filter_cons_of_pos (by simpa using empty), List.flatMap_cons]

theorem flatMap_chunks_ofRecords (records : List ChunkRecord)
    (substitutions : List Substitution) :
    (ofRecords records substitutions).chunks.flatMap ReportedChunk.substitutions =
      (records.map ChunkRecord.id).flatMap fun id =>
        substitutions.filter fun record => record.chunk == id := by
  refine (flatMap_filter_nonempty _).trans ?_
  rw [List.flatMap_map, List.flatMap_map]
  rfl

theorem mem_chunks_ofRecords {records : List ChunkRecord} {substitutions : List Substitution}
    {chunk : ReportedChunk} :
    chunk ∈ (ofRecords records substitutions).chunks ↔
      chunk.record ∈ records ∧ chunk.substitutions ≠ [] ∧
        chunk.substitutions =
          substitutions.filter fun record => record.chunk == chunk.record.id := by
  obtain ⟨own, picked⟩ := chunk
  simp only [ofRecords, reportedChunk, List.mem_filter, List.mem_map, ReportedChunk.mk.injEq,
    Bool.not_eq_true', List.isEmpty_eq_false_iff]
  constructor
  · rintro ⟨⟨record, member, rfl, rfl⟩, nonempty⟩
    exact ⟨member, nonempty, rfl⟩
  · rintro ⟨member, nonempty, rfl⟩
    exact ⟨⟨own, member, rfl, rfl⟩, nonempty⟩

theorem length_ofRecords (records : List ChunkRecord) (substitutions : List Substitution) :
    (ofRecords records substitutions).chunks.length +
      (ofRecords records substitutions).unchanged = records.length := by
  have parted := List.length_eq_countP_add_countP
    (l := records.map (reportedChunk substitutions)) fun chunk => !chunk.substitutions.isEmpty
  rw [List.length_map] at parted
  rw [parted, List.countP_eq_length_filter]
  simp only [Bool.not_eq_true', Bool.not_eq_false, Bool.decide_eq_true]
  rfl

theorem accounts_ofRecords {records : List ChunkRecord} {substitutions : List Substitution}
    (distinct : (records.map ChunkRecord.id).Nodup)
    (ascending : records.Pairwise fun left right =>
      left.id.value.toNat ≤ right.id.value.toNat)
    (sorted : substitutions.Pairwise Substitution.InOrder)
    (owned : ∀ record ∈ substitutions, record.chunk ∈ records.map ChunkRecord.id) :
    (ofRecords records substitutions).Accounts records substitutions where
  listed := by
    rw [flatMap_chunks_ofRecords]
    apply flatMap_filter_of_sorted _ sorted owned
    rw [List.pairwise_map]
    refine (ascending.and (List.pairwise_map.mp distinct)).imp ?_
    rintro left right ⟨before, different⟩
    apply lt_of_le_of_ne before
    exact fun equal => different (Digest.toNat_inj.mp equal)
  once := by
    intro record member
    obtain ⟨own, listed, same⟩ := List.mem_map.mp (owned record member)
    have picked : record ∈ (reportedChunk substitutions own).substitutions :=
      List.mem_filter.mpr ⟨member, by simp [same]⟩
    refine ⟨reportedChunk substitutions own, ⟨?_, picked⟩, ?_⟩
    · exact mem_chunks_ofRecords.mpr ⟨listed, List.ne_nil_of_mem picked, rfl⟩
    · rintro ⟨other, others⟩ ⟨reported, inside⟩
      obtain ⟨otherListed, -, others⟩ := mem_chunks_ofRecords.mp reported
      dsimp only at otherListed others inside
      subst others
      have otherOwns : record.chunk = other.id := by
        simpa using (List.mem_filter.mp inside).2
      obtain rfl := List.inj_on_of_nodup_map distinct otherListed listed
        (otherOwns.symm.trans same.symm)
      rfl
  distinct := by
    apply List.Nodup.of_map ChunkRecord.id
    have part := (List.filter_sublist (l := records.map (reportedChunk substitutions))
      (p := fun chunk => !chunk.substitutions.isEmpty)).map ReportedChunk.record
    rw [List.map_map] at part
    have same : ReportedChunk.record ∘ reportedChunk substitutions = id := rfl
    rw [same, List.map_id] at part
    exact (part.map ChunkRecord.id).nodup distinct
  own := fun chunk member => mem_chunks_ofRecords.mp member
  counted := length_ofRecords records substitutions

end Report

theorem accounts_gather {store : Store} (whole : store.backend.Whole) :
    ∃ records substitutions report, store.chunkRecords = .ok records ∧
      store.allSubstitutions = .ok substitutions ∧ store.Lists records substitutions ∧
      ReportCall.gather store = .ok report ∧ report.Accounts records substitutions := by
  obtain ⟨records, substitutions, recordsListed, substitutionsListed, lists⟩ :=
    whole.exists_lists
  refine ⟨records, substitutions, .ofRecords records substitutions, recordsListed,
    substitutionsListed, lists, ?_, ?_⟩
  · rw [ReportCall.gather, recordsListed, substitutionsListed]
  · apply Report.accounts_ofRecords
    · exact lists.ids.nodup_iff.mpr whole.complete.distinct
    · exact lists.ascending
    · exact lists.sorted
    · intro record member
      rw [lists.ids.mem_iff]
      exact whole.complete.owned record (lists.all.mem_iff.mp member)

end CommandLine

namespace Files

/-- All store files of the tree come about by processing chunks and by merging.  They may have
been brought together from other such trees, and there may be any other files. -/
inductive Recorded : Files → Prop where
  | gather {files : Files} (origin : List Bytes → Files)
      (recorded : ∀ names tables, files.top.descend names = some (.database tables) →
        Recorded (origin names))
      (copied : ∀ names tables, files.top.descend names = some (.database tables) →
        ∃ place, (origin names).top.descend place = some (.database tables)) :
      Recorded files
  | process {files opened : Files} {address : Bytes} {placed : PlacedStore} {store : Store}
      (earlier : Recorded files) (answered : files.openStore address = (.ok placed, opened))
      (processed : placed.store.Processed store) :
      Recorded (opened.keepStore { placed with store := store })
  | merge {files : Files} (earlier : Recorded files) (sources : List MergeSource)
      (destination : Bytes) : Recorded (files.mergeSources sources destination).2

theorem Recorded.complete {files : Files} (recorded : files.Recorded) : files.Complete := by
  induction recorded with
  | gather origin recorded copied induction =>
      intro names tables found
      obtain ⟨place, there⟩ := copied names tables found
      exact induction names tables found place tables there
  | process earlier answered processed induction =>
      obtain ⟨kept, whole⟩ := induction.openStore answered
      exact kept.keepStore (processed.whole whole)
  | merge earlier sources destination induction => exact induction.mergeSources sources destination

end Files

namespace CommandLine

/-- Take a store in a tree whose store files come about by processing and merging, and process
any chunks with it.  Its replaced occurrences are of chunks that it lists, and its changed
outcomes of chunks with a replaced occurrence.  There is a report of it, and that accounts for
all its chunks and replaced occurrences. -/
theorem report_loses_nothing {files opened : Files} {address : Bytes} {placed : PlacedStore}
    {store : Store} (recorded : files.Recorded)
    (answered : files.openStore address = (.ok placed, opened))
    (processed : placed.store.Processed store) :
    (∀ record ∈ store.backend.substitutions, record.chunk ∈ store.backend.chunkIds) ∧
    (∀ result ∈ store.backend.results, result.changed = true →
      result.chunk ∈ store.backend.chunkIds ∧
        ∃ record ∈ store.backend.substitutions, record.chunk = result.chunk) ∧
    ∃ records substitutions report, store.chunkRecords = .ok records ∧
      store.allSubstitutions = .ok substitutions ∧ store.Lists records substitutions ∧
      ReportCall.gather store = .ok report ∧ report.Accounts records substitutions := by
  have whole := processed.whole (recorded.complete.openStore answered).2
  refine ⟨whole.complete.owned, ?_, accounts_gather whole⟩
  intro result member changed
  obtain ⟨record, known, same⟩ := whole.complete.replaced result member changed
  refine ⟨?_, record, known, same⟩
  rw [← same]
  exact whole.complete.owned record known

/-! ### A report on merged stores -/

def firstName : Bytes :=
  utf8 "a.db"

def secondName : Bytes :=
  utf8 "b.db"

theorem storeName_firstName : StoreName firstName :=
  ⟨⟨by decide, by decide, by decide, by decide⟩, by decide, by decide, by cbv, by decide⟩

theorem storeName_secondName : StoreName secondName :=
  ⟨⟨by decide, by decide, by decide, by decide⟩, by decide, by decide, by cbv, by decide⟩

def importChunk : Chunk :=
  ⟨utf8 "a.js", utf8 "import(x)", [], none⟩

/-- A store file after two calls for a chunk.  The first one fails when it records the
outcome. -/
def retriedStore : Store :=
  let failed := Pipeline.plainPipeline.processUnless false importChunk
    ⟨.file .empty .everything, some ⟨.putResult, 0⟩⟩
  (Pipeline.plainPipeline.processUnless false importChunk { failed.2 with fault := none }).2

theorem processed_retriedStore :
    (Store.onFile .empty .everything).Processed retriedStore :=
  .process (.process .start (some ⟨.putResult, 0⟩) false rfl importChunk) none false rfl
    importChunk

theorem exists_tables_retriedStore :
    ∃ tables record, retriedStore = .onFile tables .everything ∧
      tables.version = Tables.currentVersion ∧ tables.substitutions = [record] := by
  have kept : retriedStore = .onFile (retriedStore.tables?.getD .empty) .everything ∧
      (retriedStore.tables?.getD .empty).version = Tables.currentVersion ∧
      (retriedStore.tables?.getD .empty).substitutions.length = 1 := by
    decide +kernel
  obtain ⟨record, single⟩ := List.length_eq_one_iff.mp kept.2.2
  exact ⟨_, record, kept.1, kept.2.1, single⟩

/-- A tree with the store file of the two calls. -/
def retriedTree : Files :=
  (⟨.directory [(firstName, .database .empty)], []⟩ : Files).keepStore
    ⟨some [firstName], retriedStore⟩

theorem openStore_firstName :
    (Files.emptyAt []).openStore firstName =
      (.ok ⟨some [firstName], .onFile .empty .everything⟩,
        ⟨.directory [(firstName, .database .empty)], []⟩) :=
  storeName_firstName.openStore (storeName_firstName.openTables_of_missing rfl)

theorem recorded_retriedTree : retriedTree.Recorded := by
  have empty : (Files.emptyAt []).Recorded := by
    apply Files.Recorded.gather (fun _ => .emptyAt [])
    · intro names tables found
      exact absurd found (Entry.descend_empty rfl)
    · intro names tables found
      exact absurd found (Entry.descend_empty rfl)
  exact empty.process openStore_firstName processed_retriedStore

/-- The store file is merged into a new one.  The report on that has the only occurrence. -/
theorem report_loses_nothing_merged :
    ∃ placed opened report,
      (retriedTree.merge [firstName] secondName).2.openStore secondName = (.ok placed, opened) ∧
      ReportCall.gather placed.store = .ok report ∧ report.total = 1 := by
  obtain ⟨tables, record, kept, current, single⟩ := exists_tables_retriedStore
  let entries : List (Bytes × Entry) :=
    [(firstName, .database tables), (secondName, .database .empty)]
  let merged : List (Bytes × Entry) :=
    [(firstName, .database tables), (secondName, .database (Tables.unite tables .empty))]
  have tree : retriedTree = ⟨.directory [(firstName, .database tables)], []⟩ := by
    rw [retriedTree, kept]
    rfl
  have made : (⟨.directory [(firstName, .database tables)], []⟩ : Files).openTables secondName =
      (.ok ⟨some [secondName], .empty, .everything⟩, ⟨.directory entries, []⟩) :=
    storeName_secondName.openTables_of_missing rfl
  have source : (⟨.directory entries, []⟩ : Files).openSource firstName =
      (.ok tables, ⟨.directory entries, []⟩) := by
    have found : (Entry.directory entries).member? firstName = some (.database tables) := rfl
    rw [Files.openSource, storeName_firstName.stat found]
    dsimp only
    rw [storeName_firstName.openTables_of_database found current]
  have after : (retriedTree.merge [firstName] secondName).2 = ⟨.directory merged, []⟩ := by
    rw [tree, Files.merge, Files.mergeSources, if_neg (by decide), if_neg (by decide), made]
    dsimp only
    rw [List.map_cons, Files.mergeEach, MergeSource.sound, source]
    dsimp only
    rw [Files.takeIn_of_everything rfl]
    rfl
  have reopened : (⟨.directory merged, []⟩ : Files).openStore secondName =
      (.ok ⟨some [secondName], .onFile (Tables.unite tables .empty) .everything⟩,
        ⟨.directory merged, []⟩) :=
    storeName_secondName.openStore (storeName_secondName.openTables_of_database rfl rfl)
  rw [← after] at reopened
  obtain ⟨-, -, records, substitutions, report, -, -, lists, gathered, accounts⟩ :=
    report_loses_nothing (recorded_retriedTree.merge [.sound firstName] secondName) reopened .start
  refine ⟨_, _, report, reopened, gathered, ?_⟩
  rw [Report.total, accounts.listed, lists.all.length_eq]
  change (Tables.copyRows Substitution.sameKey tables.substitutions []).length = 1
  rw [single]
  rfl

end CommandLine

end Reroute
