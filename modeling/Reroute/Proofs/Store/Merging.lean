import Mathlib
import Reroute.Proofs.Files.Holding
import Reroute.Proofs.Store.Opening
import Reroute.Proofs.Store.Union

/-!
# What a merge makes of its destination

A merge opens its sources one after the other and copies their rows into the open destination,
which is put back after each of them.  It is compared with opening the same sources without
merging anything: the two trees are alike but for the rows of the destination, so the sources
have the same rows in both, and the one that cannot be opened is the same.
-/

namespace Reroute

namespace Files

/-- The stores of sources, opened one after the other, up to the first that cannot be opened or
that breaks. -/
def readEach : List MergeSource → Files → List Tables × Option SourceFailure
  | [], _ => ([], none)
  | source :: sources, files =>
      match files.openSource source.path, source.fault with
      | (.error error, _), _ => ([], some ⟨source.path, error⟩)
      | (.ok _, _), some fault => ([], some ⟨source.path, fault.error⟩)
      | (.ok store, files), none =>
          (store :: (readEach sources files).1, (readEach sources files).2)

section

variable {files opened : Files} {source : MergeSource} {store : Tables}

theorem readEach_cons_of_error {error : SourceError}
    (opens : files.openSource source.path = (.error error, opened)) (sources : List MergeSource) :
    files.readEach (source :: sources) = ([], some ⟨source.path, error⟩) := by
  rw [readEach, opens]

theorem readEach_cons_of_fault {fault : MergeFault}
    (opens : files.openSource source.path = (.ok store, opened))
    (breaks : source.fault = some fault) (sources : List MergeSource) :
    files.readEach (source :: sources) = ([], some ⟨source.path, fault.error⟩) := by
  rw [readEach, opens, breaks]

theorem readEach_cons (opens : files.openSource source.path = (.ok store, opened))
    (sound : source.fault = none) (sources : List MergeSource) :
    files.readEach (source :: sources) =
      (store :: (opened.readEach sources).1, (opened.readEach sources).2) := by
  rw [readEach, opens, sound]

/-- The first source ends the reading, or it is read and the others follow. -/
theorem readEach_cons_cases (files : Files) (source : MergeSource) :
    (∃ error, ∀ others, files.readEach (source :: others) = ([], some ⟨source.path, error⟩)) ∨
      ∃ store opened, files.openSource source.path = (.ok store, opened) ∧ source.fault = none := by
  rcases opens : files.openSource source.path with ⟨error | store, opened⟩
  · exact .inl ⟨error, readEach_cons_of_error opens⟩
  · cases breaks : source.fault with
    | some fault => exact .inl ⟨fault.error, readEach_cons_of_fault opens breaks⟩
    | none => exact .inr ⟨store, opened, rfl, rfl⟩

end

/-- The sources in front of the first that cannot be read are read alone as with it. -/
theorem readEach_take (sources : List MergeSource) (files : Files) :
    files.readEach (sources.take (files.readEach sources).1.length) =
      ((files.readEach sources).1, none) := by
  induction sources generalizing files with
  | nil => rfl
  | cons source sources induction =>
      rcases files.readEach_cons_cases source with
        ⟨error, ends⟩ | ⟨store, opened, opens, sound⟩
      · rw [ends]
        rfl
      · rw [readEach_cons opens sound, List.length_cons, List.take_succ_cons,
          readEach_cons opens sound, induction opened]

theorem length_readEach {sources : List MergeSource} {files : Files}
    (complete : (files.readEach sources).2 = none) :
    (files.readEach sources).1.length = sources.length := by
  induction sources generalizing files with
  | nil => rfl
  | cons source sources induction =>
      rcases files.readEach_cons_cases source with
        ⟨error, ends⟩ | ⟨store, opened, opens, sound⟩
      · rw [ends] at complete
        cases complete
      · rw [readEach_cons opens sound] at complete ⊢
        rw [List.length_cons, List.length_cons, induction complete]

/-- The failure is that of the source behind the stores. -/
theorem getElem?_readEach {sources : List MergeSource} {files : Files} {broken : SourceFailure}
    (failed : (files.readEach sources).2 = some broken) :
    (sources.map MergeSource.path)[(files.readEach sources).1.length]? = some broken.path := by
  induction sources generalizing files with
  | nil => cases failed
  | cons source sources induction =>
      rcases files.readEach_cons_cases source with
        ⟨error, ends⟩ | ⟨store, opened, opens, sound⟩
      · rw [ends] at failed ⊢
        cases failed
        rfl
      · rw [readEach_cons opens sound] at failed ⊢
        rw [List.length_cons, List.map_cons, List.getElem?_cons_succ]
        exact induction failed

/-- A merge that is on its way, and the tree in which the same sources were opened without
merging anything. -/
structure Beside (target : Tables) (placed : PlacedTables) (merging reading : Files) : Prop where
  alike : AlikeBut placed.names merging reading
  held : merging.Holds placed.names placed.tables
  kept : reading.Holds placed.names target
  version : placed.tables.version = target.version
  grown : target.Leads placed.tables
  guarded : placed.access = .everything ∨ placed.tables = target

namespace Beside

variable {target : Tables} {placed : PlacedTables} {merging reading : Files}

/-- A source has the same rows in both trees, or is the destination. -/
theorem openSource (beside : Beside target placed merging reading) (path : Bytes) :
    Likewise (fun own found => own = found ∨ own = placed.tables ∧ found = target)
        (merging.openSource path).1 (reading.openSource path).1 ∧
      Beside target placed (merging.openSource path).2 (reading.openSource path).2 := by
  rw [Files.openSource, Files.openSource]
  rcases (beside.alike.stat path).cases with ⟨error, own, other⟩ | ⟨_, _, own, other, -⟩
  · rw [own, other]
    exact ⟨.error _, beside⟩
  · rw [own, other]
    dsimp only
    have both := beside.alike.openTables path
    have held := beside.held.openTables path
    have kept := beside.kept.openTables path
    rcases opens : merging.openTables path with ⟨answer, merged⟩
    rcases reads : reading.openTables path with ⟨answerRead, read⟩
    rw [opens, reads] at both
    rw [opens] at held
    rw [reads] at kept
    have after : Beside target placed merged read :=
      { beside with alike := both.alike, held := held, kept := kept }
    rcases both.answers.cases with ⟨error, rfl, rfl⟩ | ⟨store, found, rfl, rfl, same⟩
    · exact ⟨.error _, after⟩
    · refine ⟨.ok ?_, after⟩
      rcases same.tables with equal | ⟨names, lies, isPlace⟩
      · exact .inl equal
      · -- The source is the destination: one tree has its rows by now, the other those at first.
        right
        constructor
        · exact (held.unique isPlace (holds_openTables opens names lies)).symm
        · have lay : found.names = some names := same.names.symm.trans lies
          exact (kept.unique isPlace (holds_openTables reads names lay)).symm

/-- The destination takes in the same rows from its own tree as from the other one. -/
theorem takeIn_eq (beside : Beside target placed merging reading) {own found : Tables}
    (same : own = found ∨ own = placed.tables ∧ found = target) (fault : Option MergeFault) :
    takeIn placed own fault = takeIn placed found fault := by
  rcases same with rfl | ⟨rfl, rfl⟩
  · rfl
  · rcases beside.guarded with writable | unchanged
    · rw [takeIn_of_everything writable, takeIn_of_everything writable, PlacedTables.taking,
        PlacedTables.taking, (Tables.Leads.refl _).unite_eq, beside.grown.unite_eq]
    · rw [unchanged]

/-- A source that was rolled back leaves what was there. -/
theorem keep (beside : Beside target placed merging reading) :
    Beside target placed (merging.keepTables placed) reading :=
  { beside with
    alike := beside.alike.keepTables beside.kept beside.version
    held := beside.held.keepTables }

theorem take (beside : Beside target placed merging reading) {store : Tables}
    (admitted : Tables.admits placed.access store = true) :
    Beside target (placed.taking store) (merging.keepTables (placed.taking store)) reading := by
  have alike : AlikeBut (placed.taking store).names merging reading := beside.alike
  have held : merging.Holds (placed.taking store).names placed.tables := beside.held
  constructor
  · exact alike.keepTables beside.kept beside.version
  · exact held.keepTables
  · exact beside.kept
  · exact beside.version
  · exact beside.grown.trans (Tables.Leads.unite store placed.tables)
  · rcases beside.guarded with writable | unchanged
    · exact .inl writable
    · rcases Bool.or_eq_true_iff.mp admitted with writable | rowless
      · exact .inl (beq_iff_eq.mp writable)
      · right
        have empty : store.firstWithRows? = none := Option.isNone_iff_eq_none.mp rowless
        rw [PlacedTables.taking, Tables.unite_of_firstWithRows? empty]
        exact unchanged

end Beside

/-- What a merge of stores makes of open tables: it ends at the first store that these do not
admit, or at the failure behind the last one. -/
structure Merges (origin : Tables) (placed : PlacedTables) (report : MergeReport)
    (stores : List Tables) (failure : Option SourceFailure) (result : MergeReport × Files) :
    Prop where
  holds : result.2.Holds placed.names
    (Tables.uniteAll (stores.takeWhile (Tables.admits placed.access)) placed.tables)
  sources : result.1.sources =
    report.sources + (stores.takeWhile (Tables.admits placed.access)).length
  grew : Tables.Grew origin
    (Tables.uniteAll (stores.takeWhile (Tables.admits placed.access)) placed.tables)
    result.1.gained
  ended : result.1.failure = none ↔
    stores.takeWhile (Tables.admits placed.access) = stores ∧ failure = none
  writable : placed.access = .everything → result.1.failure = failure

namespace Merges

variable {origin : Tables} {placed : PlacedTables} {report : MergeReport} {stores : List Tables}
  {failure : Option SourceFailure}

/-- A store that is taken in is the first one. -/
theorem cons {store : Tables} {gained : Tables.Gained} {result : MergeReport × Files}
    (admitted : Tables.admits placed.access store = true)
    (rest : Merges origin (placed.taking store) (report.count gained) stores failure result) :
    Merges origin placed report (store :: stores) failure result := by
  have first : (store :: stores).takeWhile (Tables.admits placed.access) =
      store :: stores.takeWhile (Tables.admits placed.access) :=
    List.takeWhile_cons_of_pos admitted
  constructor
  · rw [first]
    exact rest.holds
  · rw [first, rest.sources]
    exact Nat.add_right_comm _ _ _
  · rw [first]
    exact rest.grew
  · rw [first, rest.ended, List.cons.injEq, eq_self, true_and]
    rfl
  · exact rest.writable

/-- A merge that stops has taken in nothing more. -/
theorem stopped {files : Files} {broken : SourceFailure}
    (holds : files.Holds placed.names placed.tables)
    (grew : Tables.Grew origin placed.tables report.gained)
    (none : stores.takeWhile (Tables.admits placed.access) = [])
    (left : stores ≠ [] ∨ failure ≠ .none)
    (writable : placed.access = .everything → failure = some broken) :
    Merges origin placed report stores failure
      ({ report with failure := some broken }, files) := by
  constructor
  · rw [none]
    exact holds
  · rw [none]
    rfl
  · rw [none]
    exact grew
  · rw [none]
    constructor
    · rintro ⟨⟩
    · rintro ⟨rfl, rfl⟩
      exact absurd left (by simp)
  · exact fun everything => (writable everything).symm

end Merges

theorem Beside.mergeEach {target origin : Tables} {placed : PlacedTables}
    {merging reading : Files} (beside : Beside target placed merging reading)
    (sources : List MergeSource) {report : MergeReport} (going : report.failure = none)
    (grew : Tables.Grew origin placed.tables report.gained) :
    Merges origin placed report (reading.readEach sources).1 (reading.readEach sources).2
      (mergeEach placed report sources merging) := by
  -- Both trees are taken through the same sources, and every source that is taken in keeps them
  -- beside each other.
  induction sources generalizing placed merging reading report with
  | nil =>
      rw [Files.mergeEach, readEach]
      exact ⟨beside.held, rfl, grew, by simp [going], fun _ => going⟩
  | cons source sources induction =>
      obtain ⟨answers, after⟩ := beside.openSource source.path
      rcases opens : merging.openSource source.path with ⟨answer, merged⟩
      rcases reads : reading.openSource source.path with ⟨found, read⟩
      rw [opens, reads] at answers after
      rw [Files.mergeEach, opens]
      rcases answers.cases with ⟨error, rfl, rfl⟩ | ⟨own, store, rfl, rfl, same⟩
      · rw [readEach_cons_of_error reads]
        exact .stopped after.held grew rfl (by simp) fun _ => rfl
      · dsimp only
        rw [after.takeIn_eq same]
        rcases takeIn_cases placed store source.fault with
          ⟨admitted, sound, taken⟩ | ⟨refused, error, failed⟩
        · rw [taken, readEach_cons reads sound]
          have further := grew.trans (.of_leads (Tables.Leads.unite store placed.tables))
          exact .cons admitted (induction (after.take admitted) rfl further)
        · -- Nothing of the source stays, whether it breaks or is refused.
          rw [failed]
          cases breaks : source.fault with
          | some fault =>
              rw [readEach_cons_of_fault reads breaks]
              refine .stopped after.keep.held grew rfl (by simp) ?_
              intro writable
              rw [breaks, takeIn_of_everything writable] at failed
              cases failed
              rfl
          | none =>
              have guarded := refused.resolve_right (not_not_intro breaks)
              rw [readEach_cons reads breaks]
              refine .stopped after.keep.held grew ?_ (by simp) ?_
              · exact List.takeWhile_cons_of_neg (Bool.eq_false_iff.mp guarded)
              · intro writable
                rw [Tables.admits, writable] at guarded
                cases guarded

theorem Beside.start {files opened : Files} {text : Bytes} {placed : PlacedTables}
    (opens : files.openTables text = (.ok placed, opened)) :
    Beside placed.tables placed opened opened :=
  ⟨⟨.refl _ _, rfl⟩, holds_openTables opens, holds_openTables opens, rfl, .refl _, .inr rfl⟩

theorem Beside.mergeStart {placed : PlacedTables} {opened : Files}
    (beside : Beside placed.tables placed opened opened) (sources : List MergeSource) :
    Merges placed.tables placed .start (opened.readEach sources).1 (opened.readEach sources).2
      (Files.mergeEach placed .start sources opened) :=
  beside.mergeEach sources rfl (.refl _)

theorem mergeSources_eq {files opened : Files} {sources : List MergeSource} {destination : Bytes}
    {placed : PlacedTables} (opens : files.openTables destination = (.ok placed, opened))
    (given : sources ≠ []) (named : destination ≠ []) :
    files.mergeSources sources destination =
      (.ok (mergeEach placed .start sources opened).1,
        (mergeEach placed .start sources opened).2) := by
  rw [mergeSources, if_neg (by simpa using given), if_neg (by simpa using named), opens]

/-- Open the sources one after the other with nothing merged.  A merge makes of the destination
its rows and, for every key that these lack, the row of the first source that has it, and counts
the rows that each table gained.  If there is a source that cannot be opened, or that breaks at
any row, the merge of the sources in front of it leaves the same destination and counts the same;
in front of the first source there is nothing to merge.  A destination that may be written fails
for no other reason. -/
theorem merge_first_wins {files opened : Files} {sources : List MergeSource}
    {destination : Bytes} {placed : PlacedTables} {stores : List Tables}
    {failure : Option SourceFailure}
    (opens : files.openTables destination = (.ok placed, opened))
    (given : sources ≠ []) (named : destination ≠ [])
    (reads : opened.readEach sources = (stores, failure)) :
    ∃ report after merged,
      files.mergeSources sources destination = (.ok report, after) ∧
      after.Holds placed.names merged ∧
      (report.failure = none →
        failure = none ∧ report.sources = sources.length ∧
        placed.tables.Merged stores merged report.gained) ∧
      (placed.access = .everything → report.failure = failure) ∧
      ∀ broken, failure = some broken →
        (sources.map MergeSource.path)[stores.length]? = some broken.path ∧
        report.failure ≠ none ∧
        (stores = [] → report.sources = 0 ∧ report.gained = .none ∧ merged = placed.tables) ∧
        (stores ≠ [] → ∃ part reached,
          files.mergeSources (sources.take stores.length) destination = (.ok part, reached) ∧
          reached.Holds placed.names merged ∧
          part.sources = report.sources ∧ part.gained = report.gained) := by
  have run := (Beside.start opens).mergeStart sources
  obtain ⟨rfl, rfl⟩ := Prod.mk.inj reads
  refine ⟨_, _, _, mergeSources_eq opens given named, run.holds, ?_, run.writable, ?_⟩
  · intro succeeded
    obtain ⟨all, complete⟩ := run.ended.mp succeeded
    refine ⟨complete, ?_, ?_⟩
    · rw [run.sources, all, length_readEach complete]
      exact Nat.zero_add _
    · have grew := run.grew
      rw [all] at grew ⊢
      rw [grew.eq_gainedOver]
      exact Tables.merged_uniteAll _ _
  · intro broken failed
    refine ⟨getElem?_readEach failed, ?_, ?_, ?_⟩
    · intro succeeded
      rw [(run.ended.mp succeeded).2] at failed
      cases failed
    · intro none
      have grew := run.grew
      have counted := run.sources
      rw [none] at grew counted ⊢
      refine ⟨counted, ?_, rfl⟩
      exact grew.eq_gainedOver.trans (Tables.gainedOver_self placed.tables)
    · intro some
      have short := (Beside.start opens).mergeStart
        (sources.take (opened.readEach sources).1.length)
      rw [readEach_take] at short
      have front : sources.take (opened.readEach sources).1.length ≠ [] := by
        simpa [given] using some
      refine ⟨_, _, mergeSources_eq opens front named, short.holds, ?_, ?_⟩
      · rw [short.sources, run.sources]
      · rw [short.grew.eq_gainedOver, run.grew.eq_gainedOver]

/-! ### Two sources that overlap, and one that breaks -/

def keptName : Bytes :=
  utf8 "kept"

def earlyName : Bytes :=
  utf8 "early"

def lateName : Bytes :=
  utf8 "late"

def lostName : Bytes :=
  utf8 "lost"

theorem storeName_keptName : StoreName keptName :=
  ⟨⟨by decide, by decide, by decide, by decide⟩, by decide, by decide, by cbv, by decide⟩

theorem storeName_earlyName : StoreName earlyName :=
  ⟨⟨by decide, by decide, by decide, by decide⟩, by decide, by decide, by cbv, by decide⟩

theorem storeName_lateName : StoreName lateName :=
  ⟨⟨by decide, by decide, by decide, by decide⟩, by decide, by decide, by cbv, by decide⟩

theorem storeName_lostName : StoreName lostName :=
  ⟨⟨by decide, by decide, by decide, by decide⟩, by decide, by decide, by cbv, by decide⟩

def keptTables : Tables :=
  { Tables.empty with chunks := [⟨⟨1⟩, 10⟩] }

def earlyTables : Tables :=
  { Tables.empty with chunks := [⟨⟨1⟩, 11⟩, ⟨⟨2⟩, 20⟩] }

def lateTables : Tables :=
  { Tables.empty with chunks := [⟨⟨2⟩, 21⟩, ⟨⟨3⟩, 30⟩] }

def lostTables : Tables :=
  { Tables.empty with chunks := [⟨⟨4⟩, 40⟩], places := [⟨⟨4⟩, .file (utf8 "a.js")⟩] }

def overlapTree : Files :=
  ⟨.directory [(earlyName, .database earlyTables), (keptName, .database keptTables),
    (lateName, .database lateTables), (lostName, .database lostTables)], []⟩

/-- The last source breaks when its chunks are copied and none of its places. -/
def overlapSources : List MergeSource :=
  [.sound earlyName, .sound lateName, ⟨lostName, some (.behind .places 0)⟩]

theorem openTables_keptName :
    overlapTree.openTables keptName =
      (.ok ⟨some [keptName], keptTables, .everything⟩, overlapTree) :=
  storeName_keptName.openTables_of_database rfl rfl

theorem readEach_overlapTree :
    overlapTree.readEach overlapSources =
      ([earlyTables, lateTables], some ⟨lostName, .rejected .places⟩) := by
  have first : overlapTree.openSource earlyName = (.ok earlyTables, overlapTree) :=
    storeName_earlyName.openSource rfl rfl
  have second : overlapTree.openSource lateName = (.ok lateTables, overlapTree) :=
    storeName_lateName.openSource rfl rfl
  have third : overlapTree.openSource lostName = (.ok lostTables, overlapTree) :=
    storeName_lostName.openSource rfl rfl
  rw [overlapSources, readEach_cons first rfl, readEach_cons second rfl,
    readEach_cons_of_fault third rfl]
  rfl

/-- The merge fails at the third source, behind the rows of the other two: the new chunk of both
has the size that the first of them gives it, and the chunk of the third is not kept. -/
theorem merge_first_wins_overlapping :
    ∃ report after merged,
      overlapTree.mergeSources overlapSources keptName = (.ok report, after) ∧
      after.Holds (some [keptName]) merged ∧
      report.failure = some ⟨lostName, .rejected .places⟩ ∧ report.sources = 2 ∧
      ⟨⟨2⟩, 20⟩ ∈ merged.chunks ∧ ⟨⟨2⟩, 21⟩ ∉ merged.chunks ∧ ⟨⟨4⟩, 40⟩ ∉ merged.chunks := by
  obtain ⟨report, after, merged, run, holds, -, writable, broken⟩ :=
    merge_first_wins openTables_keptName (by decide) (by decide) readEach_overlapTree
  obtain ⟨-, -, -, front⟩ := broken _ rfl
  obtain ⟨part, reached, shorter, held, sources, -⟩ := front nofun
  have two : overlapTree.readEach [.sound earlyName, .sound lateName] =
      ([earlyTables, lateTables], none) := by
    have taken := readEach_take overlapSources overlapTree
    rw [readEach_overlapTree] at taken
    exact taken
  obtain ⟨_, _, union, rerun, heldAgain, succeeded, complete, -⟩ :=
    merge_first_wins openTables_keptName (by decide) (by decide) two
  cases shorter.symm.trans rerun
  obtain ⟨-, counted, extended⟩ := succeeded (complete rfl)
  obtain rfl : merged = union := held.unique rfl (heldAgain [keptName] rfl)
  obtain ⟨fresh, rows, -, -, member⟩ := extended.chunks
  refine ⟨report, after, merged, run, holds, writable rfl, sources.symm.trans counted, ?_, ?_, ?_⟩
  · rw [rows]
    apply List.mem_append_right
    exact (member _).mpr (by decide)
  · rw [rows, List.mem_append]
    rintro (old | new)
    · exact absurd old (by decide)
    · exact absurd ((member _).mp new) (by decide)
  · rw [rows, List.mem_append]
    rintro (old | new)
    · exact absurd old (by decide)
    · exact absurd ((member _).mp new) (by decide)

end Files

end Reroute
