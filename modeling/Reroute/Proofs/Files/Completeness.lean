import Mathlib
import Reroute.Proofs.Files.Placing
import Reroute.Proofs.Store.Completeness
import Reroute.Store.Merge

/-!
# Trees of complete store files

A tree is complete if all its store files are.  Opening a store, putting it back and merging
stores write nothing into a tree but tables that were there before, empty ones, tables that were
put back, and united ones.  They keep a tree complete, however they end.
-/

namespace Reroute

namespace Entry

/-- A leaf of a tree in which an entry was put was there before, or is one of the entry. -/
theorem of_descend_putAt {names other : List Bytes} {new leaf : Entry}
    (isLeaf : leaf.isDirectory = false) {entry : Entry}
    (found : (entry.putAt new names).descend other = some leaf) :
    entry.descend other = some leaf ∨ ∃ rest, new.descend rest = some leaf := by
  induction names generalizing entry other with
  | nil => exact .inr ⟨other, found⟩
  | cons name names induction =>
      cases entry with
      | file => exact .inl found
      | database => exact .inl found
      | link => exact .inl found
      | directory entries =>
          rw [putAt] at found
          cases other with
          | nil =>
              cases found
              cases isLeaf
          | cons first rest =>
              rw [descend, member?_insertMember] at found
              rw [descend]
              by_cases here : name = first
              · subst here
                rw [if_pos rfl] at found
                cases inside : (directory entries).member? name with
                | some inner =>
                    rw [inside] at found
                    exact induction found
                | none =>
                    rw [inside] at found
                    rcases induction found with before | below
                    · exact absurd before (descend_empty isLeaf)
                    · exact .inr below
              · rw [if_neg here] at found
                exact .inl found

theorem descend_of_look {names : List Bytes} {entry found : Entry}
    (looked : entry.look names = .ok found) : entry.descend names = some found := by
  induction names generalizing entry with
  | nil =>
      cases looked
      rfl
  | cons name names induction =>
      rw [look] at looked
      split at looked
      · cases looked
      · split at looked
        · cases looked
        · split at looked
          · next inner member =>
              rw [descend, member]
              exact induction looked
          · cases looked

end Entry

theorem Address.access_ne_nothing (address : Address) : address.access ≠ .nothing := by
  unfold access
  split
  · exact nofun
  · exact nofun

namespace Files

/-- Every store file of the tree has complete tables. -/
def Complete (files : Files) : Prop :=
  ∀ names tables, files.top.descend names = some (.database tables) → tables.Complete

namespace Complete

variable {files : Files}

theorem put (complete : files.Complete) (names : List Bytes) {entry : Entry}
    (inside : ∀ rest tables, entry.descend rest = some (.database tables) → tables.Complete) :
    (files.put names entry).Complete := by
  intro other tables found
  rcases Entry.of_descend_putAt rfl found with before | ⟨rest, below⟩
  · exact complete other tables before
  · exact inside rest tables below

theorem putDatabase (complete : files.Complete) (names : List Bytes) {tables : Tables}
    (whole : tables.Complete) : (files.put names (.database tables)).Complete := by
  apply complete.put
  intro rest other found
  cases rest with
  | nil =>
      cases found
      exact whole
  | cons name rest => cases found

theorem putFile (complete : files.Complete) (names : List Bytes) (content : Bytes) :
    (files.put names (.file content)).Complete := by
  apply complete.put
  intro rest other found
  cases rest with
  | nil => cases found
  | cons name rest => cases found

theorem claim (complete : files.Complete) {address : Address} {names : List Bytes}
    {entry : Entry} {claimed : Files} (made : files.claim address names = some (entry, claimed)) :
    claimed.Complete ∧ ∀ tables, entry = .database tables → tables.Complete := by
  rcases claim_cases made with ⟨looked, -, rfl⟩ | ⟨-, -, -, -, rfl, rfl⟩
  · refine ⟨complete, ?_⟩
    rintro tables rfl
    exact complete names tables (Entry.descend_of_look looked)
  · exact ⟨complete.putFile names [], nofun⟩

end Complete

/-- Open tables are complete and can be read. -/
structure PlacedWhole (placed : PlacedTables) : Prop where
  complete : placed.tables.Complete
  readable : placed.access ≠ .nothing

namespace Complete

variable {files opened : Files}

theorem openFile (complete : files.Complete) {address : Address} {path : Bytes}
    {answer : Except StoreError PlacedTables}
    (answered : files.openFile address path = (answer, opened)) :
    opened.Complete ∧ ∀ placed, answer = .ok placed → PlacedWhole placed := by
  rw [openFile_eq] at answered
  split at answered
  · cases answered
    exact ⟨complete, nofun⟩
  · next names reached =>
      split at answered
      · cases answered
        exact ⟨complete, nofun⟩
      · next entry claimed made =>
          obtain ⟨kept, whole⟩ := complete.claim made
          rcases settle_cases address names entry claimed with
            ⟨same, settled⟩ | ⟨content, -, -, laidOut⟩
          · rw [answered] at same settled
            obtain rfl : opened = claimed := same
            refine ⟨kept, ?_⟩
            intro placed opens
            obtain ⟨tables, isDatabase, rfl⟩ := settled placed opens
            exact ⟨whole tables isDatabase, Address.access_ne_nothing address⟩
          · rw [laidOut] at answered
            cases answered
            refine ⟨kept.putDatabase names .empty, ?_⟩
            rintro placed ⟨⟩
            exact ⟨.empty, nofun⟩

theorem openTables (complete : files.Complete) {text : Bytes}
    {answer : Except StoreError PlacedTables}
    (answered : files.openTables text = (answer, opened)) :
    opened.Complete ∧ ∀ placed, answer = .ok placed → PlacedWhole placed := by
  unfold Files.openTables at answered
  split at answered
  · cases answered
    exact ⟨complete, nofun⟩
  · split at answered
    · obtain ⟨rfl, rfl⟩ := Prod.mk.inj answered
      refine ⟨complete, ?_⟩
      intro placed same
      unfold openMemory at same
      split at same
      · cases same
      · split at same
        · cases same
          exact ⟨.empty, nofun⟩
        · cases same
    · exact complete.openFile answered

theorem openStore (complete : files.Complete) {text : Bytes} {placed : PlacedStore}
    (answered : files.openStore text = (.ok placed, opened)) :
    opened.Complete ∧ placed.store.backend.Whole := by
  unfold Files.openStore at answered
  split at answered
  · cases answered
  · split at answered
    · cases answered
      exact ⟨complete, ⟨List.nodup_nil, nofun, nofun⟩, nofun⟩
    · split at answered
      · cases answered
      · next tables reached same =>
          cases answered
          obtain ⟨kept, whole⟩ := complete.openTables same
          have own := whole tables rfl
          refine ⟨kept, own.complete, ?_⟩
          intro other equal
          exact own.readable (Backend.file.inj equal).2

theorem keepStore (complete : files.Complete) {placed : PlacedStore}
    (whole : placed.store.backend.Whole) : (files.keepStore placed).Complete := by
  unfold Files.keepStore
  split
  · next names tables place stored =>
      apply complete.putDatabase
      unfold Store.tables? at stored
      split at stored
      · cases stored
      · next rows access same =>
          cases stored
          rw [same] at whole
          exact whole.complete
  · exact complete

theorem keepTables (complete : files.Complete) {placed : PlacedTables}
    (whole : placed.tables.Complete) : (files.keepTables placed).Complete := by
  unfold Files.keepTables
  split
  · exact complete.putDatabase _ whole
  · exact complete

theorem openSource (complete : files.Complete) {path : Bytes} {answer : Except SourceError Tables}
    (answered : files.openSource path = (answer, opened)) :
    opened.Complete ∧ ∀ source, answer = .ok source → source.Complete := by
  unfold Files.openSource at answered
  split at answered
  · cases answered
    exact ⟨complete, nofun⟩
  · split at answered
    · next same =>
        cases answered
        exact ⟨(complete.openTables same).1, nofun⟩
    · next placed reached same =>
        cases answered
        obtain ⟨kept, whole⟩ := complete.openTables same
        refine ⟨kept, ?_⟩
        rintro source ⟨⟩
        exact (whole placed rfl).complete

theorem takeIn {placed : PlacedTables} {source : Tables} (whole : placed.tables.Complete)
    (sourceWhole : source.Complete) (fault : Option MergeFault) :
    (Files.takeIn placed source fault).2.tables.Complete := by
  rcases takeIn_cases placed source fault with ⟨-, -, taken⟩ | ⟨-, error, failed⟩
  · rw [taken]
    exact sourceWhole.unite whole
  · rw [failed]
    exact whole

/-- One source after the other keeps the tree complete, and a source that cannot be read ends
the merge without harm. -/
theorem mergeEach (sources : List MergeSource) {placed : PlacedTables} (report : MergeReport)
    (whole : placed.tables.Complete) (complete : files.Complete) :
    (Files.mergeEach placed report sources files).2.Complete := by
  induction sources generalizing placed report files with
  | nil => exact complete
  | cons source sources induction =>
      rw [Files.mergeEach]
      split
      · next answered => exact (complete.openSource answered).1
      · next tables reached answered =>
          obtain ⟨kept, sourceWhole⟩ := complete.openSource answered
          have afterWhole := takeIn whole (sourceWhole tables rfl) source.fault
          split
          · next failed =>
              rw [failed] at afterWhole
              exact kept.keepTables afterWhole
          · next taken =>
              rw [taken] at afterWhole
              exact induction _ afterWhole (kept.keepTables afterWhole)

theorem mergeSources (complete : files.Complete) (sources : List MergeSource)
    (destination : Bytes) : (files.mergeSources sources destination).2.Complete := by
  unfold Files.mergeSources
  split
  · exact complete
  · split
    · exact complete
    · split
      · next answered => exact (complete.openTables answered).1
      · next placed reached answered =>
          obtain ⟨kept, whole⟩ := complete.openTables answered
          exact mergeEach sources .start (whole placed rfl).complete kept

end Complete

end Files

end Reroute
