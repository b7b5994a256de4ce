import Reroute.Store.Site

/-!
# Merging store files

Store files of separate builds are merged into one.  Sources are taken in the order given
and every row whose key the destination lacks is copied, so the first source that knows a
key decides its row.  A source that cannot be read ends the merge; what was copied from
the sources before it stays.  A destination that is open for reading only takes no row,
not even one it has already.

The tables of a source are copied one after the other in one transaction.  It may fail at any
row, also behind rows that were copied, and is then rolled back.
-/

namespace Reroute

/-- Why a merge does not start. -/
inductive MergeError where
  | noSources
  | noDestination
  | destination (error : StoreError)
  deriving DecidableEq, Repr

def MergeError.message : MergeError → Bytes
  | .noSources => utf8 "no source databases specified"
  | .noDestination => utf8 "destination path is required"
  | .destination error => utf8 "opening destination database: " ++ error.message

/-- Why a source cannot be merged. -/
inductive SourceError where
  | unreadable
  | closed (error : StoreError)
  | unbegun
  | rejected (table : Tables.Name)
  | uncommitted
  deriving DecidableEq, Repr

/-- A source that ended a merge. -/
structure SourceFailure where
  path : Bytes
  error : SourceError
  deriving DecidableEq, Repr

def SourceFailure.message (failure : SourceFailure) : Bytes :=
  utf8 "merging from " ++ failure.path ++ utf8 ": "
    ++ match failure.error with
      | .unreadable => utf8 "reading source database: " ++ FileError.missing.message
      | .closed error => utf8 "opening source database: " ++ error.message
      | .unbegun => utf8 "starting transaction: <sqlite>"
      | .rejected table => utf8 "merging " ++ table.label ++ utf8 ": <sqlite>"
      | .uncommitted => utf8 "committing transaction: <sqlite>"

/-- Where a source breaks that was opened: as the transaction begins, behind so many rows of a
table, or at the end. -/
inductive MergeFault where
  | atStart
  | behind (table : Tables.Name) (rows : Nat)
  | atCommit
  deriving DecidableEq, Repr

/-- How many rows of a table can be read, if not all of them. -/
def MergeFault.limit? (fault : Option MergeFault) (table : Tables.Name) : Option Nat :=
  match fault with
  | some (.behind broken rows) => if broken == table then some rows else none
  | _ => none

/-- A store file that is merged, and where it breaks. -/
structure MergeSource where
  path : Bytes
  fault : Option MergeFault
  deriving DecidableEq, Repr

/-- A source that does not break. -/
def MergeSource.sound (path : Bytes) : MergeSource :=
  ⟨path, none⟩

/-- A transaction: the tables before it, the tables by now, and how many rows were new. -/
structure Transaction where
  before : Tables
  tables : Tables
  gained : Tables.Gained
  deriving DecidableEq, Repr

namespace Transaction

def start (tables : Tables) : Transaction :=
  ⟨tables, tables, .none⟩

def rollback (transaction : Transaction) : Tables :=
  transaction.before

def commit (transaction : Transaction) : Tables :=
  transaction.tables

/-- Copy one table of a source, and say whether all of it was copied. -/
def copyTable (writable : Bool) (limit : Option Nat) (source : Tables) (table : TableCopy)
    (transaction : Transaction) : Transaction × Bool :=
  let (copy, whole) := Copy.run table.same writable limit (table.rows source)
    ⟨table.rows transaction.tables, 0⟩
  ({ transaction with
      tables := table.put copy.rows transaction.tables
      gained := if whole then table.count copy.taken transaction.gained
        else transaction.gained },
    whole)

/-- Copy tables of a source one after the other, up to the first that fails. -/
def copyTables (writable : Bool) (limit : Tables.Name → Option Nat) (source : Tables) :
    List TableCopy → Transaction → Transaction × Option Tables.Name
  | [], transaction => (transaction, none)
  | table :: tables, transaction =>
      match transaction.copyTable writable (limit table.name) source table with
      | (transaction, true) => copyTables writable limit source tables transaction
      | (transaction, false) => (transaction, some table.name)

end Transaction

/-- What a merge did: how many sources it took in, how many rows were new, and the
source that ended it early. -/
structure MergeReport where
  sources : Nat
  gained : Tables.Gained
  failure : Option SourceFailure
  deriving DecidableEq, Repr

namespace MergeReport

/-- A merge that has not taken in any source. -/
def start : MergeReport :=
  ⟨0, .none, none⟩

def count (report : MergeReport) (gained : Tables.Gained) : MergeReport :=
  ⟨report.sources + 1, report.gained.add gained, none⟩

end MergeReport

namespace Files

/-- Open a source, which has to exist. -/
def openSource (files : Files) (path : Bytes) : Except SourceError Tables × Files :=
  match files.stat path with
  | .error _ => (.error .unreadable, files)
  | .ok _ =>
      match files.openTables path with
      | (.error error, files) => (.error (.closed error), files)
      | (.ok placed, files) => (.ok placed.tables, files)

/-- Copy the rows of a source in one transaction, and count those that were new. -/
def takeIn (placed : PlacedTables) (source : Tables) (fault : Option MergeFault) :
    Except SourceError Tables.Gained × PlacedTables :=
  if fault == some .atStart then (.error .unbegun, placed)
  else
    match (Transaction.start placed.tables).copyTables (placed.access == .everything)
        (MergeFault.limit? fault) source TableCopy.all with
    | (transaction, some table) =>
        (.error (.rejected table), { placed with tables := transaction.rollback })
    | (transaction, none) =>
        if fault == some .atCommit then
          (.error .uncommitted, { placed with tables := transaction.rollback })
        else (.ok transaction.gained, { placed with tables := transaction.commit })

/-- Merge sources into open tables, which are put back after every source. -/
def mergeEach (placed : PlacedTables) (report : MergeReport) :
    List MergeSource → Files → MergeReport × Files
  | [], files => (report, files)
  | source :: sources, files =>
      match files.openSource source.path with
      | (.error error, files) => ({ report with failure := some ⟨source.path, error⟩ }, files)
      | (.ok tables, files) =>
          match takeIn placed tables source.fault with
          | (.error error, after) =>
              ({ report with failure := some ⟨source.path, error⟩ }, files.keepTables after)
          | (.ok gained, after) =>
              mergeEach after (report.count gained) sources (files.keepTables after)

/-- Merge sources, some of which may break, into the store file at a path. -/
def mergeSources (files : Files) (sources : List MergeSource) (destination : Bytes) :
    Except MergeError MergeReport × Files :=
  if sources.isEmpty then (.error .noSources, files)
  else if destination.isEmpty then (.error .noDestination, files)
  else
    match files.openTables destination with
    | (.error error, files) => (.error (.destination error), files)
    | (.ok placed, files) =>
        let (report, files) := mergeEach placed .start sources files
        (.ok report, files)

/-- Merge the store files at some paths into the one at another. -/
def merge (files : Files) (paths : List Bytes) (destination : Bytes) :
    Except MergeError MergeReport × Files :=
  files.mergeSources (paths.map .sound) destination

end Files

end Reroute
