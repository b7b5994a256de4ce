import Mathlib
import Reroute.Store.Merge

/-!
# Copying the tables of a source

A source is copied row by row, and the rows that were new are counted on the way.  Copied as a
whole it unites its rows with those of the target, and every count is by how much a table grew.
A source that breaks leaves no trace, however many of its rows were copied by then: the tables
from before the transaction come back.
-/

namespace Reroute

/-! ### Rows that are added once -/

section

variable {α : Type} {same : α → α → Bool}

theorem prefix_insertFirst (record : α) (records : List α) :
    records <+: insertFirst same record records := by
  unfold insertFirst
  split
  · exact List.prefix_rfl
  · exact List.prefix_append records [record]

theorem eq_or_mem_of_mem_insertFirst {record other : α} {records : List α}
    (member : other ∈ insertFirst same record records) : other = record ∨ other ∈ records := by
  unfold insertFirst at member
  split at member
  · exact .inr member
  · rcases List.mem_append.mp member with old | new
    · exact .inr old
    · exact .inl (List.mem_singleton.mp new)

/-- After a record was added it is there, or one that counts as the same. -/
theorem exists_same_insertFirst (reflexive : ∀ record, same record record = true) (record : α)
    (records : List α) :
    ∃ other ∈ insertFirst same record records, same record other = true := by
  unfold insertFirst
  split
  · next known => exact List.any_eq_true.mp known
  · exact ⟨record, by simp, reflexive record⟩

namespace Tables

/-- A table with the rows of another one whose keys are new. -/
def copyRows (same : α → α → Bool) (source target : List α) : List α :=
  source.foldl (fun rows row => insertFirst same row rows) target

theorem copyRows_cons (row : α) (source target : List α) :
    copyRows same (row :: source) target = copyRows same source (insertFirst same row target) :=
  rfl

theorem copyRows_append (first second target : List α) :
    copyRows same (first ++ second) target = copyRows same second (copyRows same first target) :=
  List.foldl_append

theorem prefix_copyRows (source target : List α) : target <+: copyRows same source target := by
  induction source generalizing target with
  | nil => exact List.prefix_rfl
  | cons row source induction =>
      exact (prefix_insertFirst row target).trans (induction (insertFirst same row target))

theorem subset_copyRows (source target : List α) : target ⊆ copyRows same source target :=
  (prefix_copyRows source target).subset

theorem mem_of_mem_copyRows {source target : List α} {row : α}
    (member : row ∈ copyRows same source target) : row ∈ source ∨ row ∈ target := by
  induction source generalizing target with
  | nil => exact .inr member
  | cons first source induction =>
      rcases induction member with later | old
      · exact .inl (List.mem_cons_of_mem _ later)
      · rcases eq_or_mem_of_mem_insertFirst old with rfl | earlier
        · exact .inl List.mem_cons_self
        · exact .inr earlier

theorem exists_same_copyRows (reflexive : ∀ row, same row row = true) {source : List α}
    (target : List α) {row : α} (member : row ∈ source) :
    ∃ other ∈ copyRows same source target, same row other = true := by
  induction source generalizing target with
  | nil => cases member
  | cons first source induction =>
      rcases List.mem_cons.mp member with rfl | later
      · obtain ⟨other, known, equal⟩ := exists_same_insertFirst reflexive row target
        exact ⟨other, subset_copyRows source _ known, equal⟩
      · exact induction _ later

end Tables

namespace Copy

/-- The rows after an insertion, and how many of them were added. -/
theorem insert_eq (copy : Copy α) (row : α) :
    copy.insert same row = ⟨insertFirst same row copy.rows,
      copy.taken + ((insertFirst same row copy.rows).length - copy.rows.length)⟩ := by
  rw [insert, insertFirst]
  split
  · simp
  · simp

/-- All rows are copied, and those counted by which the table grew. -/
theorem run_whole (rows : List α) (copy : Copy α) :
    copy.run same true none rows = (⟨Tables.copyRows same rows copy.rows,
      copy.taken + ((Tables.copyRows same rows copy.rows).length - copy.rows.length)⟩, true) := by
  induction rows generalizing copy with
  | nil => simp [run, Tables.copyRows]
  | cons row rows induction =>
      have one : copy.rows.length ≤ (insertFirst same row copy.rows).length :=
        (prefix_insertFirst row copy.rows).length_le
      have others : (insertFirst same row copy.rows).length ≤
          (Tables.copyRows same rows (insertFirst same row copy.rows)).length :=
        (Tables.prefix_copyRows rows _).length_le
      rw [run, if_neg (by decide), Option.map_none, induction, insert_eq, Tables.copyRows_cons]
      simp only [Prod.mk.injEq, Copy.mk.injEq, and_true, true_and]
      omega

/-- Where reading breaks off, not all rows are copied. -/
theorem run_limited (writable : Bool) (limit : Nat) (rows : List α) (copy : Copy α) :
    (copy.run same writable (some limit) rows).2 = false := by
  induction rows generalizing limit copy with
  | nil => rfl
  | cons row rows induction =>
      rw [run]
      split
      · rfl
      · exact induction _ _

theorem run_guarded (limit : Option Nat) (rows : List α) (copy : Copy α) :
    copy.run same false limit rows = (copy, rows.isEmpty && limit.isNone) := by
  cases rows with
  | nil => rfl
  | cons row rows => simp [run]

end Copy

end

namespace Tables

/-- Tables with the rows of others whose keys are new. -/
def unite (source target : Tables) : Tables :=
  { target with
    chunks := copyRows ChunkSize.sameKey source.chunks target.chunks
    places := copyRows (· == ·) source.places target.places
    substitutions := copyRows Substitution.sameKey source.substitutions target.substitutions
    results := copyRows StoredResult.sameKey source.results target.results }

/-- How many rows tables have more than others. -/
def gainedOver (after before : Tables) : Gained :=
  ⟨after.chunks.length - before.chunks.length, after.places.length - before.places.length,
    after.substitutions.length - before.substitutions.length,
    after.results.length - before.results.length⟩

theorem gainedOver_self (tables : Tables) : tables.gainedOver tables = .none := by
  simp [gainedOver, Gained.none]

/-- The first table that has rows. -/
def firstWithRows? (tables : Tables) : Option Name :=
  if !tables.chunks.isEmpty then some .chunks
  else if !tables.places.isEmpty then some .places
  else if !tables.substitutions.isEmpty then some .substitutions
  else if !tables.results.isEmpty then some .results
  else none

theorem firstWithRows?_eq_none_iff {tables : Tables} :
    tables.firstWithRows? = none ↔ tables.chunks = [] ∧ tables.places = [] ∧
      tables.substitutions = [] ∧ tables.results = [] := by
  simp only [firstWithRows?, Bool.not_eq_true', List.isEmpty_eq_false_iff, ne_eq, ite_not]
  split
  · split
    · split
      · split
        · simp [*]
        · simp [*]
      · simp [*]
    · simp [*]
  · simp [*]

theorem unite_of_firstWithRows? {source : Tables} (empty : source.firstWithRows? = none)
    (target : Tables) : unite source target = target := by
  obtain ⟨chunks, places, substitutions, results⟩ := firstWithRows?_eq_none_iff.mp empty
  rw [unite, chunks, places, substitutions, results]
  rfl

/-- Tables with this access take in the rows of a store. -/
def admits (access : Access) (store : Tables) : Bool :=
  access == .everything || store.firstWithRows?.isNone

end Tables

@[simp] theorem MergeFault.limit?_none (table : Tables.Name) : limit? none table = none :=
  rfl

namespace Transaction

variable {writable : Bool} {limit : Tables.Name → Option Nat} {source target : Tables}

/-- Copying does not touch what a transaction can go back to. -/
theorem copyTables_before (writable : Bool) (limit : Tables.Name → Option Nat) (source : Tables)
    (tables : List TableCopy) (transaction : Transaction) :
    (transaction.copyTables writable limit source tables).1.before = transaction.before := by
  induction tables generalizing transaction with
  | nil => rfl
  | cons table tables induction =>
      rw [copyTables]
      split
      · next after copied =>
          rw [induction, ← show (transaction.copyTable writable (limit table.name) source
            table).1 = after by rw [copied]]
          rfl
      · next after copied =>
          rw [← show (transaction.copyTable writable (limit table.name) source
            table).1 = after by rw [copied]]
          rfl

/-- A source that does not break unites its rows with those of the target, and counts the ones
that each table gained. -/
theorem copyTables_whole (source target : Tables) (unlimited : ∀ name, limit name = none) :
    (start target).copyTables true limit source TableCopy.all =
      (⟨target, Tables.unite source target, (Tables.unite source target).gainedOver target⟩,
        none) := by
  simp [copyTables, TableCopy.all, copyTable, unlimited, Copy.run_whole, start, Tables.unite,
    Tables.gainedOver]

/-- A source that breaks within a table ends the transaction there. -/
theorem copyTables_broken (broken : Tables.Name) (rows : Nat) :
    ((start target).copyTables true (MergeFault.limit? (some (.behind broken rows))) source
      TableCopy.all).2 = some broken := by
  cases broken <;>
    simp [copyTables, TableCopy.all, copyTable, MergeFault.limit?, Copy.run_whole,
      Copy.run_limited]

/-- A table without rows is copied at once, if it can be read to its end. -/
theorem copyTable_guarded (limit : Option Nat) (table : TableCopy) (transaction : Transaction) :
    (transaction.copyTable false limit source table).2 =
      ((table.rows source).isEmpty && limit.isNone) := by
  rw [copyTable, Copy.run_guarded]

/-- Where nothing may be written, tables are only copied that have no rows. -/
theorem rows_eq_nil_of_copyTables {tables : List TableCopy} {transaction : Transaction}
    (copied : (transaction.copyTables false limit source tables).2 = none) :
    ∀ table ∈ tables, table.rows source = [] := by
  induction tables generalizing transaction with
  | nil => simp
  | cons table tables induction =>
      rw [copyTables] at copied
      split at copied
      · next after one =>
          have whole : (transaction.copyTable false (limit table.name) source table).2 = true := by
            rw [one]
          rw [copyTable_guarded, Bool.and_eq_true, List.isEmpty_iff] at whole
          exact List.forall_mem_cons.mpr ⟨whole.1, induction copied⟩
      · cases copied

theorem firstWithRows?_of_copyTables
    (copied : ((start target).copyTables false limit source TableCopy.all).2 = none) :
    source.firstWithRows? = none := by
  have rowless := rows_eq_nil_of_copyTables copied
  simp only [TableCopy.all, List.forall_mem_cons] at rowless
  exact Tables.firstWithRows?_eq_none_iff.mpr
    ⟨rowless.1, rowless.2.1, rowless.2.2.1, rowless.2.2.2.1⟩

/-- Tables that were copied could be read to their ends. -/
theorem limit_eq_none_of_copyTables {tables : List TableCopy} {transaction : Transaction}
    (copied : (transaction.copyTables writable limit source tables).2 = none) :
    ∀ table ∈ tables, limit table.name = none := by
  induction tables generalizing transaction with
  | nil => simp
  | cons table tables induction =>
      rw [copyTables] at copied
      split at copied
      · next after one =>
          refine List.forall_mem_cons.mpr ⟨?_, induction copied⟩
          cases limited : limit table.name with
          | none => rfl
          | some rows =>
              have broken : (transaction.copyTable writable (some rows) source table).2 = false :=
                Copy.run_limited _ _ _ _
              rw [← limited, one] at broken
              cases broken
      · cases copied

/-- A store without rows is copied at once, whatever may be written. -/
theorem copyTables_rowless (rowless : source.firstWithRows? = none)
    (unlimited : ∀ name, limit name = none) :
    (start target).copyTables writable limit source TableCopy.all = (start target, none) := by
  obtain ⟨chunks, places, substitutions, results⟩ :=
    Tables.firstWithRows?_eq_none_iff.mp rowless
  simp [copyTables, TableCopy.all, copyTable, unlimited, Copy.run, start, chunks, places,
    substitutions, results, Tables.Gained.none]

end Transaction

/-- Open tables together with the rows of a store. -/
def PlacedTables.taking (placed : PlacedTables) (store : Tables) : PlacedTables :=
  { placed with tables := Tables.unite store placed.tables }

/-- What a merge fails with at a source that breaks. -/
def MergeFault.error : MergeFault → SourceError
  | .atStart => .unbegun
  | .behind table _ => .rejected table
  | .atCommit => .uncommitted

namespace Files

variable {placed : PlacedTables} {store : Tables} {fault : Option MergeFault}

/-- A table that fails takes the whole source back. -/
theorem takeIn_of_failed (begun : fault ≠ some .atStart) {table : Tables.Name}
    (failed : ((Transaction.start placed.tables).copyTables (placed.access == .everything)
      (MergeFault.limit? fault) store TableCopy.all).2 = some table) :
    takeIn placed store fault = (.error (.rejected table), placed) := by
  have before := Transaction.copyTables_before (placed.access == .everything)
    (MergeFault.limit? fault) store TableCopy.all (.start placed.tables)
  rw [takeIn, if_neg (by simpa using begun)]
  rcases copied : (Transaction.start placed.tables).copyTables (placed.access == .everything)
    (MergeFault.limit? fault) store TableCopy.all with ⟨transaction, broken⟩
  rw [copied] at failed before
  obtain rfl : broken = some table := failed
  dsimp only
  rw [Transaction.rollback, before, Transaction.start]

/-- When all tables are copied, the transaction is over but for its end. -/
theorem takeIn_of_copied (begun : fault ≠ some .atStart) {transaction : Transaction}
    (copied : (Transaction.start placed.tables).copyTables (placed.access == .everything)
      (MergeFault.limit? fault) store TableCopy.all = (transaction, none)) :
    takeIn placed store fault =
      if fault = some .atCommit then (.error .uncommitted, placed)
      else (.ok transaction.gained, { placed with tables := transaction.tables }) := by
  have before := Transaction.copyTables_before (placed.access == .everything)
    (MergeFault.limit? fault) store TableCopy.all (.start placed.tables)
  rw [copied] at before
  rw [takeIn, if_neg (by simpa using begun), copied]
  dsimp only at before ⊢
  simp only [beq_iff_eq, Transaction.rollback, Transaction.commit, before, Transaction.start]

/-- Where everything may be written, only the fault of a source keeps its rows out. -/
theorem takeIn_of_everything (writable : placed.access = .everything) (store : Tables)
    (fault : Option MergeFault) :
    takeIn placed store fault =
      match fault with
      | none => (.ok ((Tables.unite store placed.tables).gainedOver placed.tables),
          placed.taking store)
      | some fault => (.error fault.error, placed) := by
  have allowed : (placed.access == .everything) = true := beq_iff_eq.mpr writable
  cases fault with
  | none =>
      have begun : (none : Option MergeFault) ≠ some .atStart := nofun
      have copied := Transaction.copyTables_whole store placed.tables MergeFault.limit?_none
      rw [← allowed] at copied
      rw [takeIn_of_copied begun copied, if_neg nofun]
      rfl
  | some fault =>
      cases fault with
      | atStart => rfl
      | behind table rows =>
          apply takeIn_of_failed (by simp)
          rw [allowed]
          exact Transaction.copyTables_broken table rows
      | atCommit =>
          have copied := Transaction.copyTables_whole store placed.tables
            (fun _ => rfl : ∀ table, MergeFault.limit? (some .atCommit) table = none)
          rw [← allowed] at copied
          rw [takeIn_of_copied (by simp) copied, if_pos rfl]
          rfl

/-- Either all rows of a source are taken in, or none.  A source is refused that breaks or that
has rows for a store which must not be written. -/
theorem takeIn_cases (placed : PlacedTables) (store : Tables) (fault : Option MergeFault) :
    (Tables.admits placed.access store = true ∧ fault = none ∧
        takeIn placed store fault =
          (.ok ((Tables.unite store placed.tables).gainedOver placed.tables),
            placed.taking store)) ∨
      ((Tables.admits placed.access store = false ∨ fault ≠ none) ∧
        ∃ error, takeIn placed store fault = (.error error, placed)) := by
  by_cases writable : placed.access = .everything
  · rw [takeIn_of_everything writable]
    cases fault with
    | none => exact .inl ⟨by rw [Tables.admits, writable]; rfl, rfl, rfl⟩
    | some fault => exact .inr ⟨.inr nofun, _, rfl⟩
  · have guarded : (placed.access == .everything) = false := beq_eq_false_iff_ne.mpr writable
    by_cases begun : fault = some .atStart
    · subst begun
      exact .inr ⟨.inr nofun, _, rfl⟩
    · rcases copied : (Transaction.start placed.tables).copyTables (placed.access == .everything)
        (MergeFault.limit? fault) store TableCopy.all with ⟨transaction, broken⟩
      cases broken with
      | some table =>
          refine .inr ⟨?_, _, takeIn_of_failed begun (by rw [copied])⟩
          by_contra! wanted
          obtain ⟨admitted, rfl⟩ := wanted
          have rowless : store.firstWithRows? = none := by
            simpa [Tables.admits, guarded] using admitted
          rw [Transaction.copyTables_rowless rowless MergeFault.limit?_none] at copied
          cases copied
      | none =>
          have whole := takeIn_of_copied begun copied
          cases fault with
          | some fault =>
              refine .inr ⟨.inr nofun, _, whole.trans (if_pos ?_)⟩
              cases fault with
              | atStart => exact absurd rfl begun
              | behind table rows =>
                  have unlimited := Transaction.limit_eq_none_of_copyTables
                    (congrArg Prod.snd copied)
                  cases table <;> simp [TableCopy.all, MergeFault.limit?] at unlimited
              | atCommit => rfl
          | none =>
              rw [guarded] at copied
              have rowless := Transaction.firstWithRows?_of_copyTables (congrArg Prod.snd copied)
              rw [Transaction.copyTables_rowless rowless MergeFault.limit?_none] at copied
              cases copied
              refine .inl ⟨by simp [Tables.admits, rowless], rfl, whole.trans ?_⟩
              rw [if_neg nofun, PlacedTables.taking, Tables.unite_of_firstWithRows? rowless,
                Tables.gainedOver_self]
              rfl

end Files

end Reroute
