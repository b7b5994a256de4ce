import Reroute.Store.Address
import Reroute.Store.Memory
import Reroute.Store.Tables

/-!
# Open stores

A store is in memory or in a file.  A file store may be open for reading only, so that
every change fails; it can be closed, and then every use of it fails.  A store may also be
given a fault: one of its uses, counted from the first, fails without effect.  That is how
the handling of failures is exercised.

The answer of each use comes with the store after it.
-/

namespace Reroute

/-- The uses of a store that can be made to fail. -/
inductive StoreUse where
  | addChunk
  | addSubstitution
  | putResult
  | getResult
  | getSubstitutions
  deriving DecidableEq, Repr

def StoreUse.label : StoreUse → Bytes
  | .addChunk => utf8 "add_chunk"
  | .addSubstitution => utf8 "add_rewrite"
  | .putResult => utf8 "put_result"
  | .getResult => utf8 "get_result"
  | .getSubstitutions => utf8 "get_rewrites"

/-- The use that a change is. -/
def Write.use : Write → StoreUse
  | .chunk _ _ _ => .addChunk
  | .substitution _ => .addSubstitution
  | .result _ => .putResult

/-- The first step of a change of a file store, at which a closed one fails. -/
def Write.activity : Write → String
  | .chunk _ _ _ => "starting transaction"
  | .substitution _ => "inserting rewrite"
  | .result _ => "inserting result"

/-- The first step of a change that alters a table, at which a store that is open for
reading only fails. -/
def Write.insertion : Write → String
  | .chunk _ _ _ => "inserting chunk"
  | .substitution _ => "inserting rewrite"
  | .result _ => "inserting result"

/-- Why a store gives no answer. -/
inductive StoreError where
  | notFound
  | closed (activity : String)
  | unalterable (activity : String)
  | fault (use : StoreUse)
  | noPath
  | address (error : AddressError)
  | unreadable
  | version (found : Int)
  deriving DecidableEq, Repr

def StoreError.message : StoreError → Bytes
  | .notFound => utf8 "not found"
  | .closed activity => utf8 activity ++ utf8 ": sql: database is closed"
  | .unalterable activity => utf8 activity ++ utf8 ": <sqlite>"
  | .fault use => utf8 "store failure in " ++ use.label
  | .noPath => utf8 "path is required"
  | .address error =>
      utf8 "creating schema: creating schema_version table: " ++ error.message
  | .unreadable => utf8 "creating schema: creating schema_version table: <sqlite>"
  | .version found =>
      utf8 "creating schema: creating schema_version table: database has schema version "
        ++ Numeral.ofInt found ++ utf8 ", want " ++ Numeral.ofInt Tables.currentVersion

/-- A failure to come: the use it concerns, and how many such uses still succeed. -/
structure Fault where
  use : StoreUse
  succeeding : Nat
  deriving DecidableEq, Repr

/-- What may be done with a store file. -/
inductive Access where
  | everything
  | reading
  | nothing
  deriving DecidableEq, Repr

/-- Where the records of a store are. -/
inductive Backend where
  | memory (records : MemoryStore)
  | file (tables : Tables) (access : Access)
  deriving DecidableEq, Repr

/-- An open store. -/
structure Store where
  backend : Backend
  fault : Option Fault
  deriving DecidableEq, Repr

namespace Store

def memory : Store :=
  ⟨.memory .empty, none⟩

/-- A file store with some access. -/
def onFile (tables : Tables) (access : Access) : Store :=
  ⟨.file tables access, none⟩

/-- An open file store. -/
def ofTables (tables : Tables) : Store :=
  onFile tables .everything

/-- Open the tables of a store file, if their layout is the current one. -/
def openTables (tables : Tables) : Except StoreError Store :=
  if tables.version == Tables.currentVersion then .ok (ofTables tables)
  else .error (.version tables.version)

/-- Count a use against the fault, which strikes when no succeeding use is left. -/
def strike (use : StoreUse) : Option Fault → Bool × Option Fault
  | none => (false, none)
  | some fault =>
      if fault.use != use then (false, some fault)
      else
        match fault.succeeding with
        | 0 => (true, none)
        | left + 1 => (false, some { fault with succeeding := left })

/-- Carry out a change on the records. -/
def writeTo (backend : Backend) (change : Write) : Except StoreError Backend :=
  match backend with
  | .memory records => .ok (.memory (records.write change))
  | .file tables .everything => .ok (.file (tables.write change) .everything)
  | .file _ .reading => .error (.unalterable change.insertion)
  | .file _ .nothing => .error (.closed change.activity)

/-- Carry out a change. -/
def write (store : Store) (change : Write) : Except StoreError Unit × Store :=
  let (struck, fault) := strike change.use store.fault
  if struck then (.error (.fault change.use), { store with fault := fault })
  else
    match writeTo store.backend change with
    | .ok backend => (.ok (), ⟨backend, fault⟩)
    | .error error => (.error error, { store with fault := fault })

def ask {α : Type} (activity : String) (memory : MemoryStore → α) (tables : Tables → α)
    (store : Store) : Except StoreError α :=
  match store.backend with
  | .memory records => .ok (memory records)
  | .file _ .nothing => .error (.closed activity)
  | .file rows _ => .ok (tables rows)

/-- The outcome for a chunk under a key. -/
def getResult (store : Store) (chunk : ChunkId) (key : Bytes) :
    Except StoreError StoredResult × Store :=
  let (struck, fault) := strike .getResult store.fault
  let after := { store with fault := fault }
  if struck then (.error (.fault .getResult), after)
  else
    match ask "querying result" (·.result? chunk key) (·.result? chunk key) store with
    | .ok (some result) => (.ok result, after)
    | .ok none => (.error .notFound, after)
    | .error error => (.error error, after)

/-- The occurrences replaced in a chunk. -/
def getSubstitutions (store : Store) (chunk : ChunkId) :
    Except StoreError (List Substitution) × Store :=
  let (struck, fault) := strike .getSubstitutions store.fault
  let after := { store with fault := fault }
  if struck then (.error (.fault .getSubstitutions), after)
  else
    (ask "querying rewrites" (·.substitutionsOf chunk) (·.substitutionsOf chunk) store,
      after)

/-- All replaced occurrences. -/
def allSubstitutions (store : Store) : Except StoreError (List Substitution) :=
  ask "querying rewrites" (·.allSubstitutions) (·.allSubstitutions) store

def chunkRecords (store : Store) : Except StoreError (List ChunkRecord) :=
  ask "querying chunks" (·.chunkRecords) (·.chunkRecords) store

def hasChunk (store : Store) (id : ChunkId) : Except StoreError Bool :=
  ask "checking chunk existence" (·.hasChunk id) (·.hasChunk id) store

/-- Close a store, which has no effect on one in memory. -/
def close (store : Store) : Store :=
  match store.backend with
  | .memory _ => store
  | .file tables _ => { store with backend := .file tables .nothing }

/-- Close a store and open it again.  What was in memory is lost; a file whose layout is
not the current one stays closed. -/
def reopen (store : Store) : Except StoreError Unit × Store :=
  match store.backend with
  | .memory _ => (.ok (), { store with backend := .memory .empty })
  | .file tables _ =>
      match openTables tables with
      | .ok fresh => (.ok (), { fresh with fault := store.fault })
      | .error error => (.error error, store.close)

/-- Close a file store and change the version recorded in its file. -/
def setVersion (store : Store) (version : Int) : Store :=
  match store.backend with
  | .memory _ => store
  | .file tables _ =>
      { store with backend := .file { tables with version := version } .nothing }

def tables? (store : Store) : Option Tables :=
  match store.backend with
  | .memory _ => none
  | .file tables _ => some tables

end Store

end Reroute
