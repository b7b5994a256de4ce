import Reroute.Files.Tree
import Reroute.Store.Handle

/-!
# Stores in a file tree

A store is opened at an address.  One address is set aside for a store of records in
memory; every other one leads to tables, in memory or in a store file, which is made if
its directory exists.  A file of at most one byte counts as a store file without rows; any
other file that was not written by a store cannot be opened, and neither can a directory.

The path of a store file is made plain before the file is looked for: a step upwards takes
back the step before it, whether or not that led anywhere, and links are replaced by what
they point to.  Beside the file there has to be room for a journal, whose name is longer.

An open store is a value.  What was recorded in it reaches the tree when the store is put
back in its place.
-/

namespace Reroute

/-- The tables of an open store file, the names that lead to it, and what may be done with
it.  Tables in memory have no place. -/
structure PlacedTables where
  names : Option (List Bytes)
  tables : Tables
  access : Access
  deriving DecidableEq, Repr

/-- An open store, and the names that lead to its file. -/
structure PlacedStore where
  names : Option (List Bytes)
  store : Store
  deriving DecidableEq, Repr

/-- What may be done with the store at an address. -/
def Address.access (address : Address) : Access :=
  if address.isWritable then .everything else .reading

namespace Entry

/-- The entry at the end of a list of names, none of which is that of a link. -/
def look (entry : Entry) : List Bytes → Except FileError Entry
  | [] => .ok entry
  | name :: names =>
      if !entry.isDirectory then .error .notDirectory
      else if Files.longestName < name.length then .error .nameTooLong
      else
        match entry.member? name with
        | some inner => inner.look names
        | none => .error .missing

end Entry

namespace Files

/-- The most symbolic links that are replaced in the path of one store file. -/
def mostStoreLinks : Nat := 201

/-- The longest path of a store file from the top that leaves room for its journal, in
bytes. -/
def longestStorePath : Nat := 504

/-- The longest name of a store file that leaves room for its journal, in bytes. -/
def longestStoreName : Nat := longestName - "-journal".length

/-- The length of the path that consists of some names, with a slash before each. -/
def pathLength (names : List Bytes) : Nat :=
  names.foldl (fun length name => length + 1 + name.length) 0

/-- Make the parts of a path plain from the directory reached by `place`, whose names stand
latest first. -/
def makePlain (top : Entry) (links : Nat) (place : List Bytes) (parts : List Bytes) :
    Option (List Bytes) :=
  match parts with
  | [] => some place.reverse
  | part :: rest =>
      if part.isEmpty || part == Path.here then makePlain top links place rest
      else if part == Path.above then makePlain top links place.tail rest
      else if longestStorePath < pathLength (part :: place) then none
      else
        match top.look (part :: place).reverse with
        | .ok (.link target) =>
            match links with
            | 0 => none
            | links + 1 =>
                makePlain top links (startOf place target)
                  (Bytes.splitOn Bytes.slash target ++ rest)
        | .ok _ => makePlain top links (part :: place) rest
        | .error .missing => makePlain top links (part :: place) rest
        | .error _ => none
termination_by (links, parts.length)

/-- The names that lead to a store file. -/
def storeNames? (files : Files) (path : Bytes) : Option (List Bytes) :=
  makePlain files.top mostStoreLinks (startOf files.home.reverse path)
    (Bytes.splitOn Bytes.slash path)

/-- The entry at a list of names that is or will be a store file, which is made without
content if the address asks for that. -/
def claim (files : Files) (address : Address) (names : List Bytes) : Option (Entry × Files) :=
  match files.top.look names with
  | .ok entry => if entry.isDirectory then none else some (entry, files)
  | .error _ =>
      match files.top.look names.dropLast with
      | .ok (.directory _) =>
          if address.mode == .creating then
            some (.file [], files.put names (.file []))
          else none
      | _ => none

/-- The tables in a store file, and whether they have to be laid out first. -/
def tablesIn : Entry → Except StoreError (Tables × Bool)
  | .database tables =>
      if tables.version == Tables.currentVersion then .ok (tables, false)
      else .error (.version tables.version)
  | .file content => if content.length ≤ 1 then .ok (.empty, true) else .error .unreadable
  | _ => .error .unreadable

/-- Tables can be laid out in the file at a list of names. -/
def hasRoom (names : List Bytes) : Bool :=
  names.getLast?.all fun name => name.length ≤ longestStoreName

/-- Open the store file at the path of an address. -/
def openFile (files : Files) (address : Address) (path : Bytes) :
    Except StoreError PlacedTables × Files :=
  match (files.storeNames? path).bind fun names =>
      (files.claim address names).map fun claimed => (names, claimed) with
  | none => (.error .unreadable, files)
  | some (names, entry, files) =>
      match address.fault? with
      | some error => (.error (.address error), files)
      | none =>
          match tablesIn entry with
          | .error error => (.error error, files)
          | .ok (tables, false) => (.ok ⟨some names, tables, address.access⟩, files)
          | .ok (tables, true) =>
              if address.isWritable && hasRoom names then
                (.ok ⟨some names, tables, .everything⟩, files.put names (.database tables))
              else (.error .unreadable, files)

def openMemory (address : Address) : Except StoreError PlacedTables :=
  match address.fault? with
  | some error => .error (.address error)
  | none =>
      if address.isWritable then .ok ⟨none, .empty, .everything⟩ else .error .unreadable

/-- Open the tables at an address, in memory or in a file. -/
def openTables (files : Files) (text : Bytes) : Except StoreError PlacedTables × Files :=
  match Address.read text with
  | .error error => (.error (.address error), files)
  | .ok address =>
      match address.medium with
      | .memory => (openMemory address, files)
      | .file path => files.openFile address path

/-- Put tables back in their place. -/
def keepTables (files : Files) (placed : PlacedTables) : Files :=
  match placed.names with
  | some names => files.put names (.database placed.tables)
  | none => files

/-- Open the store at an address. -/
def openStore (files : Files) (text : Bytes) : Except StoreError PlacedStore × Files :=
  if text.isEmpty then (.error .noPath, files)
  else if text == memoryPath then (.ok ⟨none, .memory⟩, files)
  else
    match files.openTables text with
    | (.error error, files) => (.error error, files)
    | (.ok placed, files) => (.ok ⟨placed.names, .onFile placed.tables placed.access⟩, files)

/-- Put what a store recorded back in its place. -/
def keepStore (files : Files) (placed : PlacedStore) : Files :=
  match placed.names, placed.store.tables? with
  | some names, some tables => files.put names (.database tables)
  | _, _ => files

end Files

end Reroute
