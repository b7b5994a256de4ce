import Reroute.Files.Path
import Reroute.Store.Tables

/-!
# File trees

A directory with everything below it.  A tree holds files, store files, symbolic links
and directories; the entries of a directory are kept in the order of their names.

Paths are followed through symbolic links, from the top of the tree if they are rooted, and
otherwise from the working directory.  Above the top there is nothing but the top itself.
Names and paths have a limited length, and only so many links are followed.
-/

namespace Reroute

/-- A member of a directory. -/
inductive Entry where
  | file (content : Bytes)
  | database (tables : Tables)
  | link (target : Bytes)
  | directory (entries : List (Bytes × Entry))
  deriving Inhabited

/-- Why a file operation fails. -/
inductive FileError where
  | missing
  | notDirectory
  | isDirectory
  | tooManyLinks
  | nameTooLong
  | exists
  | malformedPath
  deriving DecidableEq, Repr

def FileError.message : FileError → Bytes
  | _ => utf8 "<os>"

namespace Entry

/-- The first bytes of every store file. -/
def databaseHeader : Bytes :=
  utf8 "SQLite format 3" ++ [0]

/-- What reading a file gives.  Of a store file only the header is known. -/
def content? : Entry → Option Bytes
  | .file content => some content
  | .database _ => some databaseHeader
  | _ => none

def isDirectory : Entry → Bool
  | .directory _ => true
  | _ => false

/-- The member of a directory with a name. -/
def member? (name : Bytes) : Entry → Option Entry
  | .directory entries => (entries.find? fun entry => entry.1 == name).map Prod.snd
  | _ => none

/-- Put a member among the entries of a directory, in place of one with its name. -/
def insertMember (name : Bytes) (entry : Entry) : List (Bytes × Entry) → List (Bytes × Entry)
  | [] => [(name, entry)]
  | (other, found) :: entries =>
      if name == other then (name, entry) :: entries
      else if Bytes.before name other then (name, entry) :: (other, found) :: entries
      else (other, found) :: insertMember name entry entries

/-- The entry at the end of a list of names. -/
def descend (entry : Entry) : List Bytes → Option Entry
  | [] => some entry
  | name :: names =>
      match entry.member? name with
      | some inner => inner.descend names
      | none => none

/-- Put an entry at the end of a list of names, of which all but the last are
directories. -/
def putAt (entry : Entry) (new : Entry) : List Bytes → Entry
  | [] => new
  | name :: names =>
      match entry with
      | .directory entries =>
          .directory
            (insertMember name (((entry.member? name).getD (.directory [])).putAt new names)
              entries)
      | _ => entry

end Entry

/-- A file tree, and the names that lead from its top to the working directory. -/
structure Files where
  top : Entry
  home : List Bytes

namespace Files

/-- A tree with nothing in it but the working directory. -/
def emptyAt (home : List Bytes) : Files :=
  ⟨(Entry.directory []).putAt (.directory []) home, home⟩

/-- Where following a path leads: the names on the way and the entry there, or the place
for an entry that does not exist. -/
inductive Reached where
  | found (names : List Bytes) (entry : Entry)
  | free (names : List Bytes)

/-- The most symbolic links that are followed on the way to one entry. -/
def mostLinks : Nat := 40

/-- The longest name of an entry, in bytes. -/
def longestName : Nat := 255

/-- The longest path, in bytes. -/
def longestPath : Nat := 4095

/-- Where a path is followed from, if it stands at a place. -/
def startOf (place : List Bytes) (path : Bytes) : List Bytes :=
  if Path.isRooted path then [] else place

/-- Follow parts of a path from the directory reached by `place`, whose names stand
latest first.  The last entry is followed too if it is a link and `followLast` holds. -/
def follow (top : Entry) (followLast : Bool) (links : Nat) (place : List Bytes)
    (parts : List Bytes) : Except FileError Reached :=
  match parts with
  | [] =>
      match top.descend place.reverse with
      | some entry => .ok (.found place.reverse entry)
      | none => .error .missing
  | part :: rest =>
      if part.isEmpty || part == Path.here then follow top followLast links place rest
      else if part == Path.above then follow top followLast links place.tail rest
      else if longestName < part.length then .error .nameTooLong
      else
        match (top.descend place.reverse).bind (Entry.member? part) with
        | none =>
            if rest.all List.isEmpty then .ok (.free (part :: place).reverse)
            else .error .missing
        | some (.link target) =>
            if rest.isEmpty && !followLast then
              .ok (.found (part :: place).reverse (.link target))
            else if target.isEmpty then .error .missing
            else
              match links with
              | 0 => .error .tooManyLinks
              | links + 1 =>
                  follow top followLast links (startOf place target)
                    (Bytes.splitOn Bytes.slash target ++ rest)
        | some (.directory _) => follow top followLast links (part :: place) rest
        | some entry =>
            if rest.isEmpty then .ok (.found (part :: place).reverse entry)
            else .error .notDirectory
termination_by (links, parts.length)

/-- Follow a path. -/
def reach (files : Files) (followLast : Bool) (path : Bytes) : Except FileError Reached :=
  if path.any (· == 0) then .error .malformedPath
  else if longestPath < path.length then .error .nameTooLong
  else if path.isEmpty then .error .missing
  else
    follow files.top followLast mostLinks (startOf files.home.reverse path)
      (Bytes.splitOn Bytes.slash path)

def entryAt (files : Files) (followLast : Bool) (path : Bytes) : Except FileError Entry :=
  match files.reach followLast path with
  | .ok (.found _ entry) => .ok entry
  | .ok (.free _) => .error .missing
  | .error error => .error error

/-- The entry at a path, links followed. -/
def stat (files : Files) (path : Bytes) : Except FileError Entry :=
  files.entryAt true path

def read (files : Files) (path : Bytes) : Except FileError Bytes :=
  match files.stat path with
  | .error error => .error error
  | .ok entry =>
      match entry.content? with
      | some content => .ok content
      | none => .error .isDirectory

/-- Put an entry at a list of names. -/
def put (files : Files) (names : List Bytes) (entry : Entry) : Files :=
  { files with top := files.top.putAt entry names }

/-- The path can only be that of a directory. -/
def namesDirectory (path : Bytes) : Bool :=
  path.getLast? == some Bytes.slash

/-- Write a file, whose directory has to exist. -/
def write (files : Files) (path content : Bytes) : Except FileError Files :=
  match files.reach true path with
  | .error error => .error error
  | .ok (.free names) =>
      if namesDirectory path then .error .isDirectory
      else .ok (files.put names (.file content))
  | .ok (.found names entry) =>
      if entry.isDirectory then .error .isDirectory
      else .ok (files.put names (.file content))

/-- Make a directory where there is nothing, not even a link. -/
def makeDirectory (files : Files) (path : Bytes) : Except FileError Files :=
  match files.reach false path with
  | .error error => .error error
  | .ok (.free names) => .ok (files.put names (.directory []))
  | .ok (.found _ _) => .error .exists

/-- Make the directories at the given paths, each inside the one before it, as far as
they do not exist. -/
def makeEach : List Bytes → Files → Except FileError Files
  | [], files => .ok files
  | path :: paths, files =>
      match files.stat path with
      | .ok entry => if entry.isDirectory then makeEach paths files else .error .notDirectory
      | .error _ =>
          match files.makeDirectory path with
          | .ok files => makeEach paths files
          | .error error => .error error

/-- The paths that lead to a path, itself included. -/
def approaches (path : Bytes) : List Bytes :=
  let parts := Bytes.splitOn Bytes.slash path
  let paths :=
    (List.range parts.length).map fun count =>
      Bytes.join [Bytes.slash] (parts.take (count + 1))
  if Path.isRooted path then paths.drop 1 else paths

/-- Make a directory and those it lies in, as far as they do not exist. -/
def makeDirectories (files : Files) (path : Bytes) : Except FileError Files :=
  makeEach (approaches path) files

/-- Put an entry at a path of a tree under construction, with the directories it lies
in.  An existing directory is kept where another one is put. -/
def place (files : Files) (path : Bytes) (entry : Entry) : Files :=
  match files.makeDirectories (Path.directory path) with
  | .error _ => files
  | .ok files =>
      match files.reach true path with
      | .error _ => files
      | .ok (.free names) => files.put names entry
      | .ok (.found names found) =>
          if found.isDirectory && entry.isDirectory then files else files.put names entry

end Files

end Reroute
