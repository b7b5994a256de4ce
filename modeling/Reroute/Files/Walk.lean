import Reroute.Files.Tree

/-!
# Walking a file tree

The walk visits everything below a directory except the directories themselves, each
directory's members in the order of their names.  Directories can be passed over by name.

A walk starts at a path.  The members of the directory there are looked up once more by
their own paths, which are written in the shortest form.  If the path of the start goes up
behind a link, these lead elsewhere.
-/

namespace Reroute

/-- What the walk finds: the names on the way from the start, and the entry. -/
structure Leaf where
  names : List Bytes
  entry : Entry

namespace Entry

mutual

/-- The leaves of an entry that is reached by the given names, latest first. -/
def leavesFrom (passOver : Bytes → Bool) (names : List Bytes) : Entry → List Leaf
  | .directory entries => memberLeaves passOver names entries
  | entry => [⟨names.reverse, entry⟩]

/-- The leaves of the members of a directory. -/
def memberLeaves (passOver : Bytes → Bool) (names : List Bytes) :
    List (Bytes × Entry) → List Leaf
  | [] => []
  | (name, entry) :: entries =>
      (if entry.isDirectory && passOver name then []
        else leavesFrom passOver (name :: names) entry)
        ++ memberLeaves passOver names entries

end

/-- The leaves of an entry; directories below it are passed over by name. -/
def leaves (passOver : Bytes → Bool) (entry : Entry) : List Leaf :=
  entry.leavesFrom passOver []

end Entry

namespace Files

/-- The members of a directory, looked up by their own paths. -/
def lookUpMembers (files : Files) (start : Bytes) :
    List (Bytes × Entry) → Except FileError (List (Bytes × Entry))
  | [] => .ok []
  | (name, _) :: members =>
      match files.entryAt false (Path.join [start, name]) with
      | .error error => .error error
      | .ok entry =>
          match lookUpMembers files start members with
          | .error error => .error error
          | .ok others => .ok ((name, entry) :: others)

/-- What a walk from a path starts with. -/
def walkStart (files : Files) (start : Bytes) : Except FileError Entry :=
  match files.entryAt false start with
  | .ok (.directory members) => (files.lookUpMembers start members).map .directory
  | other => other

end Files

/-- The names of a leaf as a path relative to the start of the walk. -/
def Leaf.path (leaf : Leaf) : Bytes :=
  Bytes.join [Bytes.slash] leaf.names

end Reroute
