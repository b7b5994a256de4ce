import Reroute.Files.Walk

/-!
# Differences between file trees

The difference between a tree and a later one is the list of leaves that were written
and of leaves that are gone.  Directories show only through what lies in them.
-/

namespace Reroute

/-- Two leaves hold the same. -/
def Entry.holdsSame : Entry → Entry → Bool
  | .file first, .file second => first == second
  | .database first, .database second => first == second
  | .link first, .link second => first == second
  | _, _ => false

/-- A leaf that was written, or is gone, at a path from the top. -/
structure Change where
  path : Bytes
  entry? : Option Entry

namespace Files

def leaves (files : Files) : List Leaf :=
  files.top.leaves fun _ => false

def pathOf (leaf : Leaf) : Bytes :=
  Bytes.slash :: leaf.path

/-- The leaf is among some leaves, and holds the same there. -/
def isKept (leaf : Leaf) (leaves : List Leaf) : Bool :=
  leaves.any fun other => other.names == leaf.names && other.entry.holdsSame leaf.entry

/-- The leaves that were written between a tree and a later one, and those that are
gone. -/
def changes (before after : Files) : List Change :=
  ((after.leaves.filter fun leaf => !isKept leaf before.leaves).map fun leaf =>
      ⟨pathOf leaf, some leaf.entry⟩)
    ++ (before.leaves.filter fun leaf =>
        !after.leaves.any fun other => other.names == leaf.names).map fun leaf =>
      ⟨pathOf leaf, none⟩

end Files

end Reroute
