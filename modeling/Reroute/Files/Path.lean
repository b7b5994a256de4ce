import Reroute.Bytes

/-!
# Paths

Paths as texts whose parts are divided by slashes, and the operations on them that look
at the text alone.
-/

namespace Reroute.Path

/-- The part that stands for the directory itself. -/
def here : Bytes :=
  [Bytes.dot]

/-- The part that stands for the directory above. -/
def above : Bytes :=
  [Bytes.dot, Bytes.dot]

/-- The path starts at the top of the file system. -/
def isRooted (path : Bytes) : Bool :=
  path.head? == some Bytes.slash

/-- Take one part into a shortest path, whose parts stand latest first. -/
def step (rooted : Bool) (done : List Bytes) (part : Bytes) : List Bytes :=
  if part.isEmpty || part == here then done
  else if part == above then
    match done with
    | [] => if rooted then [] else [above]
    | last :: earlier => if last == above then above :: done else earlier
  else part :: done

/-- The shortest path that reads the same: no empty parts, no parts that stay, and parts
that go up only at the start. -/
def clean (path : Bytes) : Bytes :=
  let rooted := isRooted path
  let parts := ((Bytes.splitOn Bytes.slash path).foldl (step rooted) []).reverse
  let body := Bytes.join [Bytes.slash] parts
  if rooted then Bytes.slash :: body
  else if parts.isEmpty then here
  else body

/-- Put paths one behind the other; empty ones do not count. -/
def join (paths : List Bytes) : Bytes :=
  let kept := paths.filter fun path => !path.isEmpty
  if kept.isEmpty then [] else clean (Bytes.join [Bytes.slash] kept)

/-- The path up to and including its last slash, and what follows. -/
def split (path : Bytes) : Bytes × Bytes :=
  let last := (path.reverse.takeWhile (· != Bytes.slash)).reverse
  (path.take (path.length - last.length), last)

/-- The directory that a path names a member of. -/
def directory (path : Bytes) : Bytes :=
  clean (split path).1

/-- The last part of a path. -/
def base (path : Bytes) : Bytes :=
  if path.isEmpty then here
  else
    let trimmed := Bytes.trimTail (· == Bytes.slash) path
    if trimmed.isEmpty then [Bytes.slash] else (split trimmed).2

/-- What follows a path in another one that it leads to. -/
def below? (path other : Bytes) : Option Bytes :=
  let top := [Bytes.slash]
  if clean path == here then some (clean other)
  else if clean path == top then Bytes.cutHead? top (clean other)
  else Bytes.cutHead? (clean path ++ top) (clean other)

/-- The part of a name from its last dot on; empty if the name has no dot. -/
def extensionOf (name : Bytes) : Bytes :=
  let tail := (name.reverse.takeWhile (· != Bytes.dot)).reverse
  if tail.length == name.length then [] else Bytes.dot :: tail

/-- The extension of the last part of a path. -/
def extension (path : Bytes) : Bytes :=
  extensionOf (split path).2

end Reroute.Path
