import Reroute.ChunkId
import Reroute.Files.Walk
import Reroute.Ignore.Basic
import Reroute.Text.Lowercase

/-!
# Finding chunk files

Chunk files are looked for below a directory.  Hidden files and directories, symbolic
links, files with other extensions, files that are too large, files that the ignore list
of the directory covers and binary files are passed over.  A root that is itself a file is
taken whatever its name.  The map of a chunk is the file beside it whose name has a suffix
more.

Files are handed over to readers through a queue that has to fit into memory.
-/

namespace Reroute

/-- What to look for, and where. -/
structure ChunkSearch where
  root : Bytes
  extensions : List Bytes
  mapSuffix : Bytes
  includeHidden : Bool
  maxFileSize : Int
  followLinks : Bool
  readers : Option Int
  deriving DecidableEq, Repr

/-- A chunk file and the map beside it. -/
structure ChunkFile where
  path : Bytes
  content : Bytes
  map : Option Bytes
  deriving DecidableEq, Repr

namespace ChunkFile

/-- The identifier of a chunk file. -/
def id (file : ChunkFile) : ChunkId :=
  ChunkId.ofContent file.content

/-- Where a chunk file came from. -/
def provenance (file : ChunkFile) : Provenance :=
  .file file.path

/-- The path of the map, empty if there is none. -/
def mapPath (file : ChunkFile) (suffix : Bytes) : Bytes :=
  if file.map.isSome then file.path ++ suffix else []

/-- Files in the order of their paths. -/
def sort (files : List ChunkFile) : List ChunkFile :=
  files.mergeSort fun left right => Bytes.notAfter left.path right.path

end ChunkFile

namespace ChunkSearch

/-- Why a search fails. -/
inductive Error where
  | root (path : Bytes)
  | walk
  | canceled
  | tooManyReaders
  | file (path : Bytes)
  | map (path : Bytes)
  deriving DecidableEq, Repr

def Error.message : Error → Bytes
  | .root path => utf8 "reading root " ++ path ++ utf8 ": " ++ FileError.missing.message
  | .walk => FileError.missing.message
  | .canceled => utf8 "context canceled"
  | .tooManyReaders => utf8 "the queue of files does not fit into memory"
  | .file path =>
      utf8 "failed to read file " ++ path ++ utf8 ": " ++ FileError.missing.message
  | .map path =>
      utf8 "failed to read source map " ++ path ++ utf8 ": " ++ FileError.missing.message

/-- The name is that of a hidden file or directory. -/
def isHidden (name : Bytes) : Bool :=
  name != Path.here && name != Path.above && name.head? == some Bytes.dot

/-- How much of a file is looked at to tell whether it is binary. -/
def probeLength : Nat := 8192

/-- The content has a zero byte near its start. -/
def isBinary (content : Bytes) : Bool :=
  (content.take probeLength).any (· == 0)

/-- The path has one of the extensions, whatever its case.  Without extensions every path
will do. -/
def hasExtension (search : ChunkSearch) (path : Bytes) : Bool :=
  search.extensions.isEmpty
    || search.extensions.any fun wanted =>
      (Path.extension path).lowercase == wanted.lowercase

/-- The size of an entry as listed; that of a link is the length of its target. -/
def listedSize : Entry → Nat
  | .file content => content.length
  | .database _ => Entry.databaseHeader.length
  | .link target => target.length
  | .directory _ => 0

/-- The entry is not larger than allowed. -/
def isWithinSize (search : ChunkSearch) (entry : Entry) : Bool :=
  search.maxFileSize ≤ 0 || decide ((listedSize entry : Int) ≤ search.maxFileSize)

/-- The entry is a symbolic link. -/
def isLink : Entry → Bool
  | .link _ => true
  | _ => false

/-- What the ignore list in the root directory says of paths; a list that cannot be read
ignores nothing. -/
def ignoredBy (search : ChunkSearch) (verdict : Ignore.Verdict) (files : Files) :
    Bytes → Bool :=
  match files.read (Path.join [search.root, utf8 ".gitignore"]) with
  | .ok text => verdict text
  | .error _ => fun _ => false

def pathOf (search : ChunkSearch) (leaf : Leaf) : Bytes :=
  if leaf.names.isEmpty then search.root else Path.join (search.root :: leaf.names)

def nameOf (search : ChunkSearch) (leaf : Leaf) : Bytes :=
  leaf.names.getLast?.getD (Path.base search.root)

/-- The path of a leaf relative to the root. -/
def relativePath (leaf : Leaf) : Bytes :=
  if leaf.names.isEmpty then Path.here else leaf.path

/-- The leaf is to be taken. -/
def selects (search : ChunkSearch) (ignored : Bytes → Bool) (leaf : Leaf) : Bool :=
  (search.followLinks || !isLink leaf.entry)
    && (search.includeHidden || !isHidden (search.nameOf leaf))
    && search.hasExtension (search.pathOf leaf)
    && search.isWithinSize leaf.entry
    && !ignored (relativePath leaf)

/-- The paths to take below a root directory.  Nothing is taken if the path of something
below it is too long. -/
def eligible (search : ChunkSearch) (verdict : Ignore.Verdict) (files : Files) :
    Except Error (List Bytes) :=
  match files.walkStart search.root with
  | .error _ => .error .walk
  | .ok entry =>
      let ignored := search.ignoredBy verdict files
      let leaves := entry.leaves fun name => !search.includeHidden && isHidden name
      if leaves.any fun leaf => Files.longestPath < (search.pathOf leaf).length then
        .error .walk
      else .ok ((leaves.filter (search.selects ignored)).map search.pathOf)

/-- The paths to take: those below a root directory, or the root itself. -/
def candidates (search : ChunkSearch) (verdict : Ignore.Verdict) (files : Files)
    (root : Entry) : Except Error (List Bytes) :=
  if root.isDirectory then search.eligible verdict files else .ok [search.root]

/-- The largest number of readers whose queue, with two places of sixteen bytes for each
of them, fits into an address space of `2 ^ 48` bytes. -/
def mostReaders : Int := 8796093022204

/-- Read a chunk file; a binary one is passed over. -/
def readFile (search : ChunkSearch) (files : Files) (path : Bytes) :
    Except Error (Option ChunkFile) :=
  match files.read path with
  | .error _ => .error (.file path)
  | .ok content =>
      if isBinary content then .ok none
      else if search.mapSuffix.isEmpty then .ok (some ⟨path, content, none⟩)
      else
        match files.read (path ++ search.mapSuffix) with
        | .ok map => .ok (some ⟨path, content, some map⟩)
        | .error .missing => .ok (some ⟨path, content, none⟩)
        | .error _ => .error (.map (path ++ search.mapSuffix))

/-- Read chunk files in order. -/
def readFiles (search : ChunkSearch) (files : Files) :
    List Bytes → Except Error (List ChunkFile)
  | [] => .ok []
  | path :: paths =>
      match search.readFile files path with
      | .error error => .error error
      | .ok found =>
          match readFiles search files paths with
          | .error error => .error error
          | .ok others => .ok (found.toList ++ others)

/-- Look for chunk files, with a way to read ignore lists. -/
def runBy (search : ChunkSearch) (verdict : Ignore.Verdict) (files : Files)
    (canceled : Bool) : Except Error (List ChunkFile) :=
  match files.stat search.root with
  | .error _ => .error (.root search.root)
  | .ok entry =>
      if canceled then .error .canceled
      else
        match search.candidates verdict files entry with
        | .error error => .error error
        | .ok paths =>
            if search.readers.any fun readers => mostReaders < readers then
              .error .tooManyReaders
            else search.readFiles files paths

/-- Look for chunk files. -/
def run (search : ChunkSearch) (files : Files) (canceled : Bool) :
    Except Error (List ChunkFile) :=
  search.runBy Ignore.verdict files canceled

end ChunkSearch

end Reroute
