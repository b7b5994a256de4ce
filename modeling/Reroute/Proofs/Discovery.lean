import Mathlib
import Reroute.Discovery
import Reroute.Proofs.CommandLine.Destinations
import Reroute.Proofs.Files.Following

/-!
# What is found below a directory

A walk through a proper directory comes to exactly the entries below it that are no directories
and lie in none that is passed over.  A search takes those that are wanted and reads them.  In a
directory that can be read, each wanted file is found once, and nothing else is.

A search fails if a file cannot be read, and so does it where the system refuses to look for a
map: a name that is too long with the suffix of maps is no name of a file, but it is not taken
for a missing one either.
-/

namespace Reroute

/-! ### The extension of a path -/

namespace Path

/-- The last part of a path is its last name. -/
theorem split_names (root : Bytes) (names : List Bytes) {last : Bytes}
    (inside : Bytes.slash ∉ last) :
    (split (lead root ++ Bytes.join [Bytes.slash] (names ++ [last]))).2 = last := by
  have joined : lead root ++ Bytes.join [Bytes.slash] (names ++ [last]) =
      (lead root ++ names.flatMap fun part => part ++ [Bytes.slash]) ++ last := by
    rw [Bytes.join_append names (List.cons_ne_nil last []), List.append_assoc]
    simp [Bytes.join]
  have ended : ∀ front : List Bytes, ∀ start : Bytes, start = [] ∨ start = [Bytes.slash] →
      (start ++ front.flatMap fun part => part ++ [Bytes.slash]).reverse.takeWhile
        (· != Bytes.slash) = [] := by
    intro front start given
    rcases List.eq_nil_or_concat front with rfl | ⟨before, part, rfl⟩
    · rcases given with rfl | rfl
      · rfl
      · rfl
    · simp
  have lead := ended (parts root ++ names) (if isRooted root then [Bytes.slash] else [])
    (by cases isRooted root with
      | true => exact .inr rfl
      | false => exact .inl rfl)
  rw [List.flatMap_append, ← List.append_assoc] at lead
  rw [joined, split]
  dsimp only
  rw [List.reverse_append, takeWhile_append_of_not_mem (by simpa using inside)]
  change (last.reverse ++ (Path.lead root ++ _).reverse.takeWhile _).reverse = last
  rw [Path.lead, lead, List.append_nil, List.reverse_reverse]

end Path

namespace ChunkSearch

/-! ### The ignore list of the root -/

section

variable {search : ChunkSearch} {verdict : Ignore.Verdict} {files : Files}
  {members : List (Bytes × Entry)} (readable : files.Readable search.root members)

include readable

/-- Without an ignore list in the root nothing is ignored. -/
theorem ignored_of_absent
    (absent : (Entry.directory members).descend [utf8 ".gitignore"] = none) :
    search.ignoredBy verdict files = fun _ => false := by
  have proper : Path.Proper (utf8 ".gitignore") := ⟨by decide, by decide, by decide, by decide⟩
  have taken : Files.Taken (utf8 ".gitignore") := ⟨proper, by decide, by decide⟩
  have led : (Entry.directory members).descend [] = some (.directory members) := rfl
  obtain ⟨dir, way⟩ := readable.exists_way
  have path : Path.join [search.root, utf8 ".gitignore"] =
      Path.lead search.root ++ Bytes.join [Bytes.slash] ([] ++ [utf8 ".gitignore"]) := by
    apply Path.join_names (List.cons_ne_nil _ []) way.given
    intro name member
    rwa [List.mem_singleton.mp member]
  rw [ignoredBy, path, Files.read, Files.stat]
  by_cases fits : (Path.lead search.root ++
      Bytes.join [Bytes.slash] ([] ++ [utf8 ".gitignore"])).length ≤ Files.longestPath
  · rw [way.entryAt_missing led (List.forall_mem_nil _) taken fits absent]
  · rw [way.entryAt_long led (List.forall_mem_nil _) proper taken.clear
      (.inr (Nat.not_le.mp fits))]

end

/-! ### Files that are wanted -/

theorem isHidden_iff {name : Bytes} (proper : Path.Proper name) :
    isHidden name = true ↔ name.head? = some Bytes.dot := by
  simp [isHidden, proper.notHere, proper.notAbove]

theorem isBinary_eq_false_iff (content : Bytes) :
    isBinary content = false ↔ 0 ∉ content.take probeLength := by
  rw [isBinary, List.any_eq_false]
  constructor
  · intro clear zero
    exact clear 0 zero rfl
  · intro clear byte member zero
    obtain rfl := beq_iff_eq.mp zero
    exact clear member

theorem listedSize_of_content? {entry : Entry} {content : Bytes}
    (holds : entry.content? = some content) : listedSize entry = content.length := by
  cases entry with
  | file text =>
      obtain rfl := Option.some.inj holds
      rfl
  | database tables =>
      obtain rfl := Option.some.inj holds
      rfl
  | link target => cases holds
  | directory entries => cases holds

/-- A file that a search is for, by the names below the root and the content. -/
structure Eligible (search : ChunkSearch) (verdict : Ignore.Verdict) (files : Files)
    (members : List (Bytes × Entry)) (names : List Bytes) (content : Bytes) : Prop where
  found : ∃ entry, (Entry.directory members).descend names = some entry ∧
    entry.content? = some content
  visible : search.includeHidden = true ∨ ∀ name ∈ names, name.head? ≠ some Bytes.dot
  extension : search.extensions = [] ∨ ∃ wanted ∈ search.extensions,
    (Path.extensionOf (names.getLastD [])).lowercase = wanted.lowercase
  size : 0 < search.maxFileSize → (content.length : Int) ≤ search.maxFileSize
  kept : search.ignoredBy verdict files (Bytes.join [Bytes.slash] names) = false
  text : 0 ∉ content.take probeLength

/-- The leaves below the root that are to be taken. -/
def wanted (search : ChunkSearch) (verdict : Ignore.Verdict) (files : Files)
    (members : List (Bytes × Entry)) : List Leaf :=
  ((Entry.directory members).leaves fun name => !search.includeHidden && isHidden name).filter
    (search.selects (search.ignoredBy verdict files))

variable {search : ChunkSearch} {verdict : Ignore.Verdict} {files : Files}
  {members : List (Bytes × Entry)}

theorem names_of_mem_wanted (readable : files.Readable search.root members) {leaf : Leaf}
    (member : leaf ∈ search.wanted verdict files members) :
    leaf.names ≠ [] ∧ (∀ name ∈ leaf.names, Path.Proper name) ∧
      (Entry.directory members).descend leaf.names = some leaf.entry := by
  obtain ⟨listed, -⟩ := List.mem_filter.mp member
  obtain ⟨nonempty, proper⟩ := (readable.proper.leaves _).2 leaf listed
  exact ⟨nonempty, proper, ((readable.proper.mem_leaves_iff _ leaf).mp listed).1⟩

theorem pathOf_of_mem_wanted (readable : files.Readable search.root members) {leaf : Leaf}
    (member : leaf ∈ search.wanted verdict files members) :
    search.pathOf leaf = Path.join (search.root :: leaf.names) := by
  rw [pathOf, if_neg]
  simpa using (names_of_mem_wanted readable member).1

/-- A search takes the wanted leaves. -/
theorem eligible_eq (readable : files.Readable search.root members) :
    search.eligible verdict files =
      .ok ((search.wanted verdict files members).map search.pathOf) := by
  have fits : (((Entry.directory members).leaves
      fun name => !search.includeHidden && isHidden name).any fun leaf =>
        Files.longestPath < (search.pathOf leaf).length) = false := by
    rw [List.any_eq_false]
    intro leaf listed long
    have nonempty := ((readable.proper.leaves _).2 leaf listed).1
    have found := ((readable.proper.mem_leaves_iff _ leaf).mp listed).1
    have short := readable.short leaf.names leaf.entry found
    rw [decide_eq_true_iff, pathOf, if_neg (by simpa using nonempty)] at long
    omega
  rw [eligible, readable.walkStart_eq]
  dsimp only
  rw [fits]
  rfl

theorem selects_iff (readable : files.Readable search.root members)
    (noLinks : search.followLinks = false) {names : List Bytes} {entry : Entry}
    {content : Bytes} (nonempty : names ≠ [])
    (found : (Entry.directory members).descend names = some entry)
    (holds : entry.content? = some content) (ignored : Bytes → Bool) :
    search.selects ignored ⟨names, entry⟩ = true ↔
      (search.includeHidden = true ∨ (names.getLastD []).head? ≠ some Bytes.dot) ∧
      (search.extensions = [] ∨ ∃ wanted ∈ search.extensions,
        (Path.extensionOf (names.getLastD [])).lowercase = wanted.lowercase) ∧
      (0 < search.maxFileSize → (content.length : Int) ≤ search.maxFileSize) ∧
      ignored (Bytes.join [Bytes.slash] names) = false := by
  have proper := readable.proper.of_descend found
  have given := Files.ne_nil_of_entryAt readable.here
  obtain ⟨front, last, rfl⟩ := (List.eq_nil_or_concat names).resolve_left nonempty
  rw [List.concat_eq_append] at *
  have lastProper := proper last (by simp)
  have noLink : isLink entry = false := by
    cases entry with
    | link target => cases holds
    | _ => rfl
  have extension : Path.extension (search.pathOf ⟨front ++ [last], entry⟩) =
      Path.extensionOf last := by
    rw [pathOf_eq given nonempty proper, Path.extension, Path.split_names _ _ lastProper.inside]
  have named : search.nameOf ⟨front ++ [last], entry⟩ = last := by
    simp [nameOf]
  have relative : relativePath ⟨front ++ [last], entry⟩ =
      Bytes.join [Bytes.slash] (front ++ [last]) := by
    simp [relativePath, Leaf.path]
  have lastOf : (front ++ [last]).getLastD [] = last := by simp
  rw [selects, noLinks, noLink, named, hasExtension, extension, isWithinSize,
    listedSize_of_content? holds, relative, lastOf, Ne, ← isHidden_iff lastProper]
  simp only [Bool.not_false, Bool.or_true, Bool.true_and, Bool.and_eq_true, Bool.or_eq_true,
    Bool.not_eq_true', Bool.not_eq_true, List.isEmpty_iff, List.any_eq_true, beq_iff_eq,
    decide_eq_true_eq, and_assoc]
  have size : search.maxFileSize ≤ 0 ∨ (content.length : Int) ≤ search.maxFileSize ↔
      (0 < search.maxFileSize → (content.length : Int) ≤ search.maxFileSize) := by
    omega
  rw [size]

/-- A file is eligible if it is a wanted leaf and has no zero byte near its start. -/
theorem eligible_iff (readable : files.Readable search.root members)
    (noLinks : search.followLinks = false) (names : List Bytes) (content : Bytes) :
    search.Eligible verdict files members names content ↔
      ∃ leaf ∈ search.wanted verdict files members, leaf.names = names ∧
        leaf.entry.content? = some content ∧ isBinary content = false := by
  have plain {entry : Entry} (holds : entry.content? = some content) :
      entry.isDirectory = false := by
    cases entry with
    | directory entries => cases holds
    | _ => rfl
  constructor
  · rintro ⟨⟨entry, found, holds⟩, visible, extension, size, kept, text⟩
    have nonempty : names ≠ [] := by
      rintro rfl
      rw [← Option.some.inj found] at holds
      cases holds
    have proper := readable.proper.of_descend found
    refine ⟨⟨names, entry⟩, List.mem_filter.mpr ⟨?_, ?_⟩, rfl, holds,
      (isBinary_eq_false_iff content).mpr text⟩
    · apply (readable.proper.mem_leaves_iff _ _).mpr
      refine ⟨found, plain holds, ?_⟩
      intro name member
      rcases visible with all | shown
      · rw [all]
        rfl
      · have among := List.mem_of_mem_dropLast member
        rw [Bool.and_eq_false_iff, ← Bool.not_eq_true (isHidden name),
          isHidden_iff (proper name among)]
        exact .inr (shown name among)
    · apply (selects_iff readable noLinks nonempty found holds _).mpr
      refine ⟨?_, extension, size, kept⟩
      apply visible.imp_right
      intro shown
      apply shown
      obtain ⟨front, last, rfl⟩ := (List.eq_nil_or_concat names).resolve_left nonempty
      simp
  · rintro ⟨⟨names, entry⟩, member, rfl, holds, binary⟩
    obtain ⟨nonempty, proper, found⟩ := names_of_mem_wanted readable member
    obtain ⟨listed, selected⟩ := List.mem_filter.mp member
    obtain ⟨visible, extension, size, kept⟩ :=
      (selects_iff readable noLinks nonempty found holds _).mp selected
    refine ⟨⟨entry, found, holds⟩, ?_, extension, size, kept,
      (isBinary_eq_false_iff content).mp binary⟩
    have visited := ((readable.proper.mem_leaves_iff _ _).mp listed).2.2
    rcases visible with all | shown
    · exact .inl all
    · by_cases all : search.includeHidden = true
      · exact .inl all
      · right
        obtain ⟨front, last, rfl⟩ := (List.eq_nil_or_concat names).resolve_left nonempty
        simp only [List.concat_eq_append, List.dropLast_concat, List.getLastD_concat]
          at visited shown proper ⊢
        rw [List.forall_mem_append]
        constructor
        · intro name among
          have passed := visited name among
          rw [Bool.not_eq_true] at all
          rw [all, Bool.not_false, Bool.true_and, ← Bool.not_eq_true,
            isHidden_iff (proper name (List.mem_append_left _ among))] at passed
          exact passed
        · intro name own
          rwa [List.mem_singleton.mp own]

/-! ### Reading files and maps -/

/-- It can be told whether there is a map beside a file: none is looked for, it is read, or it is
missing. -/
def MapKnown (search : ChunkSearch) (files : Files) (path : Bytes) : Prop :=
  search.mapSuffix = [] ∨ (∃ map, files.read (path ++ search.mapSuffix) = .ok map) ∨
    files.read (path ++ search.mapSuffix) = .error .missing

/-- The content of the map beside a file, if there is one. -/
def mapBeside (search : ChunkSearch) (files : Files) (path : Bytes) : Option Bytes :=
  if search.mapSuffix = [] then none else (files.read (path ++ search.mapSuffix)).toOption

section

variable {path content : Bytes} (read : files.read path = .ok content)

include read

theorem readFile_of_binary (binary : isBinary content = true) :
    search.readFile files path = .ok none := by
  rw [readFile, read]
  dsimp only
  rw [binary, if_pos rfl]

theorem readFile_of_known (text : isBinary content = false) (known : search.MapKnown files path) :
    search.readFile files path = .ok (some ⟨path, content, search.mapBeside files path⟩) := by
  rw [readFile, read]
  dsimp only
  rw [text, if_neg Bool.false_ne_true, mapBeside]
  by_cases bare : search.mapSuffix = []
  · rw [if_pos bare, if_pos (List.isEmpty_iff.mpr bare)]
  · rw [if_neg bare, if_neg (by simpa using bare)]
    rcases known.resolve_left bare with ⟨map, found⟩ | missing
    · rw [found]
      rfl
    · rw [missing]
      rfl

theorem readFile_of_unknown (text : isBinary content = false)
    (unknown : ¬search.MapKnown files path) :
    search.readFile files path = .error (.map (path ++ search.mapSuffix)) := by
  obtain ⟨bare, unread, present⟩ : search.mapSuffix ≠ [] ∧
      (¬∃ map, files.read (path ++ search.mapSuffix) = .ok map) ∧
      files.read (path ++ search.mapSuffix) ≠ .error .missing := by
    simpa only [MapKnown, not_or] using unknown
  rw [readFile, read]
  dsimp only
  rw [text, if_neg Bool.false_ne_true, if_neg (by simpa using bare)]
  split
  · next map found => exact absurd ⟨map, found⟩ unread
  · next missing => exact absurd missing present
  · rfl

theorem exists_readFile_iff :
    (∃ answer, search.readFile files path = .ok answer) ↔
      (isBinary content = false → search.MapKnown files path) := by
  cases binary : isBinary content with
  | true =>
      rw [readFile_of_binary read binary]
      simp
  | false =>
      by_cases known : search.MapKnown files path
      · rw [readFile_of_known read binary known]
        simp [known]
      · rw [readFile_of_unknown read binary known]
        simp [known]

theorem readFile_eq_some_iff {file : ChunkFile} :
    search.readFile files path = .ok (some file) ↔
      isBinary content = false ∧ search.MapKnown files path ∧
        file = ⟨path, content, search.mapBeside files path⟩ := by
  cases binary : isBinary content with
  | true =>
      rw [readFile_of_binary read binary]
      simp
  | false =>
      by_cases known : search.MapKnown files path
      · rw [readFile_of_known read binary known]
        simp [known, eq_comm]
      · rw [readFile_of_unknown read binary known]
        simp [known]

end

theorem exists_readFiles_iff {paths : List Bytes} :
    (∃ found, search.readFiles files paths = .ok found) ↔
      ∀ path ∈ paths, ∃ answer, search.readFile files path = .ok answer := by
  induction paths with
  | nil => simp [readFiles]
  | cons path paths induction =>
      rw [readFiles, List.forall_mem_cons, ← induction]
      cases search.readFile files path with
      | error error => simp
      | ok answer =>
          cases search.readFiles files paths with
          | error error => simp
          | ok found => simp

theorem mem_of_readFiles {paths : List Bytes} {found : List ChunkFile}
    (answered : search.readFiles files paths = .ok found) (file : ChunkFile) :
    file ∈ found ↔ ∃ path ∈ paths, search.readFile files path = .ok (some file) := by
  induction paths generalizing found with
  | nil =>
      cases answered
      simp
  | cons path paths induction =>
      rw [readFiles] at answered
      split at answered
      · cases answered
      · next answer read =>
          split at answered
          · cases answered
          · next others rest =>
              cases answered
              rw [List.mem_append, induction rest, List.exists_mem_cons_iff, read]
              cases answer with
              | none => simp
              | some own => simp [eq_comm]

/-- In a directory that can be read, a search reads what is wanted, if its queue fits. -/
theorem run_eq (readable : files.Readable search.root members) :
    search.runBy verdict files false =
      if search.readers.any fun readers => mostReaders < readers then .error .tooManyReaders
      else search.readFiles files ((search.wanted verdict files members).map search.pathOf) := by
  rw [runBy, Files.stat_of_entryAt readable.here]
  dsimp only
  rw [if_neg Bool.false_ne_true, candidates,
    if_pos (show (Entry.directory members).isDirectory = true from rfl), eligible_eq readable]

theorem read_wanted (readable : files.Readable search.root members) {leaf : Leaf}
    (member : leaf ∈ search.wanted verdict files members) {content : Bytes}
    (holds : leaf.entry.content? = some content) :
    files.read (search.pathOf leaf) = .ok content := by
  obtain ⟨nonempty, -, found⟩ := names_of_mem_wanted readable member
  rw [pathOf_of_mem_wanted readable member]
  exact readable.read_below nonempty found holds

/-- Without links only files are wanted. -/
theorem exists_content (readable : files.Readable search.root members)
    (noLinks : search.followLinks = false) {leaf : Leaf}
    (member : leaf ∈ search.wanted verdict files members) :
    ∃ content, leaf.entry.content? = some content := by
  obtain ⟨listed, selected⟩ := List.mem_filter.mp member
  have plain := ((readable.proper.mem_leaves_iff _ leaf).mp listed).2.1
  simp only [selects, noLinks, Bool.false_or, Bool.and_eq_true] at selected
  have noLink := selected.1.1.1.1
  cases entry : leaf.entry with
  | file content => exact ⟨content, rfl⟩
  | database tables => exact ⟨_, rfl⟩
  | link target =>
      rw [entry] at noLink
      cases noLink
  | directory entries =>
      rw [entry] at plain
      cases plain

/-! ### Maps beside files -/

/-- The names of the map beside a file. -/
def mapNames (search : ChunkSearch) (names : List Bytes) : List Bytes :=
  names.dropLast ++ [names.getLastD [] ++ search.mapSuffix]

/-- The system takes the name and the path of the map beside a file. -/
structure MapFits (search : ChunkSearch) (names : List Bytes) : Prop where
  name : (names.getLastD [] ++ search.mapSuffix).length ≤ Files.longestName
  path : (Path.join (search.root :: names) ++ search.mapSuffix).length ≤ Files.longestPath

/-- The suffix of maps stays within a name. -/
structure PlainSuffix (suffix : Bytes) : Prop where
  inside : Bytes.slash ∉ suffix
  clear : 0 ∉ suffix

theorem PlainSuffix.proper {suffix name : Bytes} (plain : PlainSuffix suffix)
    (proper : Path.Proper name) : Path.Proper (name ++ suffix) := by
  obtain ⟨nonempty, inside, notHere, notAbove⟩ := proper
  obtain ⟨byte, rest, rfl⟩ := List.exists_cons_of_ne_nil nonempty
  constructor
  · exact List.cons_ne_nil _ _
  · rw [List.mem_append, not_or]
    exact ⟨inside, plain.inside⟩
  · intro same
    obtain ⟨rfl, empty⟩ := List.cons.inj same
    obtain ⟨rfl, -⟩ := List.append_eq_nil_iff.mp empty
    exact notHere rfl
  · intro same
    obtain ⟨rfl, single⟩ := List.cons.inj same
    rcases List.append_eq_singleton_iff.mp single with ⟨rfl, -⟩ | ⟨rfl, -⟩
    · exact notHere rfl
    · exact notAbove rfl

theorem map_path (readable : files.Readable search.root members) {names : List Bytes}
    {entry : Entry} (nonempty : names ≠ [])
    (found : (Entry.directory members).descend names = some entry) :
    Path.join (search.root :: names) ++ search.mapSuffix =
      Path.lead search.root ++ Bytes.join [Bytes.slash] (search.mapNames names) := by
  rw [readable.join_root nonempty found, mapNames]
  obtain ⟨front, last, rfl⟩ := (List.eq_nil_or_concat names).resolve_left nonempty
  rw [List.concat_eq_append, List.dropLast_concat, List.getLastD_concat,
    Bytes.join_append front (List.cons_ne_nil last []),
    Bytes.join_append front (List.cons_ne_nil _ [])]
  simp [Bytes.join]

/-- The name of the map beside a file is a name below the directory that the file lies in. -/
theorem exists_beside (readable : files.Readable search.root members)
    (plain : PlainSuffix search.mapSuffix) {names : List Bytes} {entry : Entry}
    (nonempty : names ≠ []) (found : (Entry.directory members).descend names = some entry) :
    ∃ dir front inner, Files.Way files search.root dir members ∧
      (Entry.directory members).descend front = some (.directory inner) ∧
      (∀ name ∈ front, Files.Taken name) ∧
      search.mapNames names = front ++ [names.getLastD [] ++ search.mapSuffix] ∧
      Path.Proper (names.getLastD [] ++ search.mapSuffix) ∧
      0 ∉ names.getLastD [] ++ search.mapSuffix := by
  have taken := readable.taken_names found
  obtain ⟨dir, way⟩ := readable.exists_way
  obtain ⟨front, last, rfl⟩ := (List.eq_nil_or_concat names).resolve_left nonempty
  rw [List.concat_eq_append] at *
  rw [List.forall_mem_append] at taken
  have lastTaken := taken.2 last (List.mem_singleton_self last)
  rw [Entry.descend_concat, Option.bind_eq_some_iff] at found
  obtain ⟨between, led, member⟩ := found
  obtain ⟨inner, rfl⟩ := Entry.isDirectory_of_member? member
  rw [mapNames, List.dropLast_concat, List.getLastD_concat]
  refine ⟨dir, front, inner, way, led, taken.1, rfl, plain.proper lastTaken.proper, ?_⟩
  rw [List.mem_append, not_or]
  exact ⟨lastTaken.clear, plain.clear⟩

section

variable (readable : files.Readable search.root members) (plain : PlainSuffix search.mapSuffix)
  {names : List Bytes} {entry : Entry} (nonempty : names ≠ [])
  (found : (Entry.directory members).descend names = some entry)

include readable plain nonempty found

/-- Where the system takes its name and its path, the map beside a file is read if there is one,
and missing otherwise. -/
theorem read_map (fits : search.MapFits names)
    (regular : ∀ other, (Entry.directory members).descend (search.mapNames names) = some other →
      ∃ map, other.content? = some map) :
    ((Entry.directory members).descend (search.mapNames names) = none ∧
      files.read (Path.join (search.root :: names) ++ search.mapSuffix) = .error .missing) ∨
    ∃ map, ((Entry.directory members).descend (search.mapNames names)).bind Entry.content? =
        some map ∧
      files.read (Path.join (search.root :: names) ++ search.mapSuffix) = .ok map := by
  have path := map_path readable nonempty found
  obtain ⟨dir, front, inner, way, led, taken, named, proper, clear⟩ :=
    exists_beside readable plain nonempty found
  have mapTaken : Files.Taken (names.getLastD [] ++ search.mapSuffix) :=
    ⟨proper, clear, fits.name⟩
  have short := fits.path
  rw [named] at path regular ⊢
  rw [path] at short ⊢
  cases there : (Entry.directory members).descend
      (front ++ [names.getLastD [] ++ search.mapSuffix]) with
  | none =>
      left
      refine ⟨rfl, ?_⟩
      rw [Files.read, Files.stat, way.entryAt_missing led taken mapTaken short there]
  | some other =>
      right
      obtain ⟨map, holds⟩ := regular other there
      have noLink : ∀ target, other ≠ .link target := by
        rintro target rfl
        cases holds
      refine ⟨map, holds, ?_⟩
      rw [Files.read, Files.stat,
        way.entryAt_names led taken mapTaken short there fun _ => noLink]
      dsimp only
      rw [holds]

/-- A name or a path that is too long with the suffix is refused, not missing. -/
theorem read_map_of_long (unfit : ¬search.MapFits names) :
    files.read (Path.join (search.root :: names) ++ search.mapSuffix) =
      .error .nameTooLong := by
  have path := map_path readable nonempty found
  obtain ⟨dir, front, inner, way, led, taken, named, proper, clear⟩ :=
    exists_beside readable plain nonempty found
  have long : Files.longestName < (names.getLastD [] ++ search.mapSuffix).length ∨
      Files.longestPath < (Path.join (search.root :: names) ++ search.mapSuffix).length := by
    by_contra short
    rw [not_or, Nat.not_lt, Nat.not_lt] at short
    exact unfit ⟨short.1, short.2⟩
  rw [named] at path
  rw [path] at long ⊢
  rw [Files.read, Files.stat, way.entryAt_long led taken proper clear long]

end

/-- Whether there is a map beside a file can be told exactly if the system takes its name and its
path, where nothing but files has such a name. -/
theorem mapKnown_iff (readable : files.Readable search.root members)
    (plain : PlainSuffix search.mapSuffix) {names : List Bytes} {entry : Entry}
    (nonempty : names ≠ []) (found : (Entry.directory members).descend names = some entry)
    (regular : ∀ other, (Entry.directory members).descend (search.mapNames names) = some other →
      ∃ map, other.content? = some map) :
    (search.MapKnown files (Path.join (search.root :: names)) ↔
      search.mapSuffix = [] ∨ search.MapFits names) ∧
    (search.MapFits names → search.mapBeside files (Path.join (search.root :: names)) =
      if search.mapSuffix = [] then none
      else ((Entry.directory members).descend (search.mapNames names)).bind Entry.content?) := by
  have fitting fits := read_map readable plain nonempty found fits regular
  constructor
  · rw [MapKnown]
    apply or_congr Iff.rfl
    constructor
    · intro known
      by_contra unfit
      rw [read_map_of_long readable plain nonempty found unfit] at known
      rcases known with ⟨map, read⟩ | missing
      · cases read
      · cases missing
    · intro fits
      rcases fitting fits with ⟨-, missing⟩ | ⟨map, -, read⟩
      · exact .inr missing
      · exact .inl ⟨map, read⟩
  · intro fits
    rw [mapBeside]
    split
    · rfl
    · rcases fitting fits with ⟨none, missing⟩ | ⟨map, holds, read⟩
      · rw [missing, none]
        rfl
      · rw [read, holds]
        rfl

/-! ### Searches -/

/-- The queue of the readers fits into memory. -/
def ReadersFit (search : ChunkSearch) : Prop :=
  ∀ readers, search.readers = some readers → readers ≤ mostReaders

theorem readersFit_iff :
    search.ReadersFit ↔ search.readers.any (fun readers => mostReaders < readers) = false := by
  rw [ReadersFit]
  cases search.readers with
  | none => simp
  | some readers => simp

theorem run_eq_ok_iff (readable : files.Readable search.root members) (found : List ChunkFile) :
    search.runBy verdict files false = .ok found ↔ search.ReadersFit ∧
      search.readFiles files ((search.wanted verdict files members).map search.pathOf) =
        .ok found := by
  rw [run_eq readable, readersFit_iff]
  cases search.readers.any fun readers => mostReaders < readers with
  | true => simp
  | false => simp

section

variable (readable : files.Readable search.root members) (noLinks : search.followLinks = false)

include readable noLinks

theorem exists_run_iff :
    (∃ found, search.runBy verdict files false = .ok found) ↔
      search.ReadersFit ∧ ∀ names content, search.Eligible verdict files members names content →
        search.MapKnown files (Path.join (search.root :: names)) := by
  simp only [run_eq_ok_iff readable, exists_and_left]
  apply and_congr Iff.rfl
  rw [exists_readFiles_iff, List.forall_mem_map]
  constructor
  · intro answered names content eligible
    obtain ⟨leaf, member, rfl, holds, text⟩ := (eligible_iff readable noLinks _ _).mp eligible
    rw [← pathOf_of_mem_wanted readable member]
    exact (exists_readFile_iff (read_wanted readable member holds)).mp (answered leaf member) text
  · intro known leaf member
    obtain ⟨content, holds⟩ := exists_content readable noLinks member
    apply (exists_readFile_iff (read_wanted readable member holds)).mpr
    intro text
    rw [pathOf_of_mem_wanted readable member]
    apply known leaf.names content
    exact (eligible_iff readable noLinks _ _).mpr ⟨leaf, member, rfl, holds, text⟩

theorem mem_of_run {found : List ChunkFile}
    (answered : search.runBy verdict files false = .ok found) (file : ChunkFile) :
    file ∈ found ↔ ∃ names content, search.Eligible verdict files members names content ∧
      file = ⟨Path.join (search.root :: names), content,
        search.mapBeside files (Path.join (search.root :: names))⟩ := by
  have known := ((exists_run_iff readable noLinks).mp ⟨found, answered⟩).2
  have read := ((run_eq_ok_iff readable found).mp answered).2
  rw [mem_of_readFiles read]
  simp only [List.mem_map, exists_exists_and_eq_and]
  constructor
  · rintro ⟨leaf, member, own⟩
    obtain ⟨content, holds⟩ := exists_content readable noLinks member
    obtain ⟨text, -, rfl⟩ := (readFile_eq_some_iff (read_wanted readable member holds)).mp own
    rw [pathOf_of_mem_wanted readable member]
    exact ⟨leaf.names, content,
      (eligible_iff readable noLinks _ _).mpr ⟨leaf, member, rfl, holds, text⟩, rfl⟩
  · rintro ⟨names, content, eligible, rfl⟩
    have mapKnown := known names content eligible
    obtain ⟨leaf, member, rfl, holds, text⟩ := (eligible_iff readable noLinks _ _).mp eligible
    rw [← pathOf_of_mem_wanted readable member] at mapKnown ⊢
    exact ⟨leaf, member, (readFile_eq_some_iff (read_wanted readable member holds)).mpr
      ⟨text, mapKnown, rfl⟩⟩

omit noLinks in
theorem nodup_of_run {found : List ChunkFile}
    (answered : search.runBy verdict files false = .ok found) :
    (found.map ChunkFile.path).Nodup := by
  obtain ⟨distinct, named⟩ :=
    readable.proper.leaves fun name => !search.includeHidden && isHidden name
  have paths := nodup_map_pathOf (Files.ne_nil_of_entryAt readable.here) distinct named
  have wanted : ((search.wanted verdict files members).map search.pathOf).Nodup :=
    (List.filter_sublist.map search.pathOf).nodup paths
  exact (paths_of_readFiles ((run_eq_ok_iff readable found).mp answered).2).nodup wanted

end

/-- Search a directory that can be read, without following links, whatever its ignore list is taken
to say.  The search ends well exactly if its queue fits and it can be told of every eligible file
whether it has a map.  It then finds every eligible file once, with its content and its map, and
nothing else.  Where the names of maps are those of files or of nothing, it can be told as far as
the system takes such a name, and the map is the file of that name. -/
theorem run_finds_eligible (verdict : Ignore.Verdict)
    (readable : files.Readable search.root members) (noLinks : search.followLinks = false) :
    ((∃ found, search.runBy verdict files false = .ok found) ↔
      search.ReadersFit ∧ ∀ names content, search.Eligible verdict files members names content →
        search.MapKnown files (Path.join (search.root :: names))) ∧
    (∀ found, search.runBy verdict files false = .ok found →
      (found.map ChunkFile.path).Nodup ∧
        ∀ file, file ∈ found ↔ ∃ names content,
          search.Eligible verdict files members names content ∧
            file = ⟨Path.join (search.root :: names), content,
              search.mapBeside files (Path.join (search.root :: names))⟩) ∧
    (PlainSuffix search.mapSuffix →
      (∀ names content, search.Eligible verdict files members names content →
        ∀ other, (Entry.directory members).descend (search.mapNames names) = some other →
          ∃ map, other.content? = some map) →
      ∀ names content, search.Eligible verdict files members names content →
        (search.MapKnown files (Path.join (search.root :: names)) ↔
          search.mapSuffix = [] ∨ search.MapFits names) ∧
        (search.MapFits names → search.mapBeside files (Path.join (search.root :: names)) =
          if search.mapSuffix = [] then none
          else ((Entry.directory members).descend (search.mapNames names)).bind
            Entry.content?)) := by
  refine ⟨exists_run_iff readable noLinks, ?_, ?_⟩
  · intro found answered
    exact ⟨nodup_of_run readable answered, mem_of_run readable noLinks answered⟩
  · intro plain regular names content eligible
    obtain ⟨leaf, member, rfl, -⟩ := (eligible_iff readable noLinks _ _).mp eligible
    obtain ⟨nonempty, -, found⟩ := names_of_mem_wanted readable member
    exact mapKnown_iff readable plain nonempty found (regular leaf.names content eligible)

/-! ### Hidden files, a link, a map, and a file with a zero byte -/

theorem proper_name (name : Bytes)
    (named : name ≠ [] ∧ Bytes.slash ∉ name ∧ name ≠ Path.here ∧ name ≠ Path.above) :
    Path.Proper name :=
  ⟨named.1, named.2.1, named.2.2.1, named.2.2.2⟩

def nestedMembers : List (Bytes × Entry) :=
  [(utf8 ".hidden", .directory [(utf8 "d.js", .file [])]),
    (utf8 "a.js", .file (utf8 "import(1)")), (utf8 "a.js.map", .file (utf8 "m")),
    (utf8 "b.JS", .file (utf8 "b")), (utf8 "l.js", .link (utf8 "a.js")),
    (utf8 "sub", .directory [(utf8 "c.js", .file (utf8 "c"))]), (utf8 "z.js", .file [0])]

def nestedTree : Files :=
  ⟨.directory [(utf8 "r", .directory nestedMembers)], []⟩

def nestedSearch : ChunkSearch :=
  ⟨utf8 "./r/", [utf8 ".js"], utf8 ".map", false, 100, false, none⟩

def nestedFound : List ChunkFile :=
  [⟨utf8 "r/a.js", utf8 "import(1)", some (utf8 "m")⟩, ⟨utf8 "r/b.JS", utf8 "b", none⟩,
    ⟨utf8 "r/sub/c.js", utf8 "c", none⟩]

theorem readable_nestedTree : nestedTree.Readable nestedSearch.root nestedMembers := by
  apply Files.readable_of_places
  · cbv
  · cbv
  · simp only [nestedMembers, Entry.Proper, Entry.MembersProper]
    exact ⟨by decide, proper_name _ (by decide), ⟨by decide, proper_name _ (by decide), trivial,
      trivial⟩, proper_name _ (by decide), trivial, proper_name _ (by decide), trivial,
      proper_name _ (by decide), trivial, proper_name _ (by decide), trivial,
      proper_name _ (by decide), ⟨by decide, proper_name _ (by decide), trivial, trivial⟩,
      proper_name _ (by decide), trivial, trivial⟩
  · decide +kernel

theorem run_finds_eligible_nested :
    nestedSearch.run nestedTree false = .ok nestedFound ∧
      (nestedFound.map ChunkFile.path).Nodup ∧
      (∀ names content,
        nestedSearch.Eligible Ignore.verdict nestedTree nestedMembers names content →
          nestedSearch.MapFits names) ∧
      ∀ file ∈ nestedFound, ∃ names content,
        nestedSearch.Eligible Ignore.verdict nestedTree nestedMembers names content ∧
          file.path = Path.join (nestedSearch.root :: names) ∧ file.content = content := by
  have answered : nestedSearch.run nestedTree false = .ok nestedFound := by
    rw [run, run_eq readable_nestedTree]
    cbv
  obtain ⟨ends, finds, told⟩ := run_finds_eligible Ignore.verdict readable_nestedTree rfl
  obtain ⟨distinct, exactly⟩ := finds nestedFound answered
  have regular : ∀ names content,
      nestedSearch.Eligible Ignore.verdict nestedTree nestedMembers names content → ∀ other,
        (Entry.directory nestedMembers).descend (nestedSearch.mapNames names) = some other →
          ∃ map, other.content? = some map := by
    intro names content eligible other there
    obtain ⟨entry, found, -⟩ := eligible.found
    have checked : ∀ names ∈ (Entry.directory nestedMembers).places,
        ((Entry.directory nestedMembers).descend (nestedSearch.mapNames names)).all fun other =>
          other.content?.isSome := by
      decide +kernel
    have holds := checked names (Entry.mem_places_of_descend found)
    rw [there] at holds
    exact Option.isSome_iff_exists.mp holds
  refine ⟨answered, distinct, ?_, ?_⟩
  · intro names content eligible
    have known := (ends.mp ⟨nestedFound, answered⟩).2 names content eligible
    have plain : PlainSuffix nestedSearch.mapSuffix := ⟨by decide, by decide⟩
    exact ((told plain regular names content eligible).1.mp known).resolve_left (by decide)
  · intro file member
    obtain ⟨names, content, eligible, rfl⟩ := (exactly file).mp member
    exact ⟨names, content, eligible, rfl, rfl⟩

/-! ### A name that is too long with the suffix of maps -/

def longName : Bytes :=
  List.replicate 249 97 ++ utf8 ".js"

def longMembers : List (Bytes × Entry) :=
  [(longName, .file (utf8 "import(1)"))]

def longTree : Files :=
  ⟨.directory [(utf8 "r", .directory longMembers)], []⟩

def longSearch : ChunkSearch :=
  ⟨utf8 "r", [utf8 ".js"], utf8 ".map", false, 0, false, none⟩

theorem readable_longTree : longTree.Readable longSearch.root longMembers := by
  have alone (members : List (Bytes × Entry)) :
      (⟨.directory [(utf8 "r", .directory members)], []⟩ : Files).entryAt false (utf8 "r") =
        .ok (.directory members) := by
    cbv
  apply Files.readable_of_places
  · exact alone longMembers
  · exact alone longMembers
  · simp only [longMembers, Entry.Proper, Entry.MembersProper]
    exact ⟨by decide, proper_name _ (by decide +kernel), trivial, trivial⟩
  · decide +kernel

/-- The only file below the directory is eligible, and nothing has the name of its map, but the
search fails. -/
theorem run_fails_beside_longName :
    longTree.Readable longSearch.root longMembers ∧ longSearch.followLinks = false ∧
      longSearch.ReadersFit ∧ PlainSuffix longSearch.mapSuffix ∧
      (∀ names entry, (Entry.directory longMembers).descend names = some entry →
        (Entry.directory longMembers).descend (longSearch.mapNames names) = none) ∧
      longSearch.run longTree false =
        .error (.map (utf8 "r/" ++ longName ++ utf8 ".map")) := by
  have readable := readable_longTree
  have plain : PlainSuffix longSearch.mapSuffix := ⟨by decide, by decide⟩
  have fit : longSearch.ReadersFit := nofun
  have found : (Entry.directory longMembers).descend [longName] =
      some (.file (utf8 "import(1)")) := by
    have distinct : (longMembers.map Prod.fst).Nodup := List.nodup_singleton longName
    rw [Entry.descend_cons, Entry.member?_of_mem distinct (List.mem_singleton_self _)]
    rfl
  have absent : ∀ names entry, (Entry.directory longMembers).descend names = some entry →
      (Entry.directory longMembers).descend (longSearch.mapNames names) = none := by
    intro names entry inside
    have checked : ∀ names ∈ (Entry.directory longMembers).places,
        ((Entry.directory longMembers).descend (longSearch.mapNames names)).isNone = true := by
      decide +kernel
    exact Option.isNone_iff_eq_none.mp (checked names (Entry.mem_places_of_descend inside))
  have wanted : longSearch.wanted Ignore.verdict longTree longMembers =
      [⟨[longName], .file (utf8 "import(1)")⟩] := by
    rw [ChunkSearch.wanted, ignored_of_absent readable rfl]
    apply List.filter_eq_self.mpr
    intro leaf member
    obtain rfl := List.mem_singleton.mp member
    decide +kernel
  have unfit : ¬longSearch.MapFits [longName] := by
    intro fits
    have short := fits.name
    revert short
    decide +kernel
  have unknown : ¬longSearch.MapKnown longTree (Path.join [longSearch.root, longName]) := by
    intro known
    have regular : ∀ other,
        (Entry.directory longMembers).descend (longSearch.mapNames [longName]) = some other →
          ∃ map, other.content? = some map := by
      rw [absent _ _ found]
      exact nofun
    have told := (mapKnown_iff readable plain (List.cons_ne_nil _ []) found regular).1.mp known
    exact unfit (told.resolve_left (by decide))
  have path : Path.join [longSearch.root, longName] = utf8 "r/" ++ longName := by
    decide +kernel
  have failed := readFile_of_unknown
    (readable.read_below (List.cons_ne_nil _ []) found rfl) (by decide) unknown
  have member :
      ⟨[longName], .file (utf8 "import(1)")⟩ ∈
        longSearch.wanted Ignore.verdict longTree longMembers := by
    rw [wanted]
    exact List.mem_singleton_self _
  refine ⟨readable, rfl, fit, plain, absent, ?_⟩
  rw [run, run_eq readable, wanted, if_neg (by decide), List.map_singleton,
    pathOf_of_mem_wanted readable member, readFiles, failed, path]
  rfl

end ChunkSearch

end Reroute
