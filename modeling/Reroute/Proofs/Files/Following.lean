import Mathlib
import Reroute.Proofs.Files.Leaves

/-!
# Following paths below a directory

Names below a directory are followed from where the path of the directory leads, so that this
path with names behind it leads to what the directory has at the end of these names.  That holds
of the path in its shortest form, and as far as the system takes the names and the path.
-/

namespace Reroute

theorem Bytes.mem_join {separator byte : UInt8} {parts : List Bytes}
    (member : byte ∈ Bytes.join [separator] parts) :
    byte = separator ∨ ∃ part ∈ parts, byte ∈ part := by
  induction parts with
  | nil => cases member
  | cons part parts induction =>
      cases parts with
      | nil =>
          right
          exact ⟨part, List.mem_cons_self, by simpa [Bytes.join] using member⟩
      | cons second rest =>
          rw [Mappings.join_cons_cons, List.mem_append, List.mem_append, List.mem_singleton]
            at member
          rcases member with here | broken | later
          · exact .inr ⟨part, List.mem_cons_self, here⟩
          · exact .inl broken
          · rcases induction later with broken | ⟨other, among, inside⟩
            · exact .inl broken
            · exact .inr ⟨other, List.mem_cons_of_mem part among, inside⟩

namespace Entry

theorem Proper.of_member? {entry inner : Entry} (proper : entry.Proper) {name : Bytes}
    (found : entry.member? name = some inner) : Path.Proper name := by
  obtain ⟨entries, rfl⟩ := isDirectory_of_member? found
  obtain ⟨member, listed, -⟩ := Option.map_eq_some_iff.mp found
  have same : member.1 = name := by simpa using List.find?_some listed
  rw [Proper] at proper
  rw [← same]
  exact (proper.2.of_mem (List.mem_of_find?_eq_some listed)).1

theorem Proper.of_descend {names : List Bytes} {entry inner : Entry} (proper : entry.Proper)
    (found : entry.descend names = some inner) : ∀ name ∈ names, Path.Proper name := by
  induction names generalizing entry with
  | nil => exact List.forall_mem_nil _
  | cons name names induction =>
      rw [descend_cons, Option.bind_eq_some_iff] at found
      obtain ⟨next, member, below⟩ := found
      rw [List.forall_mem_cons]
      exact ⟨proper.of_member? member, induction (proper.member? member) below⟩

end Entry

namespace Files

variable {followLast : Bool}

/-! ### Names below a directory -/

/-- A path leads to a directory in its shortest form. -/
structure Way (files : Files) (root : Bytes) (dir : List Bytes)
    (members : List (Bytes × Entry)) : Prop where
  given : root ≠ []
  clear : ∀ part ∈ Path.parts root, 0 ∉ part
  leads : Follows files.top false mostLinks (startOf files.home.reverse root) (Path.parts root)
    (.ok (.found dir (.directory members)))

theorem exists_way {files : Files} {root : Bytes} {members : List (Bytes × Entry)}
    (given : root ≠ [])
    (reached : files.entryAt false (Path.clean root) = .ok (.directory members)) :
    ∃ dir, Way files root dir members := by
  unfold entryAt at reached
  split at reached
  · next dir entry followed =>
      cases reached
      unfold reach at followed
      split at followed
      · cases followed
      · next clear =>
          split at followed
          · cases followed
          · split at followed
            · cases followed
            · rw [follow_clean, startOf, Path.isRooted_clean] at followed
              refine ⟨dir, given, ?_, follow_eq_iff.mp followed⟩
              intro part member zero
              exact clear (List.any_eq_true.mpr ⟨0, Path.mem_clean member zero, rfl⟩)
  · cases reached
  · cases reached

/-- The system takes the name of an entry. -/
structure Taken (name : Bytes) : Prop where
  proper : Path.Proper name
  clear : 0 ∉ name
  short : name.length ≤ longestName

namespace Way

variable {files : Files} {root : Bytes} {dir names : List Bytes}
  {members inner : List (Bytes × Entry)} {last : Bytes}

theorem found (way : Way files root dir members) :
    files.top.descend dir = some (.directory members) :=
  way.leads.descend rfl

/-- Names behind the path are parts of a path, as far as the system takes it. -/
theorem reach_eq (way : Way files root dir members) (some : names ≠ [])
    (proper : ∀ name ∈ names, Path.Proper name ∧ 0 ∉ name) (followLast : Bool) :
    files.reach followLast (Path.lead root ++ Bytes.join [Bytes.slash] names) =
      if longestPath < (Path.lead root ++ Bytes.join [Bytes.slash] names).length then
        .error .nameTooLong
      else
        follow files.top followLast mostLinks (startOf files.home.reverse root)
          (Path.parts root ++ names) := by
  have named (name : Bytes) (member : name ∈ names) := (proper name member).1
  have normal := (Path.normal_parts root).append named
  have filled : Path.parts root ++ names ≠ [] := by simp [some]
  rw [Path.lead_append some]
  have noZero : (Path.ofParts (Path.isRooted root) (Path.parts root ++ names)).any (· == 0) =
      false := by
    rw [List.any_eq_false]
    intro byte member zero
    obtain rfl := beq_iff_eq.mp zero
    rcases List.mem_append.mp member with start | joined
    · split at start
      · cases List.mem_singleton.mp start
      · cases start
    · rcases Bytes.mem_join joined with slash | ⟨part, among, zeroInside⟩
      · cases slash
      · rcases List.mem_append.mp among with own | behind
        · exact way.clear part own zeroInside
        · exact (proper part behind).2 zeroInside
  have given : (Path.ofParts (Path.isRooted root) (Path.parts root ++ names)).isEmpty = false := by
    simp [Path.ofParts, (normal.relative_join filled).1]
  rw [reach, noZero, given, if_neg Bool.false_ne_true, if_neg Bool.false_ne_true, startOf,
    normal.isRooted_ofParts filled, follow_ofParts normal filled]
  rfl

/-- Behind names of directories, the last name is followed from the last of them. -/
theorem exists_reach (way : Way files root dir members)
    (led : (Entry.directory members).descend names = some (.directory inner))
    (taken : ∀ name ∈ names, Taken name) (proper : Path.Proper last) (clear : 0 ∉ last)
    (fits : (Path.lead root ++ Bytes.join [Bytes.slash] (names ++ [last])).length ≤ longestPath)
    (followLast : Bool) :
    ∃ fewer, ∀ final, Follows files.top followLast fewer (dir ++ names).reverse [last] final →
      files.reach followLast (Path.lead root ++ Bytes.join [Bytes.slash] (names ++ [last])) =
        final := by
  have inside : files.top.descend (dir.reverse.reverse ++ names) = some (.directory inner) := by
    rw [List.reverse_reverse, Entry.descend_append, way.found]
    exact led
  obtain ⟨fewer, onward⟩ := way.leads.exists_append rfl (show names ++ [last] ≠ [] by simp)
    followLast
  refine ⟨fewer, fun final ends => ?_⟩
  rw [List.reverse_append] at ends
  have whole := ends.names_append inside fun name member =>
    ⟨(taken name member).proper, (taken name member).short⟩
  rw [way.reach_eq (by simp), if_neg (Nat.not_lt.mpr fits)]
  · exact (onward final whole).follow_eq
  · intro name member
    rcases List.mem_append.mp member with among | own
    · exact ⟨(taken name among).proper, (taken name among).clear⟩
    · rw [List.mem_singleton.mp own]
      exact ⟨proper, clear⟩

theorem descend_last (way : Way files root dir members) (names : List Bytes) (last : Bytes) :
    files.top.descend (last :: (dir ++ names).reverse).reverse =
      (Entry.directory members).descend (names ++ [last]) := by
  rw [List.reverse_cons, List.reverse_reverse, List.append_assoc, Entry.descend_append, way.found]
  rfl

section

variable (way : Way files root dir members)
  (led : (Entry.directory members).descend names = some (.directory inner))
  (taken : ∀ name ∈ names, Taken name)

include way led taken

/-- What the directory has at the end of the names is at their path. -/
theorem entryAt_names {entry : Entry} (takenLast : Taken last)
    (fits : (Path.lead root ++ Bytes.join [Bytes.slash] (names ++ [last])).length ≤ longestPath)
    (found : (Entry.directory members).descend (names ++ [last]) = some entry)
    (plain : followLast = true → ∀ target, entry ≠ .link target) :
    files.entryAt followLast (Path.lead root ++ Bytes.join [Bytes.slash] (names ++ [last])) =
      .ok entry := by
  obtain ⟨proper, clear, short⟩ := takenLast
  obtain ⟨fewer, reached⟩ := way.exists_reach led taken proper clear fits followLast
  have met := (way.descend_last names last).trans found
  rw [entryAt, reached _ (.of_meets ⟨.of_proper proper, short, met⟩ plain)]

theorem entryAt_missing (takenLast : Taken last)
    (fits : (Path.lead root ++ Bytes.join [Bytes.slash] (names ++ [last])).length ≤ longestPath)
    (missing : (Entry.directory members).descend (names ++ [last]) = none) (followLast : Bool) :
    files.entryAt followLast (Path.lead root ++ Bytes.join [Bytes.slash] (names ++ [last])) =
      .error .missing := by
  obtain ⟨proper, clear, short⟩ := takenLast
  obtain ⟨fewer, reached⟩ := way.exists_reach led taken proper clear fits followLast
  have met := (way.descend_last names last).trans missing
  rw [entryAt, reached _ (.free ⟨.of_proper proper, short, met⟩ rfl)]

/-- Nothing can be asked about a name or a path that is too long. -/
theorem entryAt_long (proper : Path.Proper last) (clear : 0 ∉ last)
    (long : longestName < last.length ∨
      longestPath < (Path.lead root ++ Bytes.join [Bytes.slash] (names ++ [last])).length)
    (followLast : Bool) :
    files.entryAt followLast (Path.lead root ++ Bytes.join [Bytes.slash] (names ++ [last])) =
      .error .nameTooLong := by
  by_cases fits :
      (Path.lead root ++ Bytes.join [Bytes.slash] (names ++ [last])).length ≤ longestPath
  · obtain ⟨fewer, reached⟩ := way.exists_reach led taken proper clear fits followLast
    have long := long.resolve_right (Nat.not_lt.mpr fits)
    rw [entryAt, reached _ (.long (.of_proper proper) long)]
  · rw [entryAt, way.reach_eq (by simp), if_pos (Nat.not_le.mp fits)]
    intro name member
    rcases List.mem_append.mp member with among | own
    · exact ⟨(taken name among).proper, (taken name among).clear⟩
    · rw [List.mem_singleton.mp own]
      exact ⟨proper, clear⟩

end

end Way

/-! ### Directories that can be read -/

/-- A directory is found without following a link at the end of its path, so also with. -/
theorem stat_of_entryAt {files : Files} {path : Bytes} {members : List (Bytes × Entry)}
    (reached : files.entryAt false path = .ok (.directory members)) :
    files.stat path = .ok (.directory members) := by
  unfold entryAt at reached
  split at reached
  · next dir entry followed =>
      cases reached
      unfold reach at followed
      rw [stat, entryAt, reach]
      split at followed
      · cases followed
      · next clear =>
          rw [if_neg clear]
          split at followed
          · cases followed
          · next fits =>
              rw [if_neg fits]
              split at followed
              · cases followed
              · next given =>
                  rw [if_neg given, ((follow_eq_iff.mp followed).followed rfl).follow_eq]
  · cases reached
  · cases reached

/-- A directory that can be read with all that lies below it.  Its path leads to it, also in its
shortest form, and the system takes the names below it and the paths they make. -/
structure Readable (files : Files) (root : Bytes) (members : List (Bytes × Entry)) : Prop where
  here : files.entryAt false root = .ok (.directory members)
  shortest : files.entryAt false (Path.clean root) = .ok (.directory members)
  proper : (Entry.directory members).Proper
  taken : ∀ names entry, (Entry.directory members).descend names = some entry →
    ∀ name ∈ names, 0 ∉ name ∧ name.length ≤ longestName
  short : ∀ names entry, (Entry.directory members).descend names = some entry →
    (Path.join (root :: names)).length ≤ longestPath

/-- Names and paths are taken if those of all places are. -/
theorem readable_of_places {files : Files} {root : Bytes} {members : List (Bytes × Entry)}
    (here : files.entryAt false root = .ok (.directory members))
    (shortest : files.entryAt false (Path.clean root) = .ok (.directory members))
    (proper : (Entry.directory members).Proper)
    (taken : ∀ names ∈ (Entry.directory members).places,
      (∀ name ∈ names, 0 ∉ name ∧ name.length ≤ longestName) ∧
        (Path.join (root :: names)).length ≤ longestPath) : files.Readable root members where
  here := here
  shortest := shortest
  proper := proper
  taken names _ found := (taken names (Entry.mem_places_of_descend found)).1
  short names _ found := (taken names (Entry.mem_places_of_descend found)).2

namespace Readable

variable {files : Files} {root : Bytes} {members : List (Bytes × Entry)} {names : List Bytes}

theorem exists_way (readable : files.Readable root members) : ∃ dir, Way files root dir members :=
  Files.exists_way (ne_nil_of_entryAt readable.here) readable.shortest

theorem taken_names (readable : files.Readable root members) {entry : Entry}
    (found : (Entry.directory members).descend names = some entry) : ∀ name ∈ names, Taken name :=
  fun name member =>
    have own := readable.taken names entry found name member
    ⟨readable.proper.of_descend found name member, own.1, own.2⟩

theorem join_root (readable : files.Readable root members) (some : names ≠ []) {entry : Entry}
    (found : (Entry.directory members).descend names = .some entry) :
    Path.join (root :: names) = Path.lead root ++ Bytes.join [Bytes.slash] names :=
  Path.join_names some (ne_nil_of_entryAt readable.here) (readable.proper.of_descend found)

/-- Whatever lies below the directory is at its path. -/
theorem entryAt_below (readable : files.Readable root members) (some : names ≠ [])
    {entry : Entry} (found : (Entry.directory members).descend names = .some entry)
    {followLast : Bool} (plain : followLast = true → ∀ target, entry ≠ .link target) :
    files.entryAt followLast (Path.join (root :: names)) = .ok entry := by
  obtain ⟨dir, way⟩ := readable.exists_way
  have taken := readable.taken_names found
  have short := readable.short names entry found
  rw [readable.join_root some found] at short ⊢
  obtain ⟨front, last, rfl⟩ := (List.eq_nil_or_concat names).resolve_left some
  rw [List.concat_eq_append] at *
  rw [List.forall_mem_append] at taken
  have inside := found
  rw [Entry.descend_concat, Option.bind_eq_some_iff] at inside
  obtain ⟨between, led, member⟩ := inside
  obtain ⟨inner, rfl⟩ := Entry.isDirectory_of_member? member
  have lastTaken := taken.2 last (List.mem_singleton_self last)
  exact way.entryAt_names led taken.1 lastTaken short found plain

/-- A file below the directory is read at its path. -/
theorem read_below (readable : files.Readable root members) (some : names ≠ []) {entry : Entry}
    (found : (Entry.directory members).descend names = .some entry) {content : Bytes}
    (holds : entry.content? = .some content) :
    files.read (Path.join (root :: names)) = .ok content := by
  have plain : ∀ target, entry ≠ .link target := by
    rintro target rfl
    cases holds
  rw [read, stat, readable.entryAt_below some found fun _ => plain]
  dsimp only
  rw [holds]

end Readable

/-! ### Where a walk starts -/

theorem lookUpMembers_eq {files : Files} {start : Bytes} {members : List (Bytes × Entry)}
    (below : ∀ member ∈ members, files.entryAt false (Path.join [start, member.1]) = .ok member.2) :
    files.lookUpMembers start members = .ok members := by
  induction members with
  | nil => rfl
  | cons member members induction =>
      rw [List.forall_mem_cons] at below
      rw [lookUpMembers, below.1, induction below.2]

theorem Readable.walkStart_eq {files : Files} {root : Bytes} {members : List (Bytes × Entry)}
    (readable : files.Readable root members) :
    files.walkStart root = .ok (.directory members) := by
  have distinct := readable.proper
  rw [Entry.Proper] at distinct
  have below : ∀ member ∈ members,
      files.entryAt false (Path.join [root, member.1]) = .ok member.2 := by
    intro member listed
    have found : (Entry.directory members).descend [member.1] = some member.2 := by
      rw [Entry.descend_cons, Entry.member?_of_mem distinct.1 listed]
      rfl
    apply readable.entryAt_below (List.cons_ne_nil member.1 []) found
    intro following
    cases following
  rw [walkStart, readable.here]
  dsimp only
  rw [lookUpMembers_eq below]
  rfl

end Files

end Reroute
