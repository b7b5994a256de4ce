import Mathlib
import Reroute.Proofs.Files.Routes
import Reroute.Store.Merge

/-!
# Opening stores by name

A store file in the working directory, here the top of the tree, can be given by its name, if
that has no meaning of its own as an address.  It is opened as it is if it exists, and is made
otherwise.
-/

namespace Reroute

/-- The name of a store file: as an address it stands for itself, and a journal has room
beside it. -/
structure StoreName (name : Bytes) : Prop where
  proper : Path.Proper name
  short : name.length ≤ Files.longestStoreName
  nonzero : 0 ∉ name
  read : Address.read name = .ok ⟨name, none, .creating, false, []⟩
  notMemory : name ≠ memoryPath

namespace StoreName

variable {name : Bytes} {files : Files} {entries : List (Bytes × Entry)}

theorem isRooted_eq_false (named : StoreName name) : Path.isRooted name = false := by
  obtain ⟨byte, rest, rfl⟩ := List.exists_cons_of_ne_nil named.proper.nonempty
  have different : byte ≠ Bytes.slash := fun same => named.proper.inside (by simp [same])
  simpa [Path.isRooted] using different

theorem length_le (named : StoreName name) : name.length ≤ Files.longestName :=
  named.short.trans (by decide)

theorem look (named : StoreName name) :
    (Entry.directory entries).look [name] =
      match (Entry.directory entries).member? name with
      | some inner => .ok inner
      | none => .error .missing := by
  rw [Entry.look, if_neg (by simp [Entry.isDirectory]),
    if_neg (Nat.not_lt.mpr named.length_le)]
  cases (Entry.directory entries).member? name <;> rfl

theorem storeNames? (named : StoreName name)
    (plain : ∀ target, (Entry.directory entries).member? name ≠ some (.link target)) :
    (⟨.directory entries, []⟩ : Files).storeNames? name = some [name] := by
  have proper := named.proper
  have staying : (name.isEmpty || name == Path.here) = false := by
    simpa using ⟨proper.nonempty, proper.notHere⟩
  have upward : (name == Path.above) = false := by simpa using proper.notAbove
  have fits : ¬Files.longestStorePath < Files.pathLength [name] := by
    have short := named.length_le
    simp only [Files.longestStorePath, Files.pathLength, List.foldl_cons, List.foldl_nil,
      Files.longestName] at short ⊢
    omega
  rw [Files.storeNames?, Files.startOf, named.isRooted_eq_false, if_neg Bool.false_ne_true,
    Bytes.splitOn_of_not_mem proper.inside, List.reverse_nil, Files.makePlain, staying,
    if_neg Bool.false_ne_true, upward, if_neg Bool.false_ne_true, if_neg fits,
    List.reverse_singleton, named.look]
  have ended : Files.makePlain (.directory entries) Files.mostStoreLinks [name] [] =
      some [name] := by
    rw [Files.makePlain]
    rfl
  cases found : (Entry.directory entries).member? name with
  | none => exact ended
  | some inner =>
      cases inner with
      | link target => exact absurd found (plain target)
      | file content => exact ended
      | database tables => exact ended
      | directory members => exact ended

theorem openTables (named : StoreName name) (files : Files) :
    files.openTables name = files.openFile ⟨name, none, .creating, false, []⟩ name := by
  have medium : (⟨name, none, .creating, false, []⟩ : Address).medium = .file name := by
    apply if_neg
    simpa using ⟨named.proper.nonempty, named.notMemory⟩
  rw [Files.openTables, named.read]
  simp only [medium]

/-- A store file that exists is opened as it is. -/
theorem openTables_of_database (named : StoreName name) {tables : Tables}
    (found : (Entry.directory entries).member? name = some (.database tables))
    (current : tables.version = Tables.currentVersion) :
    (⟨.directory entries, []⟩ : Files).openTables name =
      (.ok ⟨some [name], tables, .everything⟩, ⟨.directory entries, []⟩) := by
  have reached : (⟨.directory entries, []⟩ : Files).storeNames? name = some [name] :=
    named.storeNames? (by simp [found])
  have claimed :
      (⟨.directory entries, []⟩ : Files).claim ⟨name, none, .creating, false, []⟩ [name] =
        some (.database tables, ⟨.directory entries, []⟩) := by
    rw [Files.claim, named.look, found]
    rfl
  rw [named.openTables, Files.openFile, reached, Option.bind_some, claimed]
  simp only [Option.map_some, Files.tablesIn, current]
  rfl

/-- A store file that is missing is made. -/
theorem openTables_of_missing (named : StoreName name)
    (missing : (Entry.directory entries).member? name = none) :
    (⟨.directory entries, []⟩ : Files).openTables name =
      (.ok ⟨some [name], .empty, .everything⟩,
        ((⟨.directory entries, []⟩ : Files).put [name] (.file [])).put [name]
          (.database .empty)) := by
  have reached : (⟨.directory entries, []⟩ : Files).storeNames? name = some [name] :=
    named.storeNames? (by simp [missing])
  have claimed :
      (⟨.directory entries, []⟩ : Files).claim ⟨name, none, .creating, false, []⟩ [name] =
        some (.file [], (⟨.directory entries, []⟩ : Files).put [name] (.file [])) := by
    rw [Files.claim, named.look, missing]
    rfl
  have room : Files.hasRoom [name] = true := by
    simpa [Files.hasRoom] using named.short
  rw [named.openTables, Files.openFile, reached, Option.bind_some, claimed]
  simp only [Option.map_some, Files.tablesIn, room]
  rfl

theorem openStore (named : StoreName name) {placed : PlacedTables} {opened : Files}
    (answered : files.openTables name = (.ok placed, opened)) :
    files.openStore name = (.ok ⟨placed.names, .onFile placed.tables placed.access⟩, opened) := by
  rw [Files.openStore, if_neg (by simpa using named.proper.nonempty),
    if_neg (by simpa using named.notMemory), answered]

theorem stat (named : StoreName name) {tables : Tables}
    (found : (Entry.directory entries).member? name = some (.database tables)) :
    (⟨.directory entries, []⟩ : Files).stat name = .ok (.database tables) := by
  have proper := named.proper
  have nonzero : (name.any (· == 0)) = false := by
    rw [List.any_eq_false]
    intro byte member
    rw [beq_iff_eq]
    rintro rfl
    exact named.nonzero member
  have short : ¬Files.longestPath < name.length := by
    have bound := named.length_le
    simp only [Files.longestPath, Files.longestName] at bound ⊢
    omega
  have given : ¬name.isEmpty = true := by simpa using proper.nonempty
  have meets : Files.Meets (.directory entries) [] name (some (.database tables)) := by
    refine ⟨.of_proper proper, named.length_le, ?_⟩
    rw [List.reverse_singleton, Entry.descend_cons, found]
    rfl
  have reached : (⟨.directory entries, []⟩ : Files).reach true name =
      .ok (.found [name] (.database tables)) := by
    rw [Files.reach, nonzero, if_neg Bool.false_ne_true, if_neg short, if_neg given,
      Files.startOf, named.isRooted_eq_false, if_neg Bool.false_ne_true,
      Bytes.splitOn_of_not_mem proper.inside, List.reverse_nil]
    exact (Files.Follows.of_meets meets fun _ => nofun).follow_eq
  rw [Files.stat, Files.entryAt, reached]

theorem openSource (named : StoreName name) {tables : Tables}
    (found : (Entry.directory entries).member? name = some (.database tables))
    (current : tables.version = Tables.currentVersion) :
    (⟨.directory entries, []⟩ : Files).openSource name =
      (.ok tables, ⟨.directory entries, []⟩) := by
  rw [Files.openSource, named.stat found]
  dsimp only
  rw [named.openTables_of_database found current]

end StoreName

end Reroute
