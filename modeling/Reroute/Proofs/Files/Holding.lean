import Mathlib
import Reroute.Proofs.Files.Likeness
import Reroute.Store.Merge

/-!
# The store file at a place

An open store file lies at the names it was opened by.  It stays there, with its rows, whatever
other store is opened later: a store file that is made lies neither at these names nor above
them.  In trees that are alike but for the rows at one place, the same addresses open the same
stores, unless they lead to that place.
-/

namespace Reroute

/-! ### Names that lead somewhere -/

namespace Entry

theorem look_of_descend {names : List Bytes} {entry found : Entry}
    (led : entry.descend names = some found)
    (short : ∀ name ∈ names, name.length ≤ Files.longestName) : entry.look names = .ok found := by
  induction names generalizing entry with
  | nil =>
      cases led
      rfl
  | cons name names induction =>
      rw [List.forall_mem_cons] at short
      rw [descend_cons] at led
      obtain ⟨inner, member, below⟩ := Option.bind_eq_some_iff.mp led
      obtain ⟨entries, rfl⟩ := isDirectory_of_member? member
      rw [look, if_neg (by simp [isDirectory]), if_neg (Nat.not_lt.mpr short.1), member]
      exact induction below short.2

theorem short_of_look {names : List Bytes} {entry found : Entry}
    (looked : entry.look names = .ok found) : ∀ name ∈ names, name.length ≤ Files.longestName := by
  induction names generalizing entry with
  | nil => exact List.forall_mem_nil _
  | cons name names induction =>
      rw [look] at looked
      split at looked
      · cases looked
      · split at looked
        · cases looked
        · next short =>
            split at looked
            · exact List.forall_mem_cons.mpr ⟨Nat.not_lt.mp short, induction looked⟩
            · cases looked

/-- What is found at the end of a list of names is found from any place on the way. -/
theorem look_append {names rest : List Bytes} {entry found : Entry}
    (looked : entry.look (names ++ rest) = .ok found) :
    ∃ between, entry.look names = .ok between ∧ between.descend rest = some found := by
  have led := descend_of_look looked
  rw [descend_append] at led
  obtain ⟨between, way, below⟩ := Option.bind_eq_some_iff.mp led
  refine ⟨between, look_of_descend way ?_, below⟩
  intro name member
  exact short_of_look looked name (List.mem_append_left rest member)

theorem descend_putAt_concat {names : List Bytes} {entry : Entry}
    {entries : List (Bytes × Entry)} (way : entry.descend names = some (.directory entries))
    (name : Bytes) (new : Entry) :
    (entry.putAt new (names ++ [name])).descend (names ++ [name]) = some new := by
  induction names generalizing entry with
  | nil =>
      cases way
      rw [List.nil_append, putAt, descend, member?_insertMember, if_pos rfl]
      rfl
  | cons first names induction =>
      rw [descend_cons] at way
      obtain ⟨inner, member, below⟩ := Option.bind_eq_some_iff.mp way
      obtain ⟨entries, rfl⟩ := isDirectory_of_member? member
      rw [List.cons_append, putAt, descend, member?_insertMember, if_pos rfl, member]
      exact induction below

theorem descend_putAt_self {names : List Bytes} {entry old : Entry}
    (found : entry.descend names = some old) (new : Entry) :
    (entry.putAt new names).descend names = some new := by
  rcases List.eq_nil_or_concat names with rfl | ⟨front, name, rfl⟩
  · rfl
  · rw [List.concat_eq_append] at found ⊢
    rw [descend_concat] at found
    obtain ⟨inner, way, member⟩ := Option.bind_eq_some_iff.mp found
    obtain ⟨entries, rfl⟩ := isDirectory_of_member? member
    exact descend_putAt_concat way name new

end Entry

namespace Files

/-! ### What stays at a place -/

/-- The store file at a place has these tables.  Tables in memory have no place. -/
def Holds (files : Files) (place : Option (List Bytes)) (tables : Tables) : Prop :=
  ∀ names, place = some names → files.top.look names = .ok (.database tables)

namespace Holds

variable {files : Files} {place : Option (List Bytes)} {tables : Tables}

theorem unique (holds : files.Holds place tables) {names : List Bytes}
    (placed : place = some names) {other : Tables}
    (looked : files.top.look names = .ok (.database other)) : tables = other :=
  Entry.database.inj (Except.ok.inj ((holds names placed).symm.trans looked))

theorem put (holds : files.Holds place tables) {names : List Bytes}
    (outside : ∀ own, place = some own → ¬names <+: own) (entry : Entry) :
    (files.put names entry).Holds place tables := by
  intro own placed
  have looked := holds own placed
  apply Entry.look_of_descend
  · apply (Entry.descend_putAt (outside own placed) entry rfl files.top).mpr
    exact Entry.descend_of_look looked
  · exact Entry.short_of_look looked

/-- A file that stands or is made at some names does not stand in the way of the place. -/
theorem claim (holds : files.Holds place tables) {claimed : Files} {address : Address}
    {names : List Bytes} {entry : Entry}
    (made : files.claim address names = some (entry, claimed)) :
    claimed.Holds place tables ∧
      ∀ content, entry = .file content → ∀ own, place = some own → ¬names <+: own := by
  rcases claim_cases made with ⟨looked, leaf, rfl⟩ | ⟨error, entries, failed, -, rfl, rfl⟩
  · refine ⟨holds, ?_⟩
    rintro content rfl own placed ⟨rest, rfl⟩
    obtain ⟨between, way, below⟩ := Entry.look_append (holds _ placed)
    cases looked.symm.trans way
    cases rest with
    | nil => cases below
    | cons name rest => cases below
  · have outside (own : List Bytes) (placed : place = some own) : ¬names <+: own := by
      rintro ⟨rest, rfl⟩
      obtain ⟨between, way, -⟩ := Entry.look_append (holds _ placed)
      cases failed.symm.trans way
    exact ⟨holds.put outside _, fun _ _ => outside⟩

theorem openFile (holds : files.Holds place tables) (address : Address) (path : Bytes) :
    (files.openFile address path).2.Holds place tables := by
  rw [openFile_eq]
  split
  · exact holds
  · next names reached =>
      split
      · exact holds
      · next entry claimed made =>
          obtain ⟨kept, outside⟩ := holds.claim made
          rcases settle_cases address names entry claimed with
            ⟨same, -⟩ | ⟨content, isFile, -, settled⟩
          · rw [same]
            exact kept
          · rw [settled]
            exact kept.put (outside content isFile) _

theorem openTables (holds : files.Holds place tables) (text : Bytes) :
    (files.openTables text).2.Holds place tables := by
  unfold Files.openTables
  split
  · exact holds
  · split
    · exact holds
    · exact holds.openFile _ _

theorem keepTables {placed : PlacedTables} (holds : files.Holds placed.names tables) :
    (files.keepTables placed).Holds placed.names placed.tables := by
  intro names isPlace
  have looked := holds names isPlace
  rw [Files.keepTables, isPlace]
  exact Entry.look_of_descend (Entry.descend_putAt_self (Entry.descend_of_look looked) _)
    (Entry.short_of_look looked)

end Holds

theorem descend_claim {files claimed : Files} {address : Address} {names : List Bytes}
    {entry : Entry} (made : files.claim address names = some (entry, claimed)) :
    claimed.top.descend names = some entry ∧
      ∀ name ∈ names.dropLast, name.length ≤ longestName := by
  rcases claim_cases made with ⟨looked, -, rfl⟩ | ⟨error, entries, failed, parent, rfl, rfl⟩
  · refine ⟨Entry.descend_of_look looked, ?_⟩
    intro name member
    exact Entry.short_of_look looked name (List.dropLast_subset names member)
  · refine ⟨?_, Entry.short_of_look parent⟩
    rcases List.eq_nil_or_concat names with rfl | ⟨outer, last, rfl⟩
    · cases failed
    · rw [List.concat_eq_append] at parent ⊢
      rw [List.dropLast_concat] at parent
      exact Entry.descend_putAt_concat (Entry.descend_of_look parent) last _

theorem short_of_hasRoom {names : List Bytes} (room : hasRoom names = true)
    (front : ∀ name ∈ names.dropLast, name.length ≤ longestName) :
    ∀ name ∈ names, name.length ≤ longestName := by
  rcases List.eq_nil_or_concat names with rfl | ⟨outer, last, rfl⟩
  · exact List.forall_mem_nil _
  · rw [List.concat_eq_append] at room front ⊢
    rw [List.dropLast_concat] at front
    have bound : last.length ≤ longestStoreName := by simpa [hasRoom] using room
    intro name member
    rcases List.mem_append.mp member with inFront | isLast
    · exact front name inFront
    · rw [List.mem_singleton.mp isLast]
      exact bound.trans (by decide)

/-- A store file that was opened lies at its place. -/
theorem holds_openFile {files opened : Files} {address : Address} {path : Bytes}
    {placed : PlacedTables} (opens : files.openFile address path = (.ok placed, opened)) :
    opened.Holds placed.names placed.tables := by
  rw [openFile_eq] at opens
  split at opens
  · cases opens
  · next names reached =>
      split at opens
      · cases opens
      · next entry claimed made =>
          rcases settle_cases address names entry claimed with
            ⟨same, answered⟩ | ⟨content, isFile, room, settled⟩
          · rw [opens] at same answered
            obtain ⟨tables, rfl, rfl⟩ := answered placed rfl
            obtain rfl : opened = claimed := same
            rcases claim_cases made with ⟨looked, -, rfl⟩ | ⟨_, _, _, _, isFile, _⟩
            · rintro own ⟨⟩
              exact looked
            · cases isFile
          · rw [settled] at opens
            cases opens
            obtain ⟨stands, front⟩ := descend_claim made
            rintro own ⟨⟩
            exact Entry.look_of_descend (Entry.descend_putAt_self stands _)
              (short_of_hasRoom room front)

theorem holds_openTables {files opened : Files} {text : Bytes} {placed : PlacedTables}
    (opens : files.openTables text = (.ok placed, opened)) :
    opened.Holds placed.names placed.tables := by
  unfold openTables at opens
  split at opens
  · cases opens
  · next address read =>
      split at opens
      · obtain ⟨inMemory, rfl⟩ := Prod.mk.inj opens
        unfold openMemory at inMemory
        split at inMemory
        · cases inMemory
        · split at inMemory
          · cases inMemory
            exact nofun
          · cases inMemory
      · exact holds_openFile opens

/-! ### Opening in alike trees -/

theorem tablesIn_likewise {hidden : Prop} {left right : Entry}
    (similar : Entry.Similar hidden left right) :
    Likewise (fun own found => own = found ∨ hidden ∧ own.2 = false ∧ found.2 = false)
      (tablesIn left) (tablesIn right) := by
  cases similar with
  | link target => exact .error _
  | directory entries others => exact .error _
  | file content =>
      rw [tablesIn]
      split
      · exact .ok (.inl rfl)
      · exact .error _
  | @database own other version shown =>
      rw [tablesIn, tablesIn, version]
      by_cases current : other.version == Tables.currentVersion
      · rw [if_pos current, if_pos current]
        apply Likewise.ok
        by_cases away : hidden
        · exact .inr ⟨away, rfl, rfl⟩
        · rw [shown away]
          exact .inl rfl
      · rw [if_neg current, if_neg current]
        exact .error _

/-- Stores opened in trees that are alike but for a place: they are the same, or lie there. -/
structure PlacedAlike (place : Option (List Bytes)) (left right : PlacedTables) : Prop where
  names : left.names = right.names
  tables : left.tables = right.tables ∨ ∃ own, left.names = some own ∧ place = some own

/-- Two openings had the same outcome and left the trees alike. -/
structure OpenedAlike (place : Option (List Bytes))
    (left right : Except StoreError PlacedTables × Files) : Prop where
  answers : Likewise (PlacedAlike place) left.1 right.1
  alike : AlikeBut place left.2 right.2

namespace AlikeBut

variable {place : Option (List Bytes)} {left right : Files}

theorem put (alike : AlikeBut place left right) (names : List Bytes) (entry : Entry) :
    AlikeBut place (left.put names entry) (right.put names entry) :=
  ⟨alike.tops.putAt (.refl _ entry), alike.home⟩

/-- Tables that are put back in their place do not show anywhere else. -/
theorem keepTables {placed : PlacedTables} (alike : AlikeBut placed.names left right)
    {target : Tables} (kept : right.Holds placed.names target)
    (version : placed.tables.version = target.version) :
    AlikeBut placed.names (left.keepTables placed) right := by
  obtain ⟨own, tables, access⟩ := placed
  cases own with
  | none => exact alike
  | some names =>
      have found := Entry.descend_of_look (kept names rfl)
      exact ⟨alike.tops.putDatabase rfl found version, alike.home⟩

theorem claim (alike : AlikeBut place left right) (address : Address) (names : List Bytes) :
    Option.Rel (fun own found => Entry.Similar (place = some names) own.1 found.1 ∧
        AlikeBut place own.2 found.2)
      (left.claim address names) (right.claim address names) := by
  rw [Files.claim, Files.claim]
  rcases (alike.tops.look names).cases with
    ⟨error, own, other⟩ | ⟨entry, found, own, other, similar⟩
  · rw [own, other]
    dsimp only
    rcases (alike.tops.look names.dropLast).cases with
      ⟨error, own, other⟩ | ⟨parent, _, own, other, similar⟩
    · rw [own, other]
      exact .none
    · rw [own, other]
      cases similar with
      | file content => exact .none
      | link target => exact .none
      | database version shown => exact .none
      | directory entries others =>
          dsimp only
          split
          · exact .some ⟨.refl _ _, alike.put names _⟩
          · exact .none
  · rw [own, other]
    dsimp only
    rw [similar.isDirectory]
    split
    · exact .none
    · exact .some ⟨similar, alike⟩

theorem settle (alike : AlikeBut place left right) (address : Address) {names : List Bytes}
    {entry found : Entry} (similar : Entry.Similar (place = some names) entry found) :
    OpenedAlike place (Files.settle address names entry left)
      (Files.settle address names found right) := by
  unfold Files.settle
  cases address.fault? with
  | some error => exact ⟨.error _, alike⟩
  | none =>
      rcases (tablesIn_likewise similar).cases with
        ⟨error, own, other⟩ | ⟨read, readOther, own, other, same⟩
      · rw [own, other]
        exact ⟨.error _, alike⟩
      · rw [own, other]
        obtain ⟨rows, fresh⟩ := read
        rcases same with rfl | ⟨away, settled, settledOther⟩
        · cases fresh with
          | false => exact ⟨.ok ⟨rfl, .inl rfl⟩, alike⟩
          | true =>
              dsimp only
              split
              · exact ⟨.ok ⟨rfl, .inl rfl⟩, alike.put names _⟩
              · exact ⟨.error _, alike⟩
        · obtain ⟨others, freshOther⟩ := readOther
          cases settled
          cases settledOther
          exact ⟨.ok ⟨rfl, .inr ⟨names, rfl, away⟩⟩, alike⟩

theorem openFile (alike : AlikeBut place left right) (address : Address) (path : Bytes) :
    OpenedAlike place (left.openFile address path) (right.openFile address path) := by
  rw [openFile_eq, openFile_eq, alike.storeNames? path]
  cases right.storeNames? path with
  | none => exact ⟨.error _, alike⟩
  | some names =>
      dsimp only
      rcases rel_cases (alike.claim address names) with
        ⟨own, other⟩ | ⟨claimed, found, own, other, similar, kept⟩
      · rw [own, other]
        exact ⟨.error _, alike⟩
      · rw [own, other]
        exact kept.settle address similar

theorem openTables (alike : AlikeBut place left right) (text : Bytes) :
    OpenedAlike place (left.openTables text) (right.openTables text) := by
  rw [Files.openTables, Files.openTables]
  split
  · exact ⟨.error _, alike⟩
  · next address read =>
      split
      · refine ⟨?_, alike⟩
        cases openMemory address with
        | error error => exact .error error
        | ok placed => exact .ok ⟨rfl, .inl rfl⟩
      · exact alike.openFile address _

end AlikeBut

end Files

end Reroute
