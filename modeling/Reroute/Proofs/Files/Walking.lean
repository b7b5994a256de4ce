import Mathlib
import Reroute.Files.Walk
import Reroute.Proofs.Files.Routes

/-!
# Walks through proper trees

In a proper tree the members of a directory have different names, and every name is that of a
member.  Whatever a path leads to is part of the tree.  A walk then comes to every place once:
no two of its leaves are reached by the same names.
-/

namespace Reroute

namespace Entry

mutual

/-- The members of all directories have different names, none of which is empty, has a slash
in it, or stands for a directory itself. -/
def Proper : Entry → Prop
  | .directory entries => (entries.map Prod.fst).Nodup ∧ MembersProper entries
  | _ => True

/-- The members of a directory have proper names and are proper themselves. -/
def MembersProper : List (Bytes × Entry) → Prop
  | [] => True
  | (name, entry) :: entries => Path.Proper name ∧ entry.Proper ∧ MembersProper entries

end

theorem MembersProper.of_mem {entries : List (Bytes × Entry)} (proper : MembersProper entries)
    {member : Bytes × Entry} (listed : member ∈ entries) :
    Path.Proper member.1 ∧ member.2.Proper := by
  induction entries with
  | nil => cases listed
  | cons first entries induction =>
      rw [MembersProper] at proper
      rcases List.mem_cons.mp listed with rfl | later
      · exact ⟨proper.1, proper.2.1⟩
      · exact induction proper.2.2 later

theorem Proper.member? {entry inner : Entry} (proper : entry.Proper) {name : Bytes}
    (found : entry.member? name = some inner) : inner.Proper := by
  unfold Entry.member? at found
  split at found
  · obtain ⟨member, listed, rfl⟩ := Option.map_eq_some_iff.mp found
    rw [Proper] at proper
    exact (proper.2.of_mem (List.mem_of_find?_eq_some listed)).2
  · cases found

theorem Proper.descend {names : List Bytes} {entry inner : Entry} (proper : entry.Proper)
    (found : entry.descend names = some inner) : inner.Proper := by
  induction names generalizing entry with
  | nil =>
      cases found
      exact proper
  | cons name names induction =>
      rw [Entry.descend] at found
      split at found
      · next member => exact induction (proper.member? member) found
      · cases found

/-! ### Leaves -/

/-- The leaves lie behind some names, each of them somewhere else.  The names behind are
proper. -/
structure Spread (front : List Bytes) (leaves : List Leaf) : Prop where
  behind : ∀ leaf ∈ leaves, ∃ rest, leaf.names = front ++ rest ∧ ∀ name ∈ rest, Path.Proper name
  apart : (leaves.map Leaf.names).Nodup

/-- The leaves of different members lie behind different names. -/
theorem Spread.append {front : List Bytes} {name : Bytes} {own others : List Leaf}
    (proper : Path.Proper name) (ownSpread : Spread (front ++ [name]) own)
    (othersSpread : Spread front others)
    (elsewhere : ∀ leaf ∈ others, ∃ other rest, other ≠ name ∧
      leaf.names = front ++ other :: rest) : Spread front (own ++ others) where
  behind leaf member := by
    rcases List.mem_append.mp member with inOwn | inOthers
    · obtain ⟨rest, names, allProper⟩ := ownSpread.behind leaf inOwn
      refine ⟨name :: rest, by rw [names, List.append_assoc]; rfl, ?_⟩
      intro other listed
      rcases List.mem_cons.mp listed with rfl | later
      · exact proper
      · exact allProper other later
    · exact othersSpread.behind leaf inOthers
  apart := by
    rw [List.map_append, List.nodup_append']
    refine ⟨ownSpread.apart, othersSpread.apart, ?_⟩
    intro names inOwn inOthers
    obtain ⟨ownLeaf, ownMember, rfl⟩ := List.mem_map.mp inOwn
    obtain ⟨otherLeaf, otherMember, same⟩ := List.mem_map.mp inOthers
    obtain ⟨rest, ownNames, -⟩ := ownSpread.behind ownLeaf ownMember
    obtain ⟨other, otherRest, different, otherNames⟩ := elsewhere otherLeaf otherMember
    rw [ownNames, otherNames, List.append_assoc] at same
    exact different (List.cons.inj (List.append_cancel_left same)).1

mutual

theorem Proper.spread_leavesFrom (passOver : Bytes → Bool) (names : List Bytes) {entry : Entry}
    (proper : entry.Proper) : Spread names.reverse (entry.leavesFrom passOver names) := by
  have single (leaf : Entry) : Spread names.reverse [⟨names.reverse, leaf⟩] := by
    constructor
    · intro found member
      obtain rfl := List.mem_singleton.mp member
      exact ⟨[], by simp, nofun⟩
    · exact List.nodup_singleton _
  match entry with
  | .directory entries =>
      rw [leavesFrom]
      rw [Proper] at proper
      exact (proper.2.spread_memberLeaves passOver names proper.1).1
  | .file content => exact single (.file content)
  | .database tables => exact single (.database tables)
  | .link target => exact single (.link target)

/-- The leaves of members lie behind the names of the members. -/
theorem MembersProper.spread_memberLeaves (passOver : Bytes → Bool) (names : List Bytes)
    {entries : List (Bytes × Entry)} (proper : MembersProper entries)
    (distinct : (entries.map Prod.fst).Nodup) :
    Spread names.reverse (memberLeaves passOver names entries) ∧
      ∀ leaf ∈ memberLeaves passOver names entries, ∃ name rest,
        name ∈ entries.map Prod.fst ∧ leaf.names = names.reverse ++ name :: rest := by
  match entries with
  | [] =>
      rw [memberLeaves]
      exact ⟨⟨nofun, List.nodup_nil⟩, nofun⟩
  | (name, entry) :: entries =>
      rw [MembersProper] at proper
      rw [List.map_cons, List.nodup_cons] at distinct
      obtain ⟨othersSpread, placed⟩ :=
        proper.2.2.spread_memberLeaves passOver names distinct.2
      have ownSpread : Spread (names.reverse ++ [name])
          (if entry.isDirectory && passOver name then []
            else entry.leavesFrom passOver (name :: names)) := by
        split
        · exact ⟨nofun, List.nodup_nil⟩
        · rw [← List.reverse_cons]
          exact proper.2.1.spread_leavesFrom passOver (name :: names)
      rw [memberLeaves]
      constructor
      · apply ownSpread.append proper.1 othersSpread
        intro leaf member
        obtain ⟨other, rest, listed, leafNames⟩ := placed leaf member
        refine ⟨other, rest, ?_, leafNames⟩
        rintro rfl
        exact distinct.1 listed
      · intro leaf member
        rcases List.mem_append.mp member with inOwn | inOthers
        · obtain ⟨rest, leafNames, -⟩ := ownSpread.behind leaf inOwn
          refine ⟨name, rest, List.mem_cons_self, ?_⟩
          rw [leafNames, List.append_assoc]
          rfl
        · obtain ⟨other, rest, listed, leafNames⟩ := placed leaf inOthers
          exact ⟨other, rest, List.mem_cons_of_mem _ listed, leafNames⟩

end

/-- The leaves of a proper directory are reached by different names, and by one at least. -/
theorem Proper.leaves {entries : List (Bytes × Entry)} (proper : (directory entries).Proper)
    (passOver : Bytes → Bool) :
    (((directory entries).leaves passOver).map Leaf.names).Nodup ∧
      ∀ leaf ∈ (directory entries).leaves passOver,
        leaf.names ≠ [] ∧ ∀ name ∈ leaf.names, Path.Proper name := by
  have spread := proper.spread_leavesFrom passOver []
  refine ⟨spread.apart, ?_⟩
  intro leaf member
  constructor
  · rw [Proper] at proper
    rw [Entry.leaves, leavesFrom] at member
    obtain ⟨name, rest, -, names⟩ :=
      (proper.2.spread_memberLeaves passOver [] proper.1).2 leaf member
    rw [names]
    exact nofun
  · obtain ⟨rest, names, allProper⟩ := spread.behind leaf member
    rw [names]
    exact allProper

end Entry

namespace Files

/-! ### What paths lead to -/

theorem descend_of_entryAt {files : Files} {followLast : Bool} {path : Bytes} {entry : Entry}
    (found : files.entryAt followLast path = .ok entry) :
    ∃ names, files.top.descend names = some entry := by
  unfold entryAt at found
  split at found
  · next names inner reached =>
      cases found
      refine ⟨names, ?_⟩
      unfold reach at reached
      split at reached
      · cases reached
      · split at reached
        · cases reached
        · split at reached
          · cases reached
          · exact (follow_eq_iff.mp reached).descend rfl
  · cases found
  · cases found

/-- What is at a path of a proper tree is proper. -/
theorem proper_of_entryAt {files : Files} (proper : files.top.Proper) {followLast : Bool}
    {path : Bytes} {entry : Entry} (found : files.entryAt followLast path = .ok entry) :
    entry.Proper := by
  obtain ⟨names, descended⟩ := descend_of_entryAt found
  exact proper.descend descended

/-- An empty path leads nowhere. -/
theorem ne_nil_of_entryAt {files : Files} {followLast : Bool} {path : Bytes} {entry : Entry}
    (found : files.entryAt followLast path = .ok entry) : path ≠ [] := by
  rintro rfl
  cases found

/-! ### Where walks start -/

/-- The members are looked up by their names, which stay. -/
theorem lookUpMembers_spec {files : Files} (proper : files.top.Proper) {start : Bytes}
    {members found : List (Bytes × Entry)} (named : Entry.MembersProper members)
    (lookedUp : files.lookUpMembers start members = .ok found) :
    found.map Prod.fst = members.map Prod.fst ∧ Entry.MembersProper found := by
  induction members generalizing found with
  | nil =>
      cases lookedUp
      exact ⟨rfl, named⟩
  | cons member members induction =>
      obtain ⟨name, old⟩ := member
      rw [Entry.MembersProper] at named
      rw [lookUpMembers] at lookedUp
      split at lookedUp
      · cases lookedUp
      · next entry answered =>
          split at lookedUp
          · cases lookedUp
          · next others rest =>
              cases lookedUp
              obtain ⟨names, allProper⟩ := induction named.2.2 rest
              refine ⟨by rw [List.map_cons, names, List.map_cons], ?_⟩
              rw [Entry.MembersProper]
              exact ⟨named.1, proper_of_entryAt proper answered, allProper⟩

theorem proper_of_walkStart {files : Files} (proper : files.top.Proper) {start : Bytes}
    {entry : Entry} (started : files.walkStart start = .ok entry) : entry.Proper := by
  unfold walkStart at started
  split at started
  · next members found =>
      have whole := proper_of_entryAt proper found
      rw [Entry.Proper] at whole
      cases lookedUp : files.lookUpMembers start members with
      | error error =>
          rw [lookedUp] at started
          cases started
      | ok again =>
          rw [lookedUp] at started
          cases started
          obtain ⟨names, allProper⟩ := lookUpMembers_spec proper whole.2 lookedUp
          rw [Entry.Proper, names]
          exact ⟨whole.1, allProper⟩
  · exact proper_of_entryAt proper started

end Files

end Reroute
