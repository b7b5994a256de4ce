import Mathlib
import Reroute.Proofs.SourceMap.Coverage

/-!
# The segment closest to a column

A position resolves through the segment of its line that bisection stops at.  Whatever the
order of the line, that segment stands at or before the column and the next one does not, and
nothing is found on a line that lies behind the column.  It is the closest segment when the
columns of the line do not descend.
-/

namespace Reroute

namespace Mappings

/-- The segments of a generated line; lines that were not written have none. -/
def onLine (lines : Mappings) (line : Int64) : List Segment :=
  (pick? lines line).getD []

/-- The index of the segment behind those that bisection takes to be at or before a
column. -/
def boundary (segments : List Segment) (column : Int64) : Nat :=
  Search.firstIndex segments.length fun index =>
    decide ((segments.getD index default).generatedColumn > column)

theorem lookup?_eq (lines : Mappings) (line column : Int64) :
    lines.table.lookup? line column =
      if boundary (lines.onLine line) column = 0 then none
      else (lines.onLine line)[boundary (lines.onLine line) column - 1]? := by
  have nothing : boundary [] column = 0 := by
    simp [boundary, Search.firstIndex, Search.bisect]
  unfold MappingTable.lookup? onLine pick?
  by_cases negative : line < 0
  · simp [negative, nothing]
  · simp only [negative, if_false, table_getElem?]
    cases lines[line.toNatClampNeg]? with
    | none => simp [nothing]
    | some segments => simp [boundary]

end Mappings

/-- The segment is at or before the column, and the next one is not. -/
def Brackets (segments : List Segment) (column : Int64) (segment : Segment) : Prop :=
  ∃ left right, segments = left ++ segment :: right ∧ segment.generatedColumn ≤ column ∧
    ∀ next ∈ right.head?, column < next.generatedColumn

/-- The segment has the greatest generated column at or before a column, and is the last
that has it. -/
structure Closest (segments : List Segment) (column : Int64) (segment : Segment) : Prop where
  split : ∃ left right, segments = left ++ segment :: right ∧
    (∀ other ∈ left, other.generatedColumn ≤ column →
      other.generatedColumn ≤ segment.generatedColumn) ∧
    (∀ other ∈ right, other.generatedColumn ≤ column →
      other.generatedColumn < segment.generatedColumn)
  starts : segment.generatedColumn ≤ column

def Ascending (segments : List Segment) : Prop :=
  segments.Pairwise fun left right => left.generatedColumn ≤ right.generatedColumn

theorem Covers.closest {segments : List Segment} {column : Int64} {segment : Segment}
    (covers : Covers segments column segment) (ascending : Ascending segments) :
    Closest segments column segment := by
  obtain ⟨⟨left, right, rfl, -, behind⟩, starts⟩ := covers
  refine ⟨⟨left, right, rfl, ?_, ?_⟩, starts⟩
  · intro other member _
    exact (List.pairwise_append.mp ascending).2.2 other member segment List.mem_cons_self
  · intro other member reached
    exact absurd (behind other member) (Int64.not_lt.mpr reached)

theorem exists_last_of_exists {α : Type} {Holds : α → Prop} {items : List α}
    (found : ∃ item ∈ items, Holds item) :
    ∃ left item right, items = left ++ item :: right ∧ Holds item ∧
      ∀ other ∈ right, ¬Holds other := by
  induction items with
  | nil => simp at found
  | cons first items induction =>
      by_cases later : ∃ item ∈ items, Holds item
      · obtain ⟨left, item, right, rfl, holds, last⟩ := induction later
        exact ⟨first :: left, item, right, rfl, holds, last⟩
      · obtain ⟨item, member, holds⟩ := found
        rcases List.mem_cons.mp member with rfl | inside
        · refine ⟨[], item, items, rfl, holds, ?_⟩
          intro other otherMember otherHolds
          exact later ⟨other, otherMember, otherHolds⟩
        · exact absurd ⟨item, inside, holds⟩ later

theorem Ascending.exists_covers {segments : List Segment} {column : Int64}
    (ascending : Ascending segments)
    (reached : ∃ segment ∈ segments, segment.generatedColumn ≤ column) :
    ∃ segment, Covers segments column segment := by
  obtain ⟨left, segment, right, rfl, starts, behind⟩ := exists_last_of_exists reached
  refine ⟨segment, ⟨left, right, rfl, ?_, ?_⟩, starts⟩
  · intro other member
    have before := (List.pairwise_append.mp ascending).2.2 other member segment
      List.mem_cons_self
    exact Int64.le_trans before starts
  · intro other member
    exact Int64.not_le.mp (behind other member)

namespace Mappings

variable {lines : Mappings} {line column : Int64} {segment : Segment}

/-- The segment in front of the boundary is at or before the column, and the one at the
boundary is behind it. -/
theorem boundary_turns (segments : List Segment) (column : Int64) :
    (0 < boundary segments column → ∃ segment,
        segments[boundary segments column - 1]? = some segment ∧
          segment.generatedColumn ≤ column) ∧
      ∀ segment ∈ segments[boundary segments column]?, column < segment.generatedColumn := by
  obtain ⟨⟨-, inside⟩, below, above⟩ :=
    @Search.bisect_turns
      (fun index => decide ((segments.getD index default).generatedColumn > column)) 0
      segments.length (Nat.zero_le _)
  change boundary segments column ≤ _ at inside
  constructor
  · intro positive
    have found : boundary segments column - 1 < segments.length := by omega
    refine ⟨_, List.getElem?_eq_getElem found, ?_⟩
    have refused := below positive
    change decide ((segments.getD (boundary segments column - 1) default).generatedColumn >
      column) = false at refused
    rw [decide_eq_false_iff_not, gt_iff_lt, Int64.not_lt, List.getD_eq_getElem _ _ found]
      at refused
    exact refused
  · intro segment member
    obtain ⟨found, rfl⟩ := List.getElem?_eq_some_iff.mp member
    have accepted := above found
    change decide ((segments.getD (boundary segments column) default).generatedColumn >
      column) = true at accepted
    rw [decide_eq_true_iff, List.getD_eq_getElem _ _ found] at accepted
    exact accepted

theorem brackets_of_lookup? (found : lines.table.lookup? line column = some segment) :
    Brackets (lines.onLine line) column segment := by
  obtain ⟨below, above⟩ := boundary_turns (lines.onLine line) column
  rw [lookup?_eq] at found
  generalize boundary (lines.onLine line) column = index at below above found
  generalize lines.onLine line = segments at below above found ⊢
  cases index with
  | zero => cases found
  | succ index =>
      rw [if_neg (Nat.succ_ne_zero _), Nat.add_sub_cancel] at found
      obtain ⟨same, selected, starts⟩ := below (Nat.succ_pos _)
      obtain rfl : same = segment := Option.some.inj (selected.symm.trans found)
      obtain ⟨inside, rfl⟩ := List.getElem?_eq_some_iff.mp found
      refine ⟨segments.take index, segments.drop (index + 1), ?_, starts, ?_⟩
      · rw [List.getElem_cons_drop, List.take_append_drop]
      · rwa [List.head?_drop]

/-- A look-up that finds nothing finds the line empty or its first segment behind the
column. -/
theorem behind_of_lookup?_eq_none (missing : lines.table.lookup? line column = none) :
    ∀ first ∈ (lines.onLine line).head?, column < first.generatedColumn := by
  obtain ⟨below, above⟩ := boundary_turns (lines.onLine line) column
  rw [lookup?_eq] at missing
  by_cases stopped : boundary (lines.onLine line) column = 0
  · rwa [stopped, ← List.head?_eq_getElem?] at above
  · obtain ⟨segment, selected, -⟩ := below (Nat.pos_of_ne_zero stopped)
    rw [if_neg stopped, selected] at missing
    cases missing

theorem lookup?_eq_none_of_behind
    (behind : ∀ segment ∈ lines.onLine line, column < segment.generatedColumn) :
    lines.table.lookup? line column = none := by
  by_contra found
  obtain ⟨segment, found⟩ := Option.ne_none_iff_exists'.mp found
  obtain ⟨left, right, equality, starts, -⟩ := brackets_of_lookup? found
  exact absurd (behind segment (by simp [equality])) (Int64.not_lt.mpr starts)

theorem lookup?_eq_some_of_covers (covers : Covers (lines.onLine line) column segment) :
    lines.table.lookup? line column = some segment := by
  obtain ⟨⟨left, right, equality, before, behind⟩, starts⟩ := covers
  have reached : boundary (lines.onLine line) column = left.length + 1 := by
    rw [equality]
    simpa [boundary] using firstIndex_of_split before starts behind
  rw [lookup?_eq, reached, if_neg (Nat.succ_ne_zero _), equality]
  simp

end Mappings

namespace SourceMap

open Mappings

/-- What a position resolves through.  On an ascending line it is the closest segment. -/
theorem resolve_through_closest {map : SourceMap} {lines : Mappings}
    (decoded : map.decode = .ok lines) (line column : Int64) :
    let segments := lines.onLine line
    let used := lines.table.lookup? line column
    map.resolve line column = .ok (used.bind map.positionOf?) ∧
      (∀ segment, used = some segment → Brackets segments column segment) ∧
      (used = none → ∀ first ∈ segments.head?, column < first.generatedColumn) ∧
      ((∀ segment ∈ segments, column < segment.generatedColumn) →
        map.resolve line column = .ok none) ∧
      (Ascending segments → (∃ segment ∈ segments, segment.generatedColumn ≤ column) →
        ∃ segment, used = some segment ∧ Closest segments column segment) := by
  intro segments used
  have resolved : map.resolve line column = .ok (used.bind map.positionOf?) := by
    rw [resolve, decoded]
  refine ⟨resolved, ?_, behind_of_lookup?_eq_none, ?_, ?_⟩
  · intro segment found
    exact brackets_of_lookup? found
  · intro behind
    rw [resolved, show used = none from lookup?_eq_none_of_behind behind, Option.bind_none]
  · intro ascending reached
    obtain ⟨segment, covers⟩ := ascending.exists_covers reached
    exact ⟨segment, lookup?_eq_some_of_covers covers, covers.closest ascending⟩

def ofMappings (mappings : Bytes) : SourceMap :=
  { version := revision
    file := []
    sourceRoot := []
    sources := some [utf8 "a.ts"]
    sourcesContent := []
    names := some []
    mappings }

/-- Of two segments at one column the later one is used. -/
theorem resolve_through_closest_tied :
    ∃ segment,
      Closest [⟨0, 0, 0, 0, -1⟩, ⟨2, 0, 0, 1, -1⟩, ⟨2, 0, 0, 2, -1⟩, ⟨9, 0, 0, 3, -1⟩] 5 segment ∧
      (ofMappings (utf8 "AAAA,EAAC,AAAC,OAAC")).resolve 0 5 =
        .ok ((ofMappings (utf8 "AAAA,EAAC,AAAC,OAAC")).positionOf? segment) := by
  let lines : Mappings :=
    [[⟨0, 0, 0, 0, -1⟩, ⟨2, 0, 0, 1, -1⟩, ⟨2, 0, 0, 2, -1⟩, ⟨9, 0, 0, 3, -1⟩]]
  have decoded : (ofMappings (utf8 "AAAA,EAAC,AAAC,OAAC")).decode = .ok lines := by
    decide +kernel
  have ascending : Ascending (lines.onLine 0) := by
    unfold Ascending
    decide
  obtain ⟨resolved, -, -, -, closest⟩ := resolve_through_closest decoded 0 5
  obtain ⟨segment, used, isClosest⟩ := closest ascending (by decide)
  rw [used, Option.bind_some] at resolved
  exact ⟨segment, isClosest, resolved⟩

/-- A map of two lines whose columns descend. -/
def descendingMap : SourceMap :=
  ofMappings (utf8 "AAAA,UAAC,LAAC;UAAC,AAAC,VAAC")

/-- Bisection stops too early on the first line and finds nothing on the second one. -/
theorem closest_missed :
    ∃ lines first second, descendingMap.decode = .ok lines ∧
      Closest (lines.onLine 0) 7 first ∧ Closest (lines.onLine 1) 5 second ∧
      descendingMap.positionOf? first = some ⟨utf8 "a.ts", 0, 2, []⟩ ∧
      descendingMap.positionOf? second = some ⟨utf8 "a.ts", 0, 5, []⟩ ∧
      descendingMap.resolve 0 7 = .ok (some ⟨utf8 "a.ts", 0, 0, []⟩) ∧
      descendingMap.resolve 1 5 = .ok none := by
  let lines : Mappings :=
    [[⟨0, 0, 0, 0, -1⟩, ⟨10, 0, 0, 1, -1⟩, ⟨5, 0, 0, 2, -1⟩],
      [⟨10, 0, 0, 3, -1⟩, ⟨10, 0, 0, 4, -1⟩, ⟨0, 0, 0, 5, -1⟩]]
  have first : Closest (lines.onLine 0) 7 ⟨5, 0, 0, 2, -1⟩ :=
    ⟨⟨[⟨0, 0, 0, 0, -1⟩, ⟨10, 0, 0, 1, -1⟩], [], rfl, by decide, by decide⟩, by decide⟩
  have second : Closest (lines.onLine 1) 5 ⟨0, 0, 0, 5, -1⟩ :=
    ⟨⟨[⟨10, 0, 0, 3, -1⟩, ⟨10, 0, 0, 4, -1⟩], [], rfl, by decide, by decide⟩, by decide⟩
  exact ⟨lines, _, _, by decide +kernel, first, second, by decide, by decide, by decide +kernel,
    by decide +kernel⟩

end SourceMap

end Reroute
