import Mathlib
import Reroute.Proofs.Search
import Reroute.SourceMap.Lookup

/-!
# The segment that covers a column

Segments are collected line by line.  A column of a line splits the segments of the line
into those at or before it and those behind it.  When the line is split that way,
bisection finds the last segment of the first part.
-/

namespace Reroute

namespace Builder

/-- The segments collected for a line. -/
def lineAt (builder : Builder) (line : Nat) : List Segment :=
  (builder.lines.getD line #[]).toList

@[simp] theorem lineAt_empty (line : Nat) : empty.lineAt line = [] := by
  simp [lineAt, empty]

theorem getElem?_padded (lines : Array (Array Segment)) (count line : Nat) :
    (lines ++ Array.replicate count #[])[line]?.getD #[] = lines[line]?.getD #[] := by
  by_cases inside : line < lines.size
  · rw [Array.getElem?_append_left inside]
  · have outside : lines.size ≤ line := Nat.le_of_not_lt inside
    rw [Array.getElem?_append_right outside, Array.getElem?_eq_none outside,
      Array.getElem?_replicate]
    split <;> rfl

theorem lineAt_add (builder : Builder) (target : Nat) (segment : Segment) (line : Nat) :
    (builder.add target segment).lineAt line =
      builder.lineAt line ++ if line = target then [segment] else [] := by
  have padding := getElem?_padded builder.lines (target + 1 - builder.lines.size) line
  simp only [lineAt, add, Array.getD_eq_getD_getElem?, Array.getElem?_modify, ← padding]
  by_cases same : line = target
  · subst same
    have inside :
        line < (builder.lines ++ Array.replicate (line + 1 - builder.lines.size) #[]).size := by
      simp only [Array.size_append, Array.size_replicate]
      omega
    rw [if_pos rfl, if_pos rfl, Array.getElem?_eq_getElem inside]
    simp
  · rw [if_neg (Ne.symm same), if_neg same, List.append_nil]

theorem mappings_getElem? {builder : Builder} {line : Nat}
    (filled : builder.lineAt line ≠ []) :
    builder.mappings[line]? = some (builder.lineAt line) := by
  have inside : line < builder.lines.size := by
    by_contra outside
    exact filled (by simp [lineAt, outside])
  simp [mappings, lineAt, inside]

theorem exists_lineAt_of_mem_mappings {builder : Builder} {segments : List Segment}
    (member : segments ∈ builder.mappings) : ∃ line, segments = builder.lineAt line := by
  obtain ⟨line, inside, equality⟩ := List.getElem_of_mem member
  refine ⟨line, ?_⟩
  have bound : line < builder.lines.size := by simpa [mappings] using inside
  rw [← equality]
  simp [mappings, lineAt, bound]

end Builder

/-- The segment is the last one of the line at or before the column, and all segments
after it are behind the column. -/
structure Covers (line : List Segment) (column : Int64) (segment : Segment) : Prop where
  split : ∃ left right, line = left ++ segment :: right ∧
    (∀ other ∈ left, other.generatedColumn ≤ column) ∧
    (∀ other ∈ right, column < other.generatedColumn)
  starts : segment.generatedColumn ≤ column

namespace Mappings

theorem firstIndex_of_split {left right : List Segment} {segment : Segment} {column : Int64}
    (before : ∀ other ∈ left, other.generatedColumn ≤ column)
    (starts : segment.generatedColumn ≤ column)
    (behind : ∀ other ∈ right, column < other.generatedColumn) :
    Search.firstIndex (left ++ segment :: right).toArray.size
        (fun index =>
          decide
            (((left ++ segment :: right).toArray.getD index default).generatedColumn
              > column)) =
      left.length + 1 := by
  have split : left ++ segment :: right = (left ++ [segment]) ++ right := by simp
  have size : (left ++ [segment]).length = left.length + 1 := by simp
  have notBehind :
      ∀ other ∈ left ++ [segment], decide (other.generatedColumn > column) = false := by
    intro other member
    rw [decide_eq_false_iff_not, gt_iff_lt, Int64.not_lt]
    rcases List.mem_append.mp member with inLeft | last
    · exact before other inLeft
    · rw [List.mem_singleton.mp last]
      exact starts
  have found :=
    Search.firstIndex_append (default : Segment)
      (fun other => decide (other.generatedColumn > column)) notBehind
      (fun other member => decide_eq_true (behind other member))
  rw [split, found, size]

theorem table_getElem? (lines : Mappings) (line : Nat) :
    lines.table[line]? = lines[line]?.map List.toArray := by
  simp [table]

theorem lookup?_ofNat {lines : Mappings} {line : Nat} (small : line < 2 ^ 63)
    {segments : List Segment} (found : lines[line]? = some segments) (column : Int64) :
    lines.table.lookup? (Int64.ofNat line) column =
      (let index :=
          Search.firstIndex segments.toArray.size fun index =>
            decide ((segments.toArray.getD index default).generatedColumn > column)
        if index = 0 then none else segments.toArray[index - 1]?) := by
  have nonnegative : ¬Int64.ofNat line < 0 := by
    rw [Int64.lt_iff_toInt_lt, Int64.toInt_ofNat_of_lt small, Int64.toInt_zero]
    omega
  have restored : (Int64.ofNat line).toNatClampNeg = line := by
    rw [← Int64.toNat_toInt, Int64.toInt_ofNat_of_lt small, Int.toNat_natCast]
  rw [MappingTable.lookup?, if_neg nonnegative, restored, table_getElem?, found]
  rfl

/-- A look-up finds the segment that covers the column. -/
theorem lookup?_of_covers {lines : Mappings} {line : Nat} (small : line < 2 ^ 63)
    {segments : List Segment} (found : lines[line]? = some segments)
    {column : Int64} {segment : Segment} (covers : Covers segments column segment) :
    lines.table.lookup? (Int64.ofNat line) column = some segment := by
  obtain ⟨⟨left, right, rfl, before, behind⟩, starts⟩ := covers
  rw [lookup?_ofNat small found]
  simp only [firstIndex_of_split before starts behind]
  simp

end Mappings

end Reroute
