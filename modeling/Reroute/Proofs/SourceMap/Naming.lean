import Mathlib
import Reroute.Proofs.SourceMap.Resolution

/-!
# The names of composed maps

The names of composed segments come from two tables, which may repeat names and may be indexed
out of range, and they are collected while segments are dropped.  What comes out is a table of
exactly the names in use, each listed once, in the order in which the segments first use them.
The segments of a line are those that the parent resolves, in their order and at their columns.
-/

namespace Reroute

/-! ### Segments of all lines, one after the other -/

theorem Mappings.flatten_eq_range {lines : Mappings} {count : Nat} (inside : lines.length ≤ count) :
    lines.flatten = ((List.range count).map fun line => lines.getD line []).flatten := by
  induction lines generalizing count with
  | nil => simp
  | cons line lines induction =>
      obtain ⟨count, rfl⟩ : ∃ rest, count = rest + 1 := ⟨count - 1, by simp at inside; omega⟩
      rw [List.flatten_cons, induction (Nat.le_of_succ_le_succ inside), List.range_succ_eq_map,
        List.map_cons, List.map_map, List.flatten_cons]
      rfl

/-- Mappings with the same lines have the same segments altogether. -/
theorem Mappings.SameLines.flatten_eq {left right : Mappings} (same : SameLines left right) :
    left.flatten = right.flatten := by
  rw [flatten_eq_range (Nat.le_max_left left.length right.length),
    flatten_eq_range (Nat.le_max_right left.length right.length)]
  simp only [same _]

namespace Builder

variable {builder : Builder} {line : Nat}

theorem size_lines_add (reached : builder.lines.size ≤ line + 1) (segment : Segment) :
    (builder.add line segment).lines.size = line + 1 := by
  simp only [add, Array.size_modify, Array.size_append, Array.size_replicate]
  omega

/-- A segment of the last line, or of a later one, comes behind all others. -/
theorem flatten_mappings_add (reached : builder.lines.size ≤ line + 1) (segment : Segment) :
    (builder.add line segment).mappings.flatten = builder.mappings.flatten ++ [segment] := by
  have bound : builder.mappings.length ≤ line + 1 := by simpa [mappings] using reached
  have grown : (builder.add line segment).mappings.length ≤ line + 1 := by
    simp [mappings, size_lines_add reached segment]
  have front : (List.range line).map (builder.add line segment).lineAt =
      (List.range line).map builder.lineAt := by
    apply List.map_congr_left
    intro other member
    rw [lineAt_add, if_neg (Nat.ne_of_lt (List.mem_range.mp member)), List.append_nil]
  rw [Mappings.flatten_eq_range bound, Mappings.flatten_eq_range grown]
  simp only [mappings_getD, List.range_succ, List.map_append, List.flatten_append]
  rw [front]
  simp [lineAt_add]

end Builder

namespace SourceMap

/-! ### Tables of names in use -/

/-- A segment is the first to use the name with an index, and all names in front of it have been
used before. -/
def FirstUsed (segments : List Segment) (index : Nat) : Prop :=
  ∃ before segment after, segments = before ++ segment :: after ∧
    segment.nameIndex.toInt = (index : Int) ∧
    (∀ other ∈ before, other.nameIndex.toInt ≠ (index : Int)) ∧
    ∀ earlier < index, ∃ other ∈ before, other.nameIndex.toInt = (earlier : Int)

theorem FirstUsed.append {segments : List Segment} {index : Nat} (used : FirstUsed segments index)
    (more : List Segment) : FirstUsed (segments ++ more) index := by
  obtain ⟨before, segment, after, rfl, uses, fresh, earlier⟩ := used
  exact ⟨before, segment, after ++ more, by simp, uses, fresh, earlier⟩

theorem FirstUsed.exists_use {segments : List Segment} {index : Nat}
    (used : FirstUsed segments index) : ∃ segment ∈ segments, segment.nameIndex.toInt = index := by
  obtain ⟨before, segment, after, rfl, uses, -⟩ := used
  exact ⟨segment, by simp, uses⟩

/-- The segment has no name, or one of the table. -/
def NamedIn (names : List Bytes) (segment : Segment) : Prop :=
  segment.nameIndex = Segment.noName ∨ ∃ index < names.length, segment.nameIndex.toInt = index

/-- The table lists the names of the segments, each once, in the order of their first use. -/
structure Introduces (names : List Bytes) (segments : List Segment) : Prop where
  nodup : names.Nodup
  named : ∀ segment ∈ segments, NamedIn names segment
  used : ∀ index < names.length, FirstUsed segments index

namespace Introduces

variable {names : List Bytes} {segments : List Segment} {segment : Segment}

theorem nil : Introduces [] [] :=
  ⟨List.nodup_nil, by simp, by simp⟩

/-- A segment without a name, or with a known one, leaves the table as it is. -/
theorem append_known (introduces : Introduces names segments) (known : NamedIn names segment) :
    Introduces names (segments ++ [segment]) := by
  refine ⟨introduces.nodup, ?_, fun index inside => (introduces.used index inside).append _⟩
  intro other member
  rcases List.mem_append.mp member with earlier | last
  · exact introduces.named other earlier
  · rwa [List.mem_singleton.mp last]

/-- A segment with a new name puts it at the end of the table. -/
theorem append_new (introduces : Introduces names segments) {name : Bytes} (fresh : name ∉ names)
    (numbered : segment.nameIndex.toInt = names.length) :
    Introduces (names ++ [name]) (segments ++ [segment]) := by
  have length : (names ++ [name]).length = names.length + 1 := List.length_append
  constructor
  · rw [← List.concat_eq_append]
    exact introduces.nodup.concat fresh
  · intro other member
    rcases List.mem_append.mp member with earlier | last
    · rcases introduces.named other earlier with nameless | ⟨index, inside, uses⟩
      · exact .inl nameless
      · exact .inr ⟨index, by omega, uses⟩
    · rw [List.mem_singleton.mp last]
      exact .inr ⟨names.length, by omega, numbered⟩
  · intro index inside
    rcases Nat.lt_or_eq_of_le (Nat.le_of_lt_succ (length ▸ inside)) with known | rfl
    · exact (introduces.used index known).append _
    · -- All segments so far use smaller indices, and every smaller index has been used.
      refine ⟨segments, segment, [], rfl, numbered, ?_, ?_⟩
      · intro other member
        rcases introduces.named other member with nameless | ⟨index, known, uses⟩
        · have negative : Segment.noName.toInt = -1 := rfl
          rw [nameless, negative]
          omega
        · omega
      · intro earlier known
        exact (introduces.used earlier known).exists_use

/-- A composed segment extends the table where its name is new. -/
theorem composeSegment (introduces : Introduces names segments) {delta parent : SourceMap}
    {table : MappingTable} {extended : List Bytes} {composed : Segment}
    (carried : SourceMap.composeSegment delta parent table names segment =
      some (composed, extended))
    (small : extended.length < 2 ^ 63) : Introduces extended (segments ++ [composed]) := by
  unfold SourceMap.composeSegment at carried
  split at carried
  · cases carried
  split at carried
  · cases carried
  next target _ _ _ _ =>
  cases named : composedName? delta parent segment target with
  | none =>
      simp only [named] at carried
      cases carried
      exact introduces.append_known (.inl rfl)
  | some name =>
      simp only [named, intern] at carried
      cases known : names.idxOf? name with
      | some index =>
          simp only [known] at carried
          cases carried
          obtain ⟨inside, -⟩ := List.idxOf?_eq_some_iff.mp known
          refine introduces.append_known (.inr ⟨index, inside, ?_⟩)
          exact Int64.toInt_ofNat_of_lt (Nat.lt_trans inside small)
      | none =>
          simp only [known] at carried
          cases carried
          refine introduces.append_new (List.idxOf?_eq_none_iff.mp known) ?_
          apply Int64.toInt_ofNat_of_lt
          rw [List.length_append] at small
          omega

end Introduces

/-! ### Composition as a run over all segments -/

section Run

variable {delta parent : SourceMap} {table : MappingTable} {line : Nat}
  {state : Builder × List Bytes}

/-- Segments were collected up to a line, and the table lists their names. -/
structure Collected (pool : List Bytes) (line : Nat) (state : Builder × List Bytes) : Prop where
  reached : state.1.lines.size ≤ line + 1
  interned : Interned pool state.2
  introduces : Introduces state.2 state.1.mappings.flatten

theorem Collected.nextLine {pool : List Bytes} (collected : Collected pool line state) :
    Collected pool (line + 1) state :=
  { collected with reached := Nat.le_succ_of_le collected.reached }

theorem Collected.composeLine (bounded : (namePool delta parent).length < 2 ^ 63)
    (collected : Collected (namePool delta parent) line state) (segments : List Segment) :
    Collected (namePool delta parent) line
      (SourceMap.composeLine delta parent table line state segments) := by
  induction segments generalizing state with
  | nil => exact collected
  | cons segment segments induction =>
      obtain ⟨builder, names⟩ := state
      rw [SourceMap.composeLine, List.foldl_cons]
      apply induction
      dsimp only
      cases carried : SourceMap.composeSegment delta parent table names segment with
      | none => exact collected
      | some result =>
          obtain ⟨composed, extended⟩ := result
          obtain ⟨-, interned, -⟩ := composeSegment_spec bounded collected.interned carried
          have small := Nat.lt_of_le_of_lt interned.length_le bounded
          constructor
          · exact (Builder.size_lines_add collected.reached composed).le
          · exact interned
          · rw [Builder.flatten_mappings_add collected.reached]
            exact collected.introduces.composeSegment carried small

theorem Collected.composeFrom (bounded : (namePool delta parent).length < 2 ^ 63)
    (collected : Collected (namePool delta parent) line state) (lines : Mappings) :
    Introduces (composeFrom delta parent table line state lines).2
      (composeFrom delta parent table line state lines).1.mappings.flatten := by
  induction lines generalizing line state with
  | nil => exact collected.introduces
  | cons segments lines induction =>
      rw [composeFrom_cons]
      exact induction (collected.composeLine bounded segments).nextLine

theorem introduces_composeLines (bounded : (namePool delta parent).length < 2 ^ 63)
    (table : MappingTable) (lines : Mappings) :
    Introduces (composeLines delta parent table lines).2
      (composeLines delta parent table lines).1.mappings.flatten := by
  have start : Collected (namePool delta parent) 0 (Builder.empty, []) :=
    ⟨Nat.zero_le _, .nil _, .nil⟩
  exact start.composeFrom bounded lines

end Run

/-! ### What is kept -/

/-- The map resolves the place that a segment names. -/
def resolvesPlace (map : SourceMap) (segment : Segment) : Bool :=
  match map.resolve segment.sourceLine segment.sourceColumn with
  | .ok (some _) => true
  | _ => false

theorem resolvesPlace_eq {map : SourceMap} {lines : Mappings} (decoded : map.decode = .ok lines)
    (segment : Segment) :
    map.resolvesPlace segment =
      ((lines.table.lookup? segment.sourceLine segment.sourceColumn).bind
        map.positionOf?).isSome := by
  rw [resolvesPlace, resolve_of_decode decoded]
  cases (lines.table.lookup? segment.sourceLine segment.sourceColumn).bind map.positionOf? <;> rfl

/-- Exactly the segments that the parent resolves are carried through. -/
theorem CarriesAll.forall₂_filter {delta parent : SourceMap} {parentLines : Mappings}
    {names : List Bytes} {segments composed : List Segment}
    (decoded : parent.decode = .ok parentLines)
    (all : CarriesAll delta parent parentLines.table names segments composed) :
    List.Forall₂ (Carries delta parent parentLines.table names)
      (segments.filter parent.resolvesPlace) composed := by
  induction all with
  | nil => exact .nil
  | @drop segment _ _ unresolved _ induction =>
      rw [List.filter_cons_of_neg]
      · exact induction
      · rw [resolvesPlace_eq decoded, unresolved]
        exact Bool.false_ne_true
  | @keep segment _ _ _ carries _ induction =>
      obtain ⟨target, source, looked, picked, -⟩ := carries.target
      rw [List.filter_cons_of_pos]
      · exact .cons carries induction
      · rw [resolvesPlace_eq decoded, looked, Option.bind_some, positionOf?, picked]
        rfl

/-! ### The decoded result -/

section Result

variable {delta parent : SourceMap} {document : Bytes} {lines parentLines : Mappings}

/-- There are few names to choose from, since they are held in memory. -/
theorem length_namePool_lt (parsed : parse document = .ok parent)
    (fits : document.length + 2 * delta.nameList.length < 2 ^ 63) :
    (namePool delta parent).length < 2 ^ 62 := by
  have bounds := two_mul_length_le_of_parse parsed
  rw [namePool, List.length_append]
  omega

theorem modest_composedLines (parsed : parse document = .ok parent)
    (fits : document.length + 2 * delta.nameList.length < 2 ^ 63) (placed : Placed parentLines)
    (columns : ∀ line ∈ lines, ∀ segment ∈ line, Mappings.Modest segment.generatedColumn) :
    ∀ line ∈ composedLines delta parent parentLines lines, ∀ segment ∈ line,
      Mappings.ModestSegment segment := by
  have bounds := two_mul_length_le_of_parse parsed
  have sourcesBounded : parent.sourceList.length < 2 ^ 62 := by omega
  exact modest_composeLines sourcesBounded (length_namePool_lt parsed fits) placed columns

/-- The composed map, read back, has on each line the segments that the parent resolves, in
their order and at their columns.  They name listed sources and, if any, listed names, and the
table of names lists exactly the names in use, each once, in the order of their first use.  The
document and the table of names are held in memory together, so they have less than 2^63
bytes. -/
theorem compose_well_formed (decoded : delta.decode = .ok lines)
    (columns : ∀ line ∈ lines, ∀ segment ∈ line,
      0 ≤ segment.generatedColumn.toInt ∧ segment.generatedColumn.toInt < 2 ^ 61)
    (parsed : parse document = .ok parent) (parentDecoded : parent.decode = .ok parentLines)
    (placed : Placed parentLines)
    (fits : document.length + 2 * delta.nameList.length < 2 ^ 63) :
    ∃ map read, delta.compose document = .ok map ∧ map.decode = .ok read ∧
      (∀ number, List.Forall₂
        (fun segment composed => composed.generatedColumn = segment.generatedColumn)
        ((lines.getD number []).filter parent.resolvesPlace) (read.getD number [])) ∧
      (∀ line ∈ read, ∀ segment ∈ line, 0 ≤ segment.sourceIndex.toInt ∧
        segment.sourceIndex.toInt < map.sourceList.length) ∧
      Introduces map.nameList read.flatten := by
  have bounded : (namePool delta parent).length < 2 ^ 63 :=
    Nat.lt_trans (length_namePool_lt parsed fits) (by decide)
  have modest := modest_composedLines parsed fits placed fun line member segment inside =>
    have bounds := columns line member segment inside
    ⟨bounds.1, by omega⟩
  obtain ⟨-, carriesLines⟩ := composeLines_spec parentLines.table bounded lines
  obtain ⟨read, composedDecoded, same⟩ := Mappings.exists_sameLines_of_modest modest
  have kept (number : Nat) :
      List.Forall₂ (Carries delta parent parentLines.table
          (composeLines delta parent parentLines.table lines).2)
        ((lines.getD number []).filter parent.resolvesPlace) (read.getD number []) := by
    rw [same number, composedLines, Builder.mappings_getD]
    exact (carriesLines number).forall₂_filter parentDecoded
  obtain ⟨text, written⟩ := Mappings.exists_encode?_of_modest modest
  refine ⟨_, read, compose_eq_ok parsed parentDecoded decoded written, composedDecoded, ?_, ?_, ?_⟩
  · intro number
    exact (kept number).imp fun segment composed carries => carries.generatedColumn
  · intro line member segment inside
    obtain ⟨number, bound, rfl⟩ := List.getElem_of_mem member
    rw [← List.getD_eq_getElem _ [] bound, same number, composedLines, Builder.mappings_getD]
      at inside
    obtain ⟨original, -, carries⟩ := (carriesLines number).exists_carries_of_mem inside
    obtain ⟨target, source, -, picked, sourceIndex, -⟩ := carries.target
    rw [sourceIndex]
    exact toInt_lt_of_pick? picked
  · rw [same.flatten_eq]
    exact introduces_composeLines bounded parentLines.table lines

/-- A map with a repeated name on its first line, a segment on a line that the parent does not
have, an empty line, and the first name again. -/
def repeatedMap : SourceMap :=
  ⟨3, [], [], some [utf8 "x.js"], [], some [utf8 "own", utf8 "load", utf8 "own"],
    utf8 "AAAAE,IAOA,IANC;;AADAF,IACAC"⟩

/-- The segment on the missing line is dropped, and the names of both tables are listed once. -/
theorem compose_well_formed_repeated :
    ∃ map read, repeatedMap.compose Rule.namedParent = .ok map ∧ map.decode = .ok read ∧
      (read.getD 0 []).map Segment.generatedColumn = [0, 8] ∧
      Introduces map.nameList read.flatten := by
  let parent : SourceMap :=
    ⟨3, [], utf8 "src", some [utf8 "a.ts"], [], some [utf8 "load"], utf8 "AAAA;AAAA,CAECA"⟩
  let parentLines : Mappings := [[⟨0, 0, 0, 0, -1⟩], [⟨0, 0, 0, 0, -1⟩, ⟨1, 0, 2, 1, 0⟩]]
  let lines : Mappings :=
    [[⟨0, 0, 0, 0, 2⟩, ⟨4, 0, 7, 0, -1⟩, ⟨8, 0, 1, 1, -1⟩], [],
      [⟨0, 0, 0, 1, 0⟩, ⟨4, 0, 1, 1, 1⟩]]
  have placed : Placed parentLines := by
    simp [Placed, parentLines]
  obtain ⟨map, read, composed, decoded, kept, -, introduces⟩ :=
    compose_well_formed (show repeatedMap.decode = .ok lines by decide +kernel) (by decide)
      (show parse Rule.namedParent = .ok parent by decide +kernel)
      (show parent.decode = .ok parentLines by decide +kernel) placed (by decide +kernel)
  refine ⟨map, read, composed, decoded, ?_, introduces⟩
  have resolved : (lines.getD 0 []).filter parent.resolvesPlace =
      [⟨0, 0, 0, 0, 2⟩, ⟨8, 0, 1, 1, -1⟩] := by
    decide +kernel
  have columns := kept 0
  rw [resolved] at columns
  have same : List.Forall₂ (· = ·) ((read.getD 0 []).map Segment.generatedColumn)
      ([⟨0, 0, 0, 0, 2⟩, ⟨8, 0, 1, 1, -1⟩].map Segment.generatedColumn) := by
    rw [List.forall₂_map_left_iff, List.forall₂_map_right_iff]
    exact columns.flip
  rwa [List.forall₂_eq_eq_eq] at same

end Result

end SourceMap

end Reroute
