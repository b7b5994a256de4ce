import Mathlib
import Reroute.Proofs.SourceMap.Coverage
import Reroute.Proofs.SourceMap.RoundTrip
import Reroute.SourceMap.Composition

/-!
# Composed maps keep what they carry

Composition drops the segments that the parent does not resolve and carries the others
through, in order and at their columns.  The table of names only grows, so a name index
keeps its meaning to the end.  A segment that covers a column and is carried through still
covers it afterwards.
-/

namespace Reroute

theorem pick?_ofNat {α : Type} (items : List α) {index : Nat} (small : index < 2 ^ 63) :
    pick? items (Int64.ofNat index) = items[index]? := by
  have nonnegative : ¬Int64.ofNat index < 0 := by
    rw [Int64.lt_iff_toInt_lt, Int64.toInt_ofNat_of_lt small, Int64.toInt_zero]
    omega
  rw [pick?, if_neg nonnegative, ← Int64.toNat_toInt, Int64.toInt_ofNat_of_lt small,
    Int.toNat_natCast]

theorem toInt_lt_of_pick? {α : Type} {items : List α} {index : Int64} {item : α}
    (picked : pick? items index = some item) :
    0 ≤ index.toInt ∧ index.toInt < items.length := by
  unfold pick? at picked
  split at picked
  · cases picked
  · next nonnegative =>
      rw [Int64.lt_iff_toInt_lt, Int64.toInt_zero, Int.not_lt] at nonnegative
      obtain ⟨inside, -⟩ := List.getElem?_eq_some_iff.mp picked
      rw [← Int64.toNat_toInt] at inside
      omega

theorem pick?_noName {α : Type} (items : List α) : pick? items Segment.noName = none := by
  rw [pick?, if_pos (by decide)]

namespace Mappings

/-- A segment that a look-up finds is one of the mappings. -/
theorem exists_line_of_lookup? {lines : Mappings} {line column : Int64} {segment : Segment}
    (found : lines.table.lookup? line column = some segment) :
    ∃ segments ∈ lines, segment ∈ segments := by
  unfold MappingTable.lookup? at found
  split at found
  · cases found
  split at found
  · cases found
  · next segments selected =>
      rw [table_getElem?, Option.map_eq_some_iff] at selected
      obtain ⟨list, member, rfl⟩ := selected
      refine ⟨list, List.mem_of_getElem? member, ?_⟩
      dsimp only at found
      split at found
      · cases found
      · rw [List.getElem?_toArray] at found
        exact List.mem_of_getElem? found

end Mappings

namespace SourceMap

/-- The names that composed segments can have. -/
def namePool (delta parent : SourceMap) : List Bytes :=
  parent.nameList ++ delta.nameList

/-- A table of names from a pool, without repetition. -/
structure Interned (pool names : List Bytes) : Prop where
  nodup : names.Nodup
  subset : names ⊆ pool

theorem Interned.nil (pool : List Bytes) : Interned pool [] :=
  ⟨List.nodup_nil, List.nil_subset _⟩

theorem Interned.length_le {pool names : List Bytes} (interned : Interned pool names) :
    names.length ≤ pool.length :=
  (interned.nodup.subperm interned.subset).length_le

/-- Interning a name extends the table at its end, and the index selects the name. -/
theorem intern_spec (names : List Bytes) (name : Bytes) :
    names <+: (intern names name).2 ∧
      (intern names name).2[(intern names name).1]? = some name := by
  unfold intern
  split
  · next index found =>
      obtain ⟨inside, equality, -⟩ := List.idxOf?_eq_some_iff.mp found
      exact ⟨List.prefix_rfl, List.getElem?_eq_some_iff.mpr ⟨inside, equality⟩⟩
  · exact ⟨List.prefix_append _ _, by simp⟩

theorem Interned.intern {pool names : List Bytes} {name : Bytes}
    (interned : Interned pool names) (member : name ∈ pool) :
    Interned pool (SourceMap.intern names name).2 := by
  unfold SourceMap.intern
  split
  · exact interned
  · next missing =>
      have fresh : name ∉ names := List.idxOf?_eq_none_iff.mp missing
      refine ⟨?_, ?_⟩
      · rw [List.nodup_append]
        refine ⟨interned.nodup, List.nodup_singleton name, ?_⟩
        intro left leftMember right rightMember equality
        rw [List.mem_singleton.mp rightMember] at equality
        exact fresh (equality ▸ leftMember)
      · intro other otherMember
        rcases List.mem_append.mp otherMember with earlier | last
        · exact interned.subset earlier
        · rw [List.mem_singleton.mp last]
          exact member

/-- A composed segment stands for a segment: at the same column, with the place that the
parent resolves it to. -/
structure Carries (delta parent : SourceMap) (table : MappingTable) (names : List Bytes)
    (segment composed : Segment) : Prop where
  generatedColumn : composed.generatedColumn = segment.generatedColumn
  target : ∃ target source,
    table.lookup? segment.sourceLine segment.sourceColumn = some target ∧
    pick? parent.sourceList target.sourceIndex = some source ∧
    composed.sourceIndex = target.sourceIndex ∧
    composed.sourceLine = target.sourceLine ∧
    composed.sourceColumn = target.sourceColumn ∧
    pick? names composed.nameIndex = composedName? delta parent segment target
  nameIndex : composed.nameIndex ≠ Segment.noName →
    ∃ index < names.length, composed.nameIndex = Int64.ofNat index

theorem mem_of_pick? {α : Type} {items : List α} {index : Int64} {item : α}
    (picked : pick? items index = some item) : item ∈ items := by
  unfold pick? at picked
  split at picked
  · cases picked
  · exact List.mem_of_getElem? picked

theorem composedName?_mem {delta parent : SourceMap} {segment target : Segment} {name : Bytes}
    (named : composedName? delta parent segment target = some name) :
    name ∈ namePool delta parent := by
  unfold composedName? at named
  split at named
  · next found =>
      cases named
      exact List.mem_append_left _ (mem_of_pick? found)
  · exact List.mem_append_right _ (mem_of_pick? named)

/-- A segment that is carried through extends the table of names, and keeps its name in
every later table. -/
theorem composeSegment_spec {delta parent : SourceMap} {table : MappingTable}
    {names extended : List Bytes} {segment composed : Segment}
    (bounded : (namePool delta parent).length < 2 ^ 63)
    (interned : Interned (namePool delta parent) names)
    (carried : composeSegment delta parent table names segment = some (composed, extended)) :
    names <+: extended ∧ Interned (namePool delta parent) extended ∧
      ∀ final, extended <+: final → Carries delta parent table final segment composed := by
  unfold composeSegment at carried
  split at carried
  · cases carried
  next target looked =>
  split at carried
  · cases carried
  next source picked =>
  cases named : composedName? delta parent segment target with
  | none =>
      simp only [named] at carried
      cases carried
      refine ⟨List.prefix_rfl, interned, fun final _ => ?_⟩
      refine ⟨rfl, ⟨target, source, looked, picked, rfl, rfl, rfl, ?_⟩, ?_⟩
      · rw [pick?_noName, named]
      · intro different
        exact absurd rfl different
  | some name =>
      simp only [named] at carried
      cases carried
      obtain ⟨grows, selects⟩ := intern_spec names name
      have internedNext := interned.intern (composedName?_mem named)
      obtain ⟨inside, -⟩ := List.getElem?_eq_some_iff.mp selects
      have small : (intern names name).1 < 2 ^ 63 := by
        have bound := internedNext.length_le
        omega
      refine ⟨grows, internedNext, fun final longer => ?_⟩
      refine ⟨rfl, ⟨target, source, looked, picked, rfl, rfl, rfl, ?_⟩, fun _ => ?_⟩
      · obtain ⟨more, rfl⟩ := longer
        rw [pick?_ofNat _ small, named, List.getElem?_append_left inside, selects]
      · exact ⟨_, Nat.lt_of_lt_of_le inside longer.length_le, rfl⟩

/-- A segment that is dropped has no place in the parent's sources. -/
theorem unresolved_of_composeSegment {delta parent : SourceMap} {table : MappingTable}
    {names : List Bytes} {segment : Segment}
    (dropped : composeSegment delta parent table names segment = none) :
    (table.lookup? segment.sourceLine segment.sourceColumn).bind parent.positionOf? = none := by
  unfold composeSegment at dropped
  split at dropped
  · next missing => rw [missing, Option.bind_none]
  · next target looked =>
      split at dropped
      · next unlisted => simp [looked, positionOf?, unlisted]
      · cases dropped

/-- The segments of a line, carried through in order or dropped. -/
inductive CarriesAll (delta parent : SourceMap) (table : MappingTable) (names : List Bytes) :
    List Segment → List Segment → Prop where
  | nil : CarriesAll delta parent table names [] []
  | drop {segment : Segment} {segments composed : List Segment} :
      (table.lookup? segment.sourceLine segment.sourceColumn).bind parent.positionOf? = none →
      CarriesAll delta parent table names segments composed →
      CarriesAll delta parent table names (segment :: segments) composed
  | keep {segment carried : Segment} {segments composed : List Segment} :
      Carries delta parent table names segment carried →
      CarriesAll delta parent table names segments composed →
      CarriesAll delta parent table names (segment :: segments) (carried :: composed)

section Lines

variable {delta parent : SourceMap} {table : MappingTable} {names : List Bytes}

theorem composeLine_spec (table : MappingTable)
    (bounded : (namePool delta parent).length < 2 ^ 63) (line : Nat) (builder : Builder)
    (interned : Interned (namePool delta parent) names) (segments : List Segment) :
    names <+: (composeLine delta parent table line (builder, names) segments).2 ∧
      Interned (namePool delta parent)
        (composeLine delta parent table line (builder, names) segments).2 ∧
      ∀ final, (composeLine delta parent table line (builder, names) segments).2 <+: final →
        ∃ composed, CarriesAll delta parent table final segments composed ∧
          ∀ other,
            (composeLine delta parent table line (builder, names) segments).1.lineAt other =
              builder.lineAt other ++ if other = line then composed else [] := by
  induction segments generalizing builder names with
  | nil =>
      refine ⟨List.prefix_rfl, interned, fun final _ => ⟨[], .nil, fun other => ?_⟩⟩
      simp [composeLine]
  | cons segment segments induction =>
      cases carried : composeSegment delta parent table names segment with
      | none =>
          have continued : composeLine delta parent table line (builder, names)
              (segment :: segments) =
                composeLine delta parent table line (builder, names) segments := by
            simp [composeLine, carried]
          obtain ⟨grows, internedLast, rest⟩ := induction builder interned
          rw [continued]
          refine ⟨grows, internedLast, fun final longer => ?_⟩
          obtain ⟨composed, carries, lines⟩ := rest final longer
          exact ⟨composed, .drop (unresolved_of_composeSegment carried) carries, lines⟩
      | some result =>
          obtain ⟨first, extended⟩ := result
          have continued : composeLine delta parent table line (builder, names)
              (segment :: segments) =
                composeLine delta parent table line (builder.add line first, extended)
                  segments := by
            simp [composeLine, carried]
          obtain ⟨growsFirst, internedNext, carriesFirst⟩ :=
            composeSegment_spec bounded interned carried
          obtain ⟨grows, internedLast, rest⟩ :=
            induction (builder.add line first) internedNext
          rw [continued]
          refine ⟨growsFirst.trans grows, internedLast, fun final longer => ?_⟩
          obtain ⟨composed, carries, lines⟩ := rest final longer
          refine ⟨first :: composed, .keep (carriesFirst final (grows.trans longer)) carries,
            fun other => ?_⟩
          rw [lines, Builder.lineAt_add, List.append_assoc]
          split <;> simp

/-- Carry lines through, the first of which has a number. -/
def composeFrom (delta parent : SourceMap) (table : MappingTable) (start : Nat)
    (state : Builder × List Bytes) (lines : Mappings) : Builder × List Bytes :=
  (lines.foldl
    (fun (line, state) segments =>
      (line + 1, composeLine delta parent table line state segments))
    (start, state)).2

theorem composeFrom_cons (start : Nat) (state : Builder × List Bytes)
    (segments : List Segment) (lines : Mappings) :
    composeFrom delta parent table start state (segments :: lines) =
      composeFrom delta parent table (start + 1)
        (composeLine delta parent table start state segments) lines := rfl

/-- The segments of a line with a number, when the first of the lines has the number
`start`. -/
def segmentsAt (start : Nat) (lines : Mappings) (number : Nat) : List Segment :=
  if number < start then [] else lines.getD (number - start) []

theorem segmentsAt_cons (start : Nat) (segments : List Segment) (lines : Mappings)
    (number : Nat) :
    segmentsAt start (segments :: lines) number =
      if number = start then segments else segmentsAt (start + 1) lines number := by
  unfold segmentsAt
  by_cases here : number = start
  · simp [here]
  · by_cases earlier : number < start
    · simp [here, earlier, Nat.lt_succ_of_lt earlier]
    · have shifted : number - start = number - (start + 1) + 1 := by omega
      simp [here, earlier, show ¬number < start + 1 by omega, shifted]

theorem composeFrom_spec (table : MappingTable)
    (bounded : (namePool delta parent).length < 2 ^ 63) (start : Nat) (builder : Builder)
    (interned : Interned (namePool delta parent) names) (lines : Mappings) :
    names <+: (composeFrom delta parent table start (builder, names) lines).2 ∧
      Interned (namePool delta parent)
        (composeFrom delta parent table start (builder, names) lines).2 ∧
      ∀ final, (composeFrom delta parent table start (builder, names) lines).2 <+: final →
        ∀ number, ∃ composed,
          CarriesAll delta parent table final (segmentsAt start lines number) composed ∧
          (composeFrom delta parent table start (builder, names) lines).1.lineAt number =
            builder.lineAt number ++ composed := by
  induction lines generalizing start builder names with
  | nil =>
      refine ⟨List.prefix_rfl, interned, fun final _ number => ⟨[], ?_, ?_⟩⟩
      · simpa [segmentsAt] using CarriesAll.nil
      · simp [composeFrom]
  | cons segments lines induction =>
      obtain ⟨growsFirst, internedNext, first⟩ :=
        composeLine_spec table bounded start builder interned segments
      obtain ⟨grows, internedLast, rest⟩ :=
        induction (start + 1)
          (composeLine delta parent table start (builder, names) segments).1 internedNext
      rw [composeFrom_cons]
      refine ⟨growsFirst.trans grows, internedLast, fun final longer number => ?_⟩
      obtain ⟨composedFirst, carriesFirst, linesFirst⟩ := first final (grows.trans longer)
      obtain ⟨composed, carries, linesRest⟩ := rest final longer number
      rw [segmentsAt_cons]
      by_cases here : number = start
      · have nothing : composed = [] := by
          rw [segmentsAt, if_pos (by omega)] at carries
          cases carries
          rfl
        refine ⟨composedFirst, by rwa [if_pos here], ?_⟩
        rw [linesRest, linesFirst, if_pos here, nothing, List.append_nil]
      · refine ⟨composed, by rwa [if_neg here], ?_⟩
        rw [linesRest, linesFirst, if_neg here, List.append_nil]

/-- Every composed line carries through the line with its number. -/
theorem composeLines_spec (table : MappingTable)
    (bounded : (namePool delta parent).length < 2 ^ 63) (lines : Mappings) :
    Interned (namePool delta parent) (composeLines delta parent table lines).2 ∧
      ∀ number,
        CarriesAll delta parent table (composeLines delta parent table lines).2
          (lines.getD number [])
          ((composeLines delta parent table lines).1.lineAt number) := by
  obtain ⟨-, interned, composed⟩ :=
    composeFrom_spec table bounded 0 .empty (Interned.nil _) lines
  refine ⟨interned, fun number => ?_⟩
  obtain ⟨line, carries, equality⟩ := composed _ List.prefix_rfl number
  rw [Builder.lineAt_empty, List.nil_append] at equality
  rw [← equality] at carries
  exact carries

end Lines

namespace CarriesAll

variable {delta parent : SourceMap} {table : MappingTable} {names : List Bytes}
  {segments composed : List Segment}

theorem exists_carries_of_mem (all : CarriesAll delta parent table names segments composed)
    {carried : Segment} (member : carried ∈ composed) :
    ∃ segment ∈ segments, Carries delta parent table names segment carried := by
  induction all with
  | nil => simp at member
  | drop unresolved all induction =>
      obtain ⟨segment, inside, carries⟩ := induction member
      exact ⟨segment, List.mem_cons_of_mem _ inside, carries⟩
  | @keep first _ _ _ carriesFirst all induction =>
      rcases List.mem_cons.mp member with rfl | later
      · exact ⟨first, List.mem_cons_self, carriesFirst⟩
      · obtain ⟨segment, inside, carries⟩ := induction later
        exact ⟨segment, List.mem_cons_of_mem _ inside, carries⟩

/-- A segment that the parent resolves is carried through between what is carried of the
segments around it. -/
theorem split {left right : List Segment} {segment : Segment}
    (all : CarriesAll delta parent table names (left ++ segment :: right) composed)
    (resolved :
      (table.lookup? segment.sourceLine segment.sourceColumn).bind parent.positionOf? ≠ none) :
    ∃ composedLeft carried composedRight,
      composed = composedLeft ++ carried :: composedRight ∧
      CarriesAll delta parent table names left composedLeft ∧
      Carries delta parent table names segment carried ∧
      CarriesAll delta parent table names right composedRight := by
  induction left generalizing composed with
  | nil =>
      cases all with
      | drop unresolved all => exact absurd unresolved resolved
      | keep carries all => exact ⟨[], _, _, rfl, .nil, carries, all⟩
  | cons first left induction =>
      cases all with
      | drop unresolved all =>
          obtain ⟨composedLeft, carried, composedRight, rfl, carriesLeft, carries,
            carriesRight⟩ := induction all
          exact ⟨composedLeft, carried, composedRight, rfl, .drop unresolved carriesLeft,
            carries, carriesRight⟩
      | keep carriesFirst all =>
          obtain ⟨composedLeft, carried, composedRight, rfl, carriesLeft, carries,
            carriesRight⟩ := induction all
          exact ⟨_ :: composedLeft, carried, composedRight, rfl,
            .keep carriesFirst carriesLeft, carries, carriesRight⟩

theorem covers (all : CarriesAll delta parent table names segments composed) {column : Int64}
    {segment : Segment} (covering : Covers segments column segment)
    (resolved :
      (table.lookup? segment.sourceLine segment.sourceColumn).bind parent.positionOf? ≠ none) :
    ∃ carried, Covers composed column carried ∧
      Carries delta parent table names segment carried := by
  obtain ⟨⟨left, right, rfl, before, behind⟩, starts⟩ := covering
  obtain ⟨composedLeft, carried, composedRight, rfl, carriesLeft, carries, carriesRight⟩ :=
    all.split resolved
  refine ⟨carried, ⟨⟨composedLeft, composedRight, rfl, ?_, ?_⟩, ?_⟩, carries⟩
  · intro other member
    obtain ⟨source, inside, carriesOther⟩ := carriesLeft.exists_carries_of_mem member
    rw [carriesOther.generatedColumn]
    exact before source inside
  · intro other member
    obtain ⟨source, inside, carriesOther⟩ := carriesRight.exists_carries_of_mem member
    rw [carriesOther.generatedColumn]
    exact behind source inside
  · rw [carries.generatedColumn]
    exact starts

end CarriesAll

end SourceMap

end Reroute
