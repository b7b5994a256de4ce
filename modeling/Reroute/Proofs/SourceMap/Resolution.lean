import Mathlib
import Reroute.Proofs.SourceMap.Closest
import Reroute.Proofs.Transform.Composed

/-!
# What composed maps resolve

A composed map resolves a position through the last segment in front of it that the parent
resolves.  Segments that the parent does not resolve leave no trace: the position falls back
to the segment before them, and is not resolved when there is none.  The composed mappings
are written and read again in between, with gaps where lines have lost all their segments.
-/

namespace Reroute

namespace Builder

theorem mappings_getD (builder : Builder) (line : Nat) :
    builder.mappings.getD line [] = builder.lineAt line := by
  simp only [mappings, lineAt, List.getD_eq_getElem?_getD, List.getElem?_map,
    Array.getElem?_toList, Array.getD_eq_getD_getElem?]
  cases builder.lines[line]? with
  | none => rfl
  | some segments => rfl

end Builder

namespace Mappings

theorem onLine_eq (lines : Mappings) (line : Int64) :
    lines.onLine line = if line < 0 then [] else lines.getD line.toNatClampNeg [] := by
  unfold onLine pick?
  split
  · rfl
  · rw [List.getD_eq_getElem?_getD]

theorem SameLines.onLine {left right : Mappings} (same : SameLines left right) (line : Int64) :
    left.onLine line = right.onLine line := by
  rw [onLine_eq, onLine_eq, same]

end Mappings

namespace SourceMap

/-- The segments that composition builds of what it has read. -/
def composedLines (delta parent : SourceMap) (parentLines lines : Mappings) : Mappings :=
  (composeLines delta parent parentLines.table lines).1.mappings

/-- The map that composition makes of what it has read. -/
def composedMap (delta parent : SourceMap) (parentLines lines : Mappings) : SourceMap :=
  { version := revision
    file := delta.file
    sourceRoot := parent.sourceRoot
    sources := parent.sources
    sourcesContent := parent.sourcesContent
    names := some (composeLines delta parent parentLines.table lines).2
    mappings := Mappings.encode (composedLines delta parent parentLines lines) }

theorem compose_eq {delta parent : SourceMap} {document : Bytes} {parentLines lines : Mappings}
    (parsed : parse document = .ok parent) (parentDecoded : parent.decode = .ok parentLines)
    (decoded : delta.decode = .ok lines) :
    delta.compose document =
      match Mappings.encode? (composedLines delta parent parentLines lines) with
      | none => .error .endless
      | some _ => .ok (composedMap delta parent parentLines lines) := by
  unfold compose composedMap Mappings.encode
  simp only [parsed, parentDecoded, decoded]
  rw [composedLines]
  cases (composeLines delta parent parentLines.table lines).1.mappings.encode? with
  | none => rfl
  | some text => rfl

/-- Where the composed mappings can be written, composing gives the map with them. -/
theorem compose_eq_ok {delta parent : SourceMap} {document text : Bytes}
    {parentLines lines : Mappings} (parsed : parse document = .ok parent)
    (parentDecoded : parent.decode = .ok parentLines) (decoded : delta.decode = .ok lines)
    (written : Mappings.encode? (composedLines delta parent parentLines lines) = some text) :
    delta.compose document = .ok (composedMap delta parent parentLines lines) := by
  rw [compose_eq parsed parentDecoded decoded, written]

/-- The segment starts at or before the column, and the map resolves the place it names. -/
def Reaches (parent : SourceMap) (column : Int64) (segment : Segment) : Prop :=
  segment.generatedColumn ≤ column ∧
    ∃ position, parent.resolve segment.sourceLine segment.sourceColumn = .ok (some position)

/-- The last segment of a line that starts at or before the column and whose place the map
resolves. -/
def LastReached (parent : SourceMap) (segments : List Segment) (column : Int64)
    (segment : Segment) : Prop :=
  ∃ left right, segments = left ++ segment :: right ∧ parent.Reaches column segment ∧
    ∀ other ∈ right, ¬parent.Reaches column other

section Carried

variable {delta parent : SourceMap} {parentLines : Mappings} {names : List Bytes}
  {segments composed : List Segment} {column : Int64} {segment carried : Segment}

theorem resolve_of_decode {map : SourceMap} {lines : Mappings} (decoded : map.decode = .ok lines)
    (line column : Int64) :
    map.resolve line column = .ok ((lines.table.lookup? line column).bind map.positionOf?) := by
  rw [resolve, decoded]

theorem Carries.exists_position (decoded : parent.decode = .ok parentLines)
    (carries : Carries delta parent parentLines.table names segment carried) :
    ∃ position, parent.resolve segment.sourceLine segment.sourceColumn = .ok (some position) := by
  obtain ⟨target, source, looked, picked, -⟩ := carries.target
  rw [resolve_of_decode decoded, looked, Option.bind_some, positionOf?, picked]
  exact ⟨_, rfl⟩

theorem CarriesAll.behind (decoded : parent.decode = .ok parentLines)
    (all : CarriesAll delta parent parentLines.table names segments composed)
    (unreached : ∀ segment ∈ segments, ¬parent.Reaches column segment) :
    ∀ carried ∈ composed, column < carried.generatedColumn := by
  intro carried member
  obtain ⟨segment, inside, carries⟩ := all.exists_carries_of_mem member
  rw [carries.generatedColumn, ← Int64.not_le]
  intro starts
  exact unreached segment inside ⟨starts, carries.exists_position decoded⟩

theorem CarriesAll.covers_of_lastReached (decoded : parent.decode = .ok parentLines)
    (all : CarriesAll delta parent parentLines.table names segments composed)
    (ascending : Ascending segments) (last : parent.LastReached segments column segment) :
    ∃ carried, Covers composed column carried ∧
      Carries delta parent parentLines.table names segment carried := by
  obtain ⟨left, right, rfl, ⟨starts, position, resolved⟩, unreached⟩ := last
  rw [resolve_of_decode decoded, Except.ok.injEq] at resolved
  obtain ⟨composedLeft, carried, composedRight, rfl, carriesLeft, carries, carriesRight⟩ :=
    all.split (by rw [resolved]; exact Option.some_ne_none position)
  -- What is carried from the left starts before the column, since the line ascends; what is
  -- carried from the right was resolved, so it starts behind the column.
  refine ⟨carried, ⟨⟨composedLeft, composedRight, rfl, ?_, ?_⟩, ?_⟩, carries⟩
  · intro other member
    obtain ⟨source, inside, carriesOther⟩ := carriesLeft.exists_carries_of_mem member
    have before := (List.pairwise_append.mp ascending).2.2 source inside segment
      List.mem_cons_self
    rw [carriesOther.generatedColumn]
    exact Int64.le_trans before starts
  · exact carriesRight.behind decoded unreached
  · rw [carries.generatedColumn]
    exact starts

/-- What the composed map says of a carried segment is what the parent says of its target,
with the name that was composed. -/
theorem Carries.positionOf?_composedMap {lines : Mappings}
    (carries : Carries delta parent parentLines.table
      (composeLines delta parent parentLines.table lines).2 segment carried) :
    ∃ target position,
      parentLines.table.lookup? segment.sourceLine segment.sourceColumn = some target ∧
      parent.positionOf? target = some position ∧
      (composedMap delta parent parentLines lines).positionOf? carried =
        some { position with
               name := ((pick? parent.nameList target.nameIndex).or
                 (pick? delta.nameList segment.nameIndex)).getD [] } := by
  obtain ⟨target, source, looked, picked, sourceIndex, sourceLine, sourceColumn, name⟩ :=
    carries.target
  have listed : pick? (composedMap delta parent parentLines lines).sourceList
      target.sourceIndex = some source := picked
  have named : pick? (composedMap delta parent parentLines lines).nameList carried.nameIndex =
      (pick? parent.nameList target.nameIndex).or (pick? delta.nameList segment.nameIndex) := by
    apply name.trans
    rw [composedName?]
    cases pick? parent.nameList target.nameIndex with
    | none => rfl
    | some parentName => rfl
  refine ⟨target, _, looked, by rw [positionOf?, picked]; rfl, ?_⟩
  rw [positionOf?, sourceIndex, sourceLine, sourceColumn, listed, named]
  rfl

end Carried

/-- A position of the composed map resolves through the last segment in front of it that the
parent resolves, to the parent's place for it.  The name is the parent's, or else the
segment's own.  The document and the table of names are held in memory together, so they
have less than 2^63 bytes. -/
theorem resolve_compose_last {delta parent : SourceMap} {document : Bytes}
    {lines parentLines : Mappings} (decoded : delta.decode = .ok lines)
    (ascending : ∀ line ∈ lines, Ascending line)
    (columns : ∀ line ∈ lines, ∀ segment ∈ line,
      0 ≤ segment.generatedColumn.toInt ∧ segment.generatedColumn.toInt < 2 ^ 61)
    (parsed : parse document = .ok parent) (parentDecoded : parent.decode = .ok parentLines)
    (placed : Placed parentLines)
    (fits : document.length + 2 * delta.nameList.length < 2 ^ 63) :
    ∃ map, delta.compose document = .ok map ∧ ∀ line column,
      ((¬∃ segment, parent.LastReached (lines.onLine line) column segment) →
        map.resolve line column = .ok none) ∧
      ∀ segment, parent.LastReached (lines.onLine line) column segment →
        ∃ target position,
          parentLines.table.lookup? segment.sourceLine segment.sourceColumn = some target ∧
          parent.resolve segment.sourceLine segment.sourceColumn = .ok (some position) ∧
          map.resolve line column =
            .ok (some
              { position with
                name := ((pick? parent.nameList target.nameIndex).or
                  (pick? delta.nameList segment.nameIndex)).getD [] }) := by
  have bounds := two_mul_length_le_of_parse parsed
  have sourcesBounded : parent.sourceList.length < 2 ^ 62 := by omega
  have namesBounded : (namePool delta parent).length < 2 ^ 62 := by
    rw [namePool, List.length_append]
    omega
  obtain ⟨-, carriesLines⟩ :=
    composeLines_spec parentLines.table (Nat.lt_trans namesBounded (by decide)) lines
  have modest : ∀ line ∈ composedLines delta parent parentLines lines, ∀ segment ∈ line,
      Mappings.ModestSegment segment := by
    apply modest_composeLines sourcesBounded namesBounded placed
    intro line member segment inside
    have bounds := columns line member segment inside
    exact ⟨bounds.1, by omega⟩
  obtain ⟨read, composedDecoded, same⟩ := Mappings.exists_sameLines_of_modest modest
  change (composedMap delta parent parentLines lines).decode = .ok read at composedDecoded
  have ascendingOn (line : Int64) : Ascending (lines.onLine line) := by
    rw [Mappings.onLine]
    cases found : pick? lines line with
    | none => exact List.Pairwise.nil
    | some segments => exact ascending segments (mem_of_pick? found)
  have carriesOn (line : Int64) :
      CarriesAll delta parent parentLines.table
        (composeLines delta parent parentLines.table lines).2 (lines.onLine line)
        (read.onLine line) := by
    rw [same.onLine, Mappings.onLine_eq, Mappings.onLine_eq]
    split
    · exact .nil
    · rw [composedLines, Builder.mappings_getD]
      exact carriesLines _
  obtain ⟨text, written⟩ := Mappings.exists_encode?_of_modest modest
  refine ⟨_, compose_eq_ok parsed parentDecoded decoded written, ?_⟩
  intro line column
  constructor
  · intro unreached
    have missing : read.table.lookup? line column = none := by
      apply Mappings.lookup?_eq_none_of_behind
      apply (carriesOn line).behind parentDecoded
      intro segment member reaches
      obtain ⟨left, last, right, split, lastReaches, later⟩ :=
        exists_last_of_exists ⟨segment, member, reaches⟩
      exact unreached ⟨last, left, right, split, lastReaches, later⟩
    rw [resolve_of_decode composedDecoded, missing, Option.bind_none]
  · intro segment last
    obtain ⟨carried, covers, carries⟩ :=
      (carriesOn line).covers_of_lastReached parentDecoded (ascendingOn line) last
    obtain ⟨target, position, looked, positioned, composedPosition⟩ :=
      carries.positionOf?_composedMap
    refine ⟨target, position, looked, ?_, ?_⟩
    · rw [resolve_of_decode parentDecoded, looked, Option.bind_some, positioned]
    · rw [resolve_of_decode composedDecoded, Mappings.lookup?_eq_some_of_covers covers,
        Option.bind_some, composedPosition]

/-- A map of one line with three segments, the first with a name, the second on a line that
the parent does not have. -/
def patchedMap : SourceMap :=
  ⟨3, [], [], some [utf8 "x.js"], [], some [utf8 "own"], utf8 "AAAAA,IAOA,IANG"⟩

/-- A position behind the segment that is dropped resolves through the one before it, which
keeps its name since the parent has none there. -/
theorem resolve_compose_last_patched :
    ∃ map, patchedMap.compose Rule.namedParent = .ok map ∧
      map.resolve 0 6 = .ok (some ⟨utf8 "src/a.ts", 0, 0, utf8 "own"⟩) := by
  let parent : SourceMap :=
    ⟨3, [], utf8 "src", some [utf8 "a.ts"], [], some [utf8 "load"], utf8 "AAAA;AAAA,CAECA"⟩
  let parentLines : Mappings := [[⟨0, 0, 0, 0, -1⟩], [⟨0, 0, 0, 0, -1⟩, ⟨1, 0, 2, 1, 0⟩]]
  let named : Segment := ⟨0, 0, 0, 0, 0⟩
  let dropped : Segment := ⟨4, 0, 7, 0, -1⟩
  let behind : Segment := ⟨8, 0, 1, 3, -1⟩
  have ascending : ∀ line ∈ [[named, dropped, behind]], Ascending line := by
    unfold Ascending
    decide
  have placed : Placed parentLines := by
    simp [Placed, parentLines]
  obtain ⟨map, composed, resolves⟩ :=
    resolve_compose_last (show patchedMap.decode = .ok [[named, dropped, behind]] by
        decide +kernel) ascending (by decide)
      (show parse Rule.namedParent = .ok parent by decide +kernel)
      (show parent.decode = .ok parentLines by decide +kernel) placed (by decide +kernel)
  have first : parent.resolve 0 0 = .ok (some ⟨utf8 "src/a.ts", 0, 0, []⟩) := by
    decide +kernel
  have missing : parent.resolve 7 0 = .ok none := by
    decide +kernel
  have last : parent.LastReached (Mappings.onLine [[named, dropped, behind]] 0) 6 named := by
    refine ⟨[], [dropped, behind], rfl, ⟨by decide, _, first⟩, ?_⟩
    rintro other member ⟨starts, position, resolved⟩
    rcases List.mem_pair.mp member with rfl | rfl
    · exact absurd (missing.symm.trans resolved) (by simp)
    · exact absurd starts (by decide)
  obtain ⟨target, position, looked, resolved, answer⟩ := (resolves 0 6).2 named last
  obtain rfl : ⟨utf8 "src/a.ts", 0, 0, []⟩ = position :=
    Option.some.inj (Except.ok.inj (first.symm.trans resolved))
  obtain rfl : ⟨0, 0, 0, 0, -1⟩ = target :=
    Option.some.inj ((show parentLines.table.lookup? 0 0 = some ⟨0, 0, 0, 0, -1⟩ by
      decide +kernel).symm.trans looked)
  exact ⟨map, composed, answer⟩

end SourceMap

end Reroute
