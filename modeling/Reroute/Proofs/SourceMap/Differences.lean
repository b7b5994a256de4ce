import Mathlib
import Reroute.Proofs.SourceMap.RoundTrip

/-!
# Which mappings are read back

The differences that are written for a segment are those to the segments before it: the
generated column to the segment before it on its line, the name to the last segment that
has one, and the other fields to the segment before it on any line.  The cursor of the
writer holds these last values, so mappings in which every such difference is small are
written in full and read back unchanged, whatever their fields are.
-/

namespace Reroute

namespace Mappings

/-- The last value of a field, which is zero before the first segment. -/
def lastValue (field : Segment → Int64) (segments : List Segment) : Int64 :=
  (segments.getLast?.map field).getD 0

def withName (segments : List Segment) : List Segment :=
  segments.filter fun segment => segment.nameIndex != Segment.noName

/-- A segment differs little from those above its line and in front of it. -/
@[mk_iff]
structure NearBy (above front : List Segment) (segment : Segment) : Prop where
  generatedColumn :
    Vlq.Small (segment.generatedColumn - lastValue Segment.generatedColumn front)
  sourceIndex :
    Vlq.Small (segment.sourceIndex - lastValue Segment.sourceIndex (above ++ front))
  sourceLine :
    Vlq.Small (segment.sourceLine - lastValue Segment.sourceLine (above ++ front))
  sourceColumn :
    Vlq.Small (segment.sourceColumn - lastValue Segment.sourceColumn (above ++ front))
  nameIndex : segment.nameIndex ≠ Segment.noName →
    Vlq.Small (segment.nameIndex - lastValue Segment.nameIndex (withName (above ++ front)))

/-- Every segment differs little from those before it. -/
def SmallSteps (lines : Mappings) : Prop :=
  ∀ above line below, lines = above ++ line :: below →
    ∀ front segment back, line = front ++ segment :: back →
      NearBy above.flatten front segment

/-- The last values of all fields. -/
def lastValues (above front : List Segment) : Cursor :=
  { generatedColumn := lastValue Segment.generatedColumn front
    sourceIndex := lastValue Segment.sourceIndex (above ++ front)
    sourceLine := lastValue Segment.sourceLine (above ++ front)
    sourceColumn := lastValue Segment.sourceColumn (above ++ front)
    nameIndex := lastValue Segment.nameIndex (withName (above ++ front)) }

theorem lastValue_append (field : Segment → Int64) (segments : List Segment)
    (segment : Segment) : lastValue field (segments ++ [segment]) = field segment := by
  simp [lastValue]

theorem after_lastValues (above front : List Segment) (segment : Segment) :
    (lastValues above front).after segment = lastValues above (front ++ [segment]) := by
  simp only [lastValues, Cursor.after, ← List.append_assoc, lastValue_append]
  by_cases nameless : segment.nameIndex = Segment.noName
  · simp [withName, nameless]
  · have named : withName (above ++ front ++ [segment]) =
        withName (above ++ front) ++ [segment] := by
      simp [withName, nameless]
    rw [named, lastValue_append]
    simp [nameless]

theorem nextLine_lastValues (above front : List Segment) :
    (lastValues above front).nextLine = lastValues (above ++ front) [] := by
  simp [lastValues, Cursor.nextLine, lastValue]

theorem foldl_after_lastValues (above front line : List Segment) :
    line.foldl Cursor.after (lastValues above front) = lastValues above (front ++ line) := by
  induction line generalizing front with
  | nil => simp
  | cons segment line induction =>
      rw [List.foldl_cons, after_lastValues, induction, List.append_assoc, List.singleton_append]

theorem small_differences_iff {above front : List Segment} {segment : Segment} :
    (∀ value ∈ (lastValues above front).differences segment, Vlq.Small value) ↔
      NearBy above front segment := by
  rw [nearBy_iff]
  by_cases nameless : segment.nameIndex = Segment.noName
  · simp [Cursor.differences, lastValues, nameless]
  · simp [Cursor.differences, lastValues, nameless]

/-- What holds at every split of a list holds at its first item and at every split of the
rest. -/
theorem forall_split_cons {α : Type} {Holds : List α → α → Prop} {first : α} {rest : List α} :
    (∀ before item after, first :: rest = before ++ item :: after → Holds before item) ↔
      Holds [] first ∧
        ∀ before item after, rest = before ++ item :: after → Holds (first :: before) item := by
  constructor
  · intro holds
    refine ⟨holds [] first rest rfl, ?_⟩
    rintro before item after rfl
    exact holds (first :: before) item after rfl
  · rintro ⟨holdsFirst, holdsRest⟩ before item after split
    cases before with
    | nil =>
        cases split
        exact holdsFirst
    | cons head before =>
        cases split
        exact holdsRest before item after rfl

theorem small_pieceDifferences_iff {above front line : List Segment} :
    (∀ differences ∈ pieceDifferences (lastValues above front) line, ∀ value ∈ differences,
        Vlq.Small value) ↔
      ∀ before segment after, line = before ++ segment :: after →
        NearBy above (front ++ before) segment := by
  induction line generalizing front with
  | nil => simp [pieceDifferences]
  | cons segment line induction =>
      rw [forall_split_cons, pieceDifferences, List.forall_mem_cons, small_differences_iff,
        after_lastValues, induction]
      simp

theorem small_differencesFrom_iff {above front : List Segment} {lines : Mappings} :
    (∀ pieces ∈ differencesFrom (lastValues above front) lines, ∀ differences ∈ pieces,
        ∀ value ∈ differences, Vlq.Small value) ↔
      ∀ before line after, lines = before ++ line :: after →
        ∀ beforeSegment segment afterSegment,
          line = beforeSegment ++ segment :: afterSegment →
            NearBy (above ++ front ++ before.flatten) beforeSegment segment := by
  induction lines generalizing above front with
  | nil => simp [differencesFrom]
  | cons line lines induction =>
      rw [forall_split_cons, differencesFrom, List.forall_mem_cons, nextLine_lastValues,
        foldl_after_lastValues, small_pieceDifferences_iff, induction]
      simp

/-- The differences that are written are those to the segments before. -/
theorem smallDifferences_iff {lines : Mappings} : SmallDifferences lines ↔ SmallSteps lines := by
  have start : Cursor.start = lastValues [] [] := rfl
  rw [SmallDifferences, allDifferences_eq, start, small_differencesFrom_iff, SmallSteps]
  simp

/-- Mappings with small steps have a written form, and it is read back as these mappings. -/
theorem encode_restored {lines : Mappings} (nonempty : lines ≠ []) (small : SmallSteps lines) :
    ∃ text, encode? lines = some text ∧ decode text = .ok lines := by
  have smallDifferences := smallDifferences_iff.mpr small
  have restored := decode_encode_of_small nonempty smallDifferences
  rw [encode, encode?_eq smallDifferences, Option.getD_some] at restored
  exact ⟨_, encode?_eq smallDifferences, restored⟩

/-- Two lines around an empty one.  Columns leave the words at their upper end and come
back at the lower one, a line lies almost half the words away, and a name stands between
segments without one. -/
def wideLines : Mappings :=
  [[⟨4611686018427387903, 0, 4611686018427387903, 0, -1⟩,
      ⟨9223372036854775806, 2, 0, 7, 3⟩, ⟨-9223372036854775808, 2, 0, 7, -1⟩],
    [],
    [⟨5, 1, 4, 0, 1⟩]]

theorem encode_restored_wideLines :
    ∃ text, encode? wideLines = some text ∧ decode text = .ok wideLines := by
  have differences : allDifferences wideLines =
      [[[4611686018427387903, 0, 4611686018427387903, 0],
          [4611686018427387903, 2, -4611686018427387903, 7, 3], [2, 0, 0, 0]],
        [],
        [[5, -1, 4, -7, -2]]] := by
    decide
  refine encode_restored (by decide) (smallDifferences_iff.mp ?_)
  rw [SmallDifferences, differences]
  simp [Vlq.Small]

end Mappings

end Reroute
