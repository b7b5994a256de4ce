import Mathlib
import Reroute.Search

/-!
# Bisection finds the boundary

When a predicate is false below some index and true from it on, bisection returns that
index, whichever indices it probes.  In a row of items that splits into those a test
refuses and those it accepts, that index is the length of the first part.

Of any other predicate bisection still returns an index at which it turns true.
-/

namespace Reroute.Search

theorem bisect_eq_boundary
    {holds : Nat → Bool} {low high boundary : Nat}
    (lowest : low ≤ boundary) (highest : boundary ≤ high)
    (below : ∀ index, low ≤ index → index < boundary → holds index = false)
    (above : ∀ index, boundary ≤ index → index < high → holds index = true) :
    bisect holds low high = boundary := by
  induction low, high using bisect.induct holds with
  | case1 low high less middle found induction =>
      have middleLess : middle < high := by omega
      have notBelow : boundary ≤ middle := by
        by_contra beyond
        have missing := below middle (by omega) (by omega)
        rw [found] at missing
        cases missing
      rw [bisect, if_pos less, if_pos found]
      exact induction lowest notBelow below
        (fun index atLeast less => above index atLeast (by omega))
  | case2 low high less middle missing induction =>
      have beyond : middle < boundary := by
        by_contra notBeyond
        exact missing (above middle (by omega) (by omega))
      rw [bisect, if_pos less, if_neg missing]
      exact induction (by omega) highest
        (fun index atLeast less => below index (by omega) less) above
  | case3 low high done =>
      rw [bisect, if_neg done]
      omega

theorem firstIndex_eq_boundary
    {size boundary : Nat} {holds : Nat → Bool} (highest : boundary ≤ size)
    (below : ∀ index < boundary, holds index = false)
    (above : ∀ index, boundary ≤ index → index < size → holds index = true) :
    firstIndex size holds = boundary :=
  bisect_eq_boundary (Nat.zero_le boundary) highest (fun index _ => below index) above

/-- Bisection stops where the predicate turns true, at the first index or behind one that
does not satisfy it, and at the last index or at one that does. -/
theorem bisect_turns {holds : Nat → Bool} {low high : Nat} (ordered : low ≤ high) :
    (low ≤ bisect holds low high ∧ bisect holds low high ≤ high) ∧
      (low < bisect holds low high → holds (bisect holds low high - 1) = false) ∧
      (bisect holds low high < high → holds (bisect holds low high) = true) := by
  induction low, high using bisect.induct holds with
  | case1 low high less middle found induction =>
      have middleLess : middle < high := by omega
      obtain ⟨⟨lowest, highest⟩, below, above⟩ := induction (by omega)
      rw [bisect, if_pos less, if_pos found]
      refine ⟨⟨lowest, Nat.le_trans highest middleLess.le⟩, below, ?_⟩
      intro _
      by_cases earlier : bisect holds low middle < middle
      · exact above earlier
      · rwa [show bisect holds low middle = middle by omega]
  | case2 low high less middle missing induction =>
      have notBelow : low ≤ middle + 1 := by omega
      obtain ⟨⟨lowest, highest⟩, below, above⟩ := induction (by omega)
      rw [bisect, if_pos less, if_neg missing]
      refine ⟨⟨Nat.le_trans notBelow lowest, highest⟩, ?_, above⟩
      intro _
      by_cases later : middle + 1 < bisect holds (middle + 1) high
      · exact below later
      · rw [show bisect holds (middle + 1) high = middle + 1 by omega]
        exact Bool.eq_false_iff.mpr missing
  | case3 low high done =>
      rw [bisect, if_neg done]
      refine ⟨by omega, by omega, by omega⟩

theorem firstIndex_append
    {α : Type} {left right : List α} (fallback : α) (accepts : α → Bool)
    (refused : ∀ item ∈ left, accepts item = false)
    (accepted : ∀ item ∈ right, accepts item = true) :
    firstIndex (left ++ right).toArray.size
        (fun index => accepts ((left ++ right).toArray.getD index fallback)) =
      left.length := by
  apply firstIndex_eq_boundary
  · simp
  · intro index inside
    rw [Array.getD_eq_getD_getElem?, List.getElem?_toArray, List.getElem?_append_left inside,
      List.getElem?_eq_getElem inside]
    exact refused _ (List.getElem_mem inside)
  · intro index outside inside
    have indexInside : index - left.length < right.length := by
      simp only [List.size_toArray, List.length_append] at inside
      omega
    rw [Array.getD_eq_getD_getElem?, List.getElem?_toArray, List.getElem?_append_right outside,
      List.getElem?_eq_getElem indexInside]
    exact accepted _ (List.getElem_mem indexInside)

section

variable {α : Type} {items : List α} {refuses : α → Bool}

theorem refuses_eq_false_of_mem_dropWhile
    (ordered : items.Pairwise fun left right => refuses right = true → refuses left = true)
    {item : α} (member : item ∈ items.dropWhile refuses) : refuses item = false := by
  rw [← List.takeWhile_append_dropWhile (p := refuses) (l := items)] at ordered
  have later := (List.pairwise_append.mp ordered).2.1
  have headAccepted := List.head?_dropWhile_not refuses items
  cases found : items.dropWhile refuses with
  | nil => simp [found] at member
  | cons first rest =>
      rw [found] at member later headAccepted
      have accepted : refuses first = false := by simpa using headAccepted
      rcases List.mem_cons.mp member with rfl | behind
      · exact accepted
      · by_contra refused
        have firstRefused := List.rel_of_pairwise_cons later behind
          (Bool.eq_true_of_not_eq_false refused)
        rw [accepted] at firstRefused
        cases firstRefused

/-- Bisection of a row in which the refused items stand first counts them. -/
theorem firstIndex_eq_length_takeWhile
    (ordered : items.Pairwise fun left right => refuses right = true → refuses left = true) :
    firstIndex items.length (fun index => items[index]?.any fun item => !refuses item) =
      (items.takeWhile refuses).length := by
  have whole := List.takeWhile_append_dropWhile (p := refuses) (l := items)
  have total : (items.takeWhile refuses).length + (items.dropWhile refuses).length =
      items.length := by
    rw [← List.length_append, whole]
  apply firstIndex_eq_boundary
  · omega
  · intro index inside
    conv_lhs => rw [← whole]
    rw [List.getElem?_append_left inside, List.getElem?_eq_getElem inside, Option.any_some,
      List.mem_takeWhile_imp (List.getElem_mem inside)]
    rfl
  · intro index behind inside
    have within : index - (items.takeWhile refuses).length <
        (items.dropWhile refuses).length := by
      omega
    conv_lhs => rw [← whole]
    rw [List.getElem?_append_right behind, List.getElem?_eq_getElem within, Option.any_some,
      refuses_eq_false_of_mem_dropWhile ordered (List.getElem_mem within)]
    rfl

/-- So it finds the first item that is accepted. -/
theorem getElem?_firstIndex
    (ordered : items.Pairwise fun left right => refuses right = true → refuses left = true) :
    items[firstIndex items.length fun index => items[index]?.any fun item => !refuses item]? =
      items.find? fun item => !refuses item := by
  have whole := List.takeWhile_append_dropWhile (p := refuses) (l := items)
  rw [firstIndex_eq_length_takeWhile ordered, List.find?_eq_head?_dropWhile_not,
    List.head?_eq_getElem?]
  conv_lhs =>
    rw [← whole, List.getElem?_append_right (by simp)]
  simp

end

end Reroute.Search
