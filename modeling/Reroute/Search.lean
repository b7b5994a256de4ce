/-!
# Binary search

`firstIndex size holds` bisects the indices below `size` for the boundary at which
`holds` turns true.  When `holds` is monotone it is the least index that satisfies it,
or `size` when there is none.  On other predicates the answer depends on which indices
the bisection probes, so callers that search unsorted data rely on the exact midpoints.
-/

namespace Reroute.Search

/-- Bisect `[low, high)`, probing the midpoint rounded down. -/
def bisect (holds : Nat → Bool) (low high : Nat) : Nat :=
  if low < high then
    let middle := (low + high) / 2
    if holds middle then bisect holds low middle
    else bisect holds (middle + 1) high
  else low
termination_by high - low

/-- Bisect the indices below `size`. -/
def firstIndex (size : Nat) (holds : Nat → Bool) : Nat :=
  bisect holds 0 size

end Reroute.Search
