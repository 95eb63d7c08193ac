/-!
Binary search for the place in a sorted array where a property stops holding.
-/

namespace TextAnnotation

/-- The partition point between `lo` and `hi`, given that the property holds below `lo` and fails from
`hi` on. -/
def partitionPointIn (holds : α → Bool) (xs : Array α) (lo hi : Nat) (bounded : hi ≤ xs.size) : Nat :=
  if h : lo < hi then
    let mid := lo + (hi - lo) / 2
    have hmid : mid < xs.size := by omega
    if holds xs[mid] then partitionPointIn holds xs (mid + 1) hi bounded
    else partitionPointIn holds xs lo mid (by omega)
  else lo
termination_by hi - lo

/-- The number of leading elements that have a property, when no element after the first without it
has it. -/
def partitionPoint (holds : α → Bool) (xs : Array α) : Nat :=
  partitionPointIn holds xs 0 xs.size (Nat.le_refl _)

end TextAnnotation
