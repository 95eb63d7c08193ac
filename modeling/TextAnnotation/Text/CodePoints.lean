import TextAnnotation.Partition

/-!
Sets of code points, as tables of a character property hold them. A set is written as its boundaries:
the places, in ascending order, where membership changes.
-/

namespace TextAnnotation.Text

/-- A set of code points: those with an odd number of boundaries at or below them. -/
structure CodePoints where
  boundaries : Array Nat

def CodePoints.contains (s : CodePoints) (c : Char) : Bool :=
  partitionPoint (fun boundary => decide (boundary ≤ c.toNat)) s.boundaries % 2 == 1

end TextAnnotation.Text
