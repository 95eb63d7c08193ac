import TextAnnotation.Partition
import TextAnnotation.Span

/-!
The frozen form of a collection of labels: sorted by span, with queries by binary search. The running
maximum of the stops tells where a scan for covering labels may begin.
-/

namespace TextAnnotation

open Spanned (span)

namespace LabelIndex

/-- Of consecutive values with one span only the first. -/
def collapse [Spanned α] : List α → List α
  | [] => []
  | label :: rest => label :: collapseAfter (span label) rest
where
  collapseAfter (previous : Span) : List α → List α
    | [] => []
    | label :: rest =>
      if span label = previous then collapseAfter previous rest
      else label :: collapseAfter (span label) rest

/-- The largest stop among the values so far, at each of them, given the largest before them. -/
def runningMaxStop [Spanned α] (largest : Nat) : List α → List Nat
  | [] => []
  | label :: rest =>
    let largest := max (span label).stop largest
    largest :: runningMaxStop largest rest

theorem collapseAfter_sublist [Spanned α] (previous : Span) (labels : List α) :
    (collapse.collapseAfter previous labels).Sublist labels := by
  induction labels generalizing previous with
  | nil => exact .slnil
  | cons label rest ih =>
    simp only [collapse.collapseAfter]
    split
    · exact (ih previous).cons label
    · exact (ih (span label)).cons_cons label

theorem collapse_sublist [Spanned α] (labels : List α) : (collapse labels).Sublist labels := by
  cases labels with
  | nil => exact .slnil
  | cons label rest => exact (collapseAfter_sublist (span label) rest).cons_cons label

end LabelIndex

/-- Labels in span order, and at each position the largest stop up to there. -/
structure LabelIndex (α : Type) [Spanned α] where
  labels : Array α
  maxStops : Array Nat
  sorted : labels.toList.Pairwise fun a b => (span a).le (span b) = true
  maxStops_eq : maxStops.toList = LabelIndex.runningMaxStop 0 labels.toList
deriving Repr

namespace LabelIndex

variable {α : Type} [Spanned α]

/-- The labels as an index keeps them: in span order, equal spans in the order of their arrival. Of a
distinct kind, the first label given for a span is kept. -/
def arrange (distinct : Bool) (labels : List α) : List α :=
  let sorted := labels.mergeSort fun a b => (span a).le (span b)
  if distinct then collapse sorted else sorted

theorem pairwise_mergeSort_le (labels : List α) :
    (labels.mergeSort fun a b => (span a).le (span b)).Pairwise
      fun a b => (span a).le (span b) = true := by
  apply List.pairwise_mergeSort
  · intro a b c hab hbc
    exact Span.le_trans hab hbc
  · intro a b
    exact Span.le_total (span a) (span b)

theorem pairwise_arrange (distinct : Bool) (labels : List α) :
    (arrange distinct labels).Pairwise fun a b => (span a).le (span b) = true := by
  simp only [arrange]
  split
  · exact (pairwise_mergeSort_le labels).sublist (collapse_sublist _)
  · exact pairwise_mergeSort_le labels

/-- The index of labels in any order. -/
def ofLabels (distinct : Bool) (labels : List α) : LabelIndex α where
  labels := (arrange distinct labels).toArray
  maxStops := (runningMaxStop 0 (arrange distinct labels)).toArray
  sorted := pairwise_arrange distinct labels
  maxStops_eq := rfl

def size (index : LabelIndex α) : Nat := index.labels.size

/-- The position of the first label that starts at or after `offset`. -/
def lowerBound (index : LabelIndex α) (offset : Nat) : Nat :=
  partitionPoint (fun label => decide ((span label).start < offset)) index.labels

/-- The position after the last label that starts at or before `offset`. -/
def upperBound (index : LabelIndex α) (offset : Nat) : Nat :=
  partitionPoint (fun label => decide ((span label).start ≤ offset)) index.labels

/-- All labels in span order. -/
def ascending (index : LabelIndex α) : List α := index.labels.toList

def descending (index : LabelIndex α) : List α := index.ascending.reverse

def get? (index : LabelIndex α) (position : Nat) : Option α := index.labels[position]?

def first? (index : LabelIndex α) : Option α := index.ascending.head?

def last? (index : LabelIndex α) : Option α := index.ascending.getLast?

/-- The first `count` labels. -/
def limit (index : LabelIndex α) (count : Nat) : List α := index.ascending.take count

/-- The labels from one position up to another. -/
def slice (index : LabelIndex α) (start stop : Nat) : List α := (index.labels.extract start stop).toList

/-- The labels with exactly the given bounds. -/
def atLocation (index : LabelIndex α) (start stop : Nat) : List α :=
  index.slice
    (partitionPoint (fun label => (span label).lt ⟨start, stop⟩) index.labels)
    (partitionPoint (fun label => (span label).le ⟨start, stop⟩) index.labels)

/-- The labels that lie inside `range`, in span order. -/
def insideSpan (index : LabelIndex α) (range : Span) : List α :=
  let start := index.lowerBound range.start
  (index.slice start (max (index.upperBound range.stop) start)).filter
    fun label => (span label).stop ≤ range.stop

/-- The labels that cover `range`, in span order. Up to the first position whose largest stop reaches
the end of the range, every label ends too early. -/
def covering (index : LabelIndex α) (range : Span) : List α :=
  let start := partitionPoint (fun largest => decide (largest < range.stop)) index.maxStops
  (index.slice start (max (index.upperBound range.start) start)).filter
    fun label => range.stop ≤ (span label).stop

/-- The labels that start at or after `offset`. -/
def following (index : LabelIndex α) (offset : Nat) : List α :=
  index.slice (index.lowerBound offset) index.size

end LabelIndex

end TextAnnotation
