import Mathlib.Data.List.Sort
import TextAnnotation.View

/-!
Indices with their labels sorted by insertion. A merge recurses on two lists at once and does not reduce, whereas an
insertion follows the list that it inserts into. Both are stable, so that they sort to the same index.
-/

namespace TextAnnotation

section
variable {le : α → α → Bool}

theorem orderedInsert_append {a : α} {before after : List α}
    (hsorted : (before ++ a :: after).Pairwise fun a b => le a b = true)
    (hbefore : ∀ b ∈ before, ¬ le a b = true) :
    (before ++ after).orderedInsert (fun a b => le a b = true) a = before ++ a :: after := by
  induction before with
  | nil =>
    cases after with
    | nil => rfl
    | cons b after =>
      have hle : le a b = true := (List.pairwise_cons.1 hsorted).1 b List.mem_cons_self
      simp [hle]
  | cons b before ih =>
    obtain ⟨hnot, hrest⟩ := List.forall_mem_cons.1 hbefore
    rw [List.cons_append, List.orderedInsert_cons, if_neg hnot, ih (List.pairwise_cons.1 hsorted).2 hrest]
    rfl

theorem mergeSort_eq_insertionSort (htrans : ∀ a b c, le a b → le b c → le a c)
    (htotal : ∀ a b, le a b || le b a) (as : List α) :
    as.mergeSort le = as.insertionSort fun a b => le a b = true := by
  induction as with
  | nil => rw [List.mergeSort_nil, List.insertionSort_nil]
  | cons a as ih =>
    obtain ⟨before, after, hcons, hrest, hbefore⟩ := List.mergeSort_cons htrans htotal a as
    have hsorted := List.pairwise_mergeSort htrans htotal (a :: as)
    rw [hcons] at hsorted
    rw [List.insertionSort_cons, ← ih, hrest, hcons, orderedInsert_append hsorted]
    simpa using hbefore

end

namespace LabelIndex

variable {α : Type} [Spanned α]

open Spanned (span)

/-- The labels as an index keeps them, sorted by insertion. -/
def insertAll (distinct : Bool) (labels : List α) : List α :=
  let sorted := labels.insertionSort fun a b => (span a).le (span b) = true
  if distinct then collapse sorted else sorted

theorem arrange_eq_insertAll (distinct : Bool) (labels : List α) :
    arrange distinct labels = insertAll distinct labels := by
  have hsort := @mergeSort_eq_insertionSort α (fun a b => (span a).le (span b))
    (fun _ _ _ => Span.le_trans) (fun _ _ => Span.le_total _ _) labels
  rw [arrange, hsort]
  rfl

def byInsertion (distinct : Bool) (labels : List α) : LabelIndex α where
  labels := (insertAll distinct labels).toArray
  maxStops := (runningMaxStop 0 (insertAll distinct labels)).toArray
  sorted := arrange_eq_insertAll distinct labels ▸ pairwise_arrange distinct labels
  maxStops_eq := rfl

theorem ofLabels_eq_byInsertion (distinct : Bool) (labels : List α) :
    ofLabels distinct labels = byInsertion distinct labels := by
  simp only [ofLabels, byInsertion, arrange_eq_insertAll]

end LabelIndex

namespace View

/-- The index that a kind is frozen into, by insertion if it is not frozen yet. -/
def indexByInsertion (view : View) (kind : LabelKind) : LabelIndex Label :=
  match view.labeler kind with
  | .collecting labels => .byInsertion kind.distinct labels.toList
  | .frozen index => index

theorem freeze_eq_indexByInsertion (view : View) (kind : LabelKind) :
    (view.freeze kind).1 = view.indexByInsertion kind := by
  simp only [freeze, indexByInsertion]
  cases view.labeler kind with
  | collecting labels => exact LabelIndex.ofLabels_eq_byInsertion kind.distinct labels.toList
  | frozen index => rfl

end View

end TextAnnotation
