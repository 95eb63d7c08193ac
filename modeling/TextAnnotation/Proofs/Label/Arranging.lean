import Mathlib.Order.Bounds.Basic
import TextAnnotation.Label.Index

/-!
How an index arranges the labels that it is built from. Labels of one span stay in the order in which they were given,
since sorting is stable; and since sorting also brings them together, dropping those that follow one of their own span
leaves of every span the first label given.
-/

namespace TextAnnotation

namespace LabelIndex

open Spanned (span)

variable {α : Type} [Spanned α]

/-- Whether a label has exactly the given span. -/
def occupies (s : Span) (label : α) : Bool := span label = s

theorem occupies_iff {s : Span} {label : α} : occupies s label = true ↔ span label = s := by
  simp [occupies]

theorem filter_mergeSort (labels : List α) (s : Span) :
    (labels.mergeSort fun a b => (span a).le (span b)).filter (occupies s) = labels.filter (occupies s) := by
  have hsorted : (labels.filter (occupies s)).Pairwise fun a b => (span a).le (span b) = true := by
    apply List.pairwise_of_forall_mem_list
    intro a ha b hb
    rw [occupies_iff.1 (List.mem_filter.1 ha).2, occupies_iff.1 (List.mem_filter.1 hb).2]
    exact Span.le_refl s
  have hkept : (labels.filter (occupies s)).Sublist (labels.mergeSort fun a b => (span a).le (span b)) := by
    apply List.sublist_mergeSort _ _ hsorted List.filter_sublist
    · exact fun a b c => Span.le_trans
    · exact fun a b => Span.le_total (span a) (span b)
  have hfiltered := hkept.filter (occupies s)
  rw [List.filter_filter, funext fun label => Bool.and_self (occupies s label)] at hfiltered
  have hlength := ((List.mergeSort_perm labels fun a b => (span a).le (span b)).filter (occupies s)).length_eq
  exact (hfiltered.eq_of_length hlength.symm).symm

/-- What is left after a label when those of its span are dropped has, of every other span, the first label. -/
theorem filter_collapseAfter {previous : Span} {labels : List α}
    (h : (previous :: labels.map span).Pairwise fun a b => a.le b = true) (s : Span) :
    (collapse.collapseAfter previous labels).filter (occupies s) =
      if s = previous then [] else (labels.find? (occupies s)).toList := by
  induction labels generalizing previous with
  | nil => simp [collapse.collapseAfter]
  | cons label rest ih =>
    obtain ⟨hprevious, hrest⟩ := List.pairwise_cons.1 h
    rw [collapse.collapseAfter]
    by_cases hsame : span label = previous
    · rw [if_pos hsame, ih (hsame ▸ hrest), List.find?_cons]
      by_cases hs : s = previous
      · rw [if_pos hs, if_pos hs]
      · have hother : occupies s label = false := by simp [occupies, hsame, Ne.symm hs]
        rw [hother]
    · rw [if_neg hsame, List.filter_cons, List.find?_cons, ih hrest]
      by_cases hlabel : span label = s
      · have hs : s ≠ previous := fun heq => hsame (hlabel.trans heq)
        rw [if_pos (occupies_iff.2 hlabel), if_pos hlabel.symm, if_neg hs, occupies_iff.2 hlabel]
        rfl
      · have hother : occupies s label = false := by simp [occupies, hlabel]
        rw [hother, if_neg (Ne.symm hlabel)]
        by_cases hs : s = previous
        -- The order of spans has passed the span before this label.
        · have hnone : rest.find? (occupies s) = none := by
            rw [List.find?_eq_none]
            intro later hmem hlater
            have hle := (List.pairwise_cons.1 hrest).1 _ (List.mem_map_of_mem hmem)
            rw [occupies_iff.1 hlater, hs] at hle
            exact hsame (Span.le_antisymm hle (hprevious _ List.mem_cons_self))
          rw [if_pos hs, hnone]
          rfl
        · rw [if_neg hs]
          rfl

theorem filter_collapse {labels : List α} (h : labels.Pairwise fun a b => (span a).le (span b) = true) (s : Span) :
    (collapse labels).filter (occupies s) = (labels.find? (occupies s)).toList := by
  cases labels with
  | nil => rfl
  | cons label rest =>
    have hspans : ((label :: rest).map span).Pairwise fun a b => a.le b = true := List.pairwise_map.2 h
    rw [collapse, List.filter_cons, List.find?_cons, filter_collapseAfter hspans]
    by_cases hlabel : span label = s
    · rw [if_pos (occupies_iff.2 hlabel), if_pos hlabel.symm, occupies_iff.2 hlabel]
      rfl
    · have hother : occupies s label = false := by simp [occupies, hlabel]
      rw [hother, if_neg (Ne.symm hlabel)]
      rfl

theorem filter_arrange (distinct : Bool) (given : List α) (s : Span) :
    (arrange distinct given).filter (occupies s) =
      if distinct then (given.find? (occupies s)).toList else given.filter (occupies s) := by
  rw [arrange]
  cases distinct with
  | false => exact filter_mergeSort given s
  | true =>
    change (collapse _).filter _ = (given.find? _).toList
    rw [filter_collapse (pairwise_mergeSort_le given), ← List.head?_filter, filter_mergeSort, List.head?_filter]

/-- Where labels stop. -/
def stops (labels : List α) : Set Nat := {stop | ∃ label ∈ labels, (span label).stop = stop}

theorem stops_nil : stops ([] : List α) = ∅ := by
  ext stop
  simp [stops]

theorem stops_cons (label : α) (rest : List α) : stops (label :: rest) = insert (span label).stop (stops rest) := by
  ext stop
  simp [stops, eq_comm]

theorem length_runningMaxStop (largest : Nat) (labels : List α) :
    (runningMaxStop largest labels).length = labels.length := by
  induction labels generalizing largest with
  | nil => rfl
  | cons label rest ih => simp [runningMaxStop, ih]

theorem isGreatest_runningMaxStop {labels : List α} {before i largest : Nat}
    (h : (runningMaxStop before labels)[i]? = some largest) :
    IsGreatest (insert before (stops (labels.take (i + 1)))) largest := by
  induction labels generalizing before i with
  | nil => cases h
  | cons label rest ih =>
    rw [List.take_succ_cons, stops_cons]
    cases i with
    | zero =>
      cases h
      rw [List.take_zero, stops_nil, insert_empty_eq, max_comm]
      exact isGreatest_singleton.insert before
    | succ i =>
      obtain ⟨hmem, hupper⟩ := ih h
      have hbound := hupper (.inl rfl)
      constructor
      · rcases hmem with rfl | hmem
        · rcases le_total before (span label).stop with hle | hle
          · exact .inr (.inl (max_eq_left hle))
          · exact .inl (max_eq_right hle)
        · exact .inr (.inr hmem)
      · rintro stop (rfl | rfl | hstop)
        · exact le_trans (le_max_right _ _) hbound
        · exact le_trans (le_max_left _ _) hbound
        · exact hupper (.inr hstop)

variable {index : LabelIndex α}

theorem size_maxStops (index : LabelIndex α) : index.maxStops.size = index.size := by
  rw [← Array.length_toList, index.maxStops_eq, length_runningMaxStop, Array.length_toList, size]

/-- The scan for the largest stop begins with zero, which no stop is below. -/
theorem isGreatest_maxStops {i largest : Nat} (h : index.maxStops[i]? = some largest) :
    IsGreatest (stops (index.ascending.take (i + 1))) largest := by
  rw [← Array.getElem?_toList, index.maxStops_eq] at h
  obtain ⟨hmem, hupper⟩ := isGreatest_runningMaxStop h
  have hbound {stop : Nat} (hstop : stop ∈ stops (index.ascending.take (i + 1))) : stop ≤ largest :=
    hupper (.inr hstop)
  apply And.intro _ fun stop => hbound
  rcases hmem with rfl | hmem
  · cases hlabels : index.ascending with
    | nil =>
      rw [ascending] at hlabels
      rw [hlabels] at h
      cases h
    | cons label rest =>
      rw [hlabels, List.take_succ_cons, stops_cons] at hbound
      rw [List.take_succ_cons, stops_cons]
      exact .inl (Nat.le_zero.1 (hbound (.inl rfl))).symm
  · exact hmem

/-- What an index is to the labels that it is built from: they stand in the order of their spans, those of one span in
the order in which they were given, or only the first of them if the kind is distinct; and at each position stands the
largest stop up to there. -/
structure Arranges (distinct : Bool) (given : List α) (index : LabelIndex α) : Prop where
  sorted : index.ascending.Pairwise fun a b =>
    (span a).start < (span b).start ∨ ((span a).start = (span b).start ∧ (span a).stop ≤ (span b).stop)
  filter_occupies : ∀ s, index.ascending.filter (occupies s) =
    if distinct then (given.find? (occupies s)).toList else given.filter (occupies s)
  perm : distinct = false → index.ascending.Perm given
  size_eq : index.maxStops.size = index.size
  isGreatest : ∀ i largest, index.maxStops[i]? = some largest →
    IsGreatest (stops (index.ascending.take (i + 1))) largest

theorem ofLabels_arranges (distinct : Bool) (given : List α) : Arranges distinct given (ofLabels distinct given) where
  sorted := (ofLabels distinct given).sorted.imp Span.le_iff.1
  filter_occupies := filter_arrange distinct given
  perm hdistinct := by
    subst hdistinct
    exact List.mergeSort_perm given _
  size_eq := size_maxStops _
  isGreatest i largest := isGreatest_maxStops

end LabelIndex

end TextAnnotation
