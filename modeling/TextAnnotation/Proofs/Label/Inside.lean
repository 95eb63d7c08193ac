import TextAnnotation.Proofs.Label.Following

/-!
The labels that an index finds inside a span are those that a look at every label would find.
-/

namespace TextAnnotation.LabelIndex

open Spanned (span)

variable [Spanned α] {index : LabelIndex α}

/-- Whether a label lies inside a range. -/
def inside (range : Span) (label : α) : Bool :=
  range.start ≤ (span label).start && (span label).start ≤ range.stop && (span label).stop ≤ range.stop

theorem insideSpan_eq_filter (index : LabelIndex α) (range : Span) :
    index.insideSpan range = index.ascending.filter (inside range) := by
  have hlow := index.lowerBound_spec range.start
  have hhigh := index.upperBound_spec range.stop
  apply filter_slice (Nat.le_max_right _ _)
  · intro label hmem
    have hbefore := hlow.1 label hmem
    simp only [inside, Bool.and_eq_false_iff, decide_eq_false_iff_not]
    omega
  · intro label hmem
    rw [slice_max] at hmem
    obtain ⟨hdrop, htake⟩ := mem_of_mem_slice hmem
    simp [inside, hlow.2 label hdrop, hhigh.1 label htake]
  · intro label hmem
    have hafter := hhigh.2 label (List.drop_subset_drop_left _ (Nat.le_max_left _ _) hmem)
    simp only [inside, Bool.and_eq_false_iff, decide_eq_false_iff_not]
    omega

theorem following_eq_filter (index : LabelIndex α) (offset : Nat) :
    index.following offset = index.ascending.filter fun label => offset ≤ (span label).start := by
  have hlow := index.lowerBound_spec offset
  have hle : index.lowerBound offset ≤ index.size := partitionPoint_le_size _ _
  apply slice_eq_filter hle
  · intro label hmem
    simpa using hlow.1 label hmem
  · intro label hmem
    exact decide_eq_true (hlow.2 label (mem_of_mem_slice hmem).1)
  · intro label hmem
    rw [List.drop_of_length_le (Nat.le_of_eq index.length_ascending)] at hmem
    cases hmem

/-- Two indices hold the same labels, in the same order, inside a range. What they hold outside of it, or
across its borders, may differ. -/
def SameInside (range : Span) (index other : LabelIndex α) : Prop :=
  index.ascending.filter (fun label => range.contains (span label)) =
    other.ascending.filter fun label => range.contains (span label)

/-- A property that only labels inside the range have picks the same labels. -/
theorem SameInside.filter_eq {range : Span} {other : LabelIndex α} (h : index.SameInside range other)
    {p : α → Bool} (hp : ∀ label, p label = true → range.contains (span label) = true) :
    index.ascending.filter p = other.ascending.filter p := by
  have hboth (labels : List α) :
      (labels.filter fun label => range.contains (span label)).filter p = labels.filter p := by
    rw [List.filter_filter]
    apply List.filter_congr
    intro label _
    cases hlabel : p label with
    | false => rfl
    | true => exact hp label hlabel
  rw [← hboth index.ascending, h, hboth]

theorem SameInside.insideSpan_eq {range part : Span} {other : LabelIndex α}
    (h : index.SameInside range other) (hpart : range.contains part = true) :
    index.insideSpan part = other.insideSpan part := by
  rw [insideSpan_eq_filter, insideSpan_eq_filter]
  apply h.filter_eq
  intro label hlabel
  simp only [inside, Span.contains, Bool.and_eq_true, decide_eq_true_eq] at hlabel hpart ⊢
  omega

theorem SameInside.following_eq {range : Span} {other : LabelIndex α} (h : index.SameInside range other)
    {position limit : Nat} (hposition : range.start ≤ position) (hlimit : limit ≤ range.stop) :
    (index.following position).filter (fun label => (span label).stop ≤ limit) =
      (other.following position).filter fun label => (span label).stop ≤ limit := by
  rw [following_eq_filter, following_eq_filter, List.filter_filter, List.filter_filter]
  apply h.filter_eq
  intro label hlabel
  simp only [Span.contains_iff, Bool.and_eq_true, decide_eq_true_eq] at hlabel ⊢
  omega

end TextAnnotation.LabelIndex
