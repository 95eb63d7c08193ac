import TextAnnotation.Proofs.Label.Arranging
import TextAnnotation.Proofs.Label.Insertion
import TextAnnotation.Proofs.Label.Inside
import TextAnnotation.Proofs.Label.Proper

/-!
What the queries of an index answer. Each looks at the labels from one position up to another, both found by binary
search, and its answer is what a look at every label would give, from either end.
-/

namespace TextAnnotation.LabelIndex

open Spanned (span)

/-- The positions between which a query looks at the labels, and the test that these must pass. -/
structure Stretch (α : Type) where
  start : Nat
  stop : Nat
  keep : α → Bool

variable {α : Type} [Spanned α]

section
variable (index : LabelIndex α)

def locationStretch (start stop : Nat) : Stretch α where
  start := partitionPoint (fun label => (span label).lt ⟨start, stop⟩) index.labels
  stop := partitionPoint (fun label => (span label).le ⟨start, stop⟩) index.labels
  keep _ := true

def insideStretch (range : Span) : Stretch α where
  start := index.lowerBound range.start
  stop := max (index.upperBound range.stop) (index.lowerBound range.start)
  keep label := (span label).stop ≤ range.stop

def coveringStretch (range : Span) : Stretch α where
  start := partitionPoint (fun largest => decide (largest < range.stop)) index.maxStops
  stop := max (index.upperBound range.start)
    (partitionPoint (fun largest => decide (largest < range.stop)) index.maxStops)
  keep label := range.stop ≤ (span label).stop

def followingStretch (offset : Nat) : Stretch α where
  start := index.lowerBound offset
  stop := index.size
  keep _ := true

/-- The labels between two positions that pass a test, from the last one back to the first. -/
def scanBack (keep : α → Bool) (start : Nat) : Nat → List α
  | 0 => []
  | position + 1 =>
    if position < start then []
    else (index.get? position).toList.filter keep ++ scanBack keep start position

/-- A query looks at a stretch whose bounds are in order, and answers with all labels of the index that are asked for.
Iterated in reverse, the answer is that of a look at every label from the last one back. -/
structure Answers (stretch : Stretch α) (asked : α → Bool) (answer : List α) : Prop where
  inOrder : stretch.start ≤ stretch.stop
  within : stretch.stop ≤ index.size
  forward : answer = (index.slice stretch.start stretch.stop).filter stretch.keep
  eq_filter : answer = index.ascending.filter asked
  backward : index.scanBack stretch.keep stretch.start stretch.stop = index.descending.filter asked

theorem scanBack_eq_reverse (keep : α → Bool) (start stop : Nat) :
    index.scanBack keep start stop = ((index.slice start stop).filter keep).reverse := by
  induction stop with
  | zero => simp [scanBack, slice_eq_take]
  | succ position ih =>
    rw [scanBack]
    split
    · rename_i hlt
      rw [slice_eq_take, Nat.sub_eq_zero_of_le hlt]
      rfl
    · rename_i hge
      have hslice : index.slice start (position + 1) = index.slice start position ++ (index.get? position).toList := by
        rw [slice_eq_take, slice_eq_take, Nat.succ_sub (Nat.le_of_not_lt hge), List.take_add_one, List.getElem?_drop,
          Nat.add_sub_cancel' (Nat.le_of_not_lt hge), get?_eq_ascending]
      rw [hslice, List.filter_append, List.reverse_append, ih]
      congr 1
      cases index.get? position with
      | none => rfl
      | some label => cases hkeep : keep label <;> simp [hkeep]

end

variable {index : LabelIndex α} {stretch : Stretch α} {asked : α → Bool} {answer : List α}

theorem answers_of_eq_filter (hinOrder : stretch.start ≤ stretch.stop) (hwithin : stretch.stop ≤ index.size)
    (hforward : answer = (index.slice stretch.start stretch.stop).filter stretch.keep)
    (h : answer = index.ascending.filter asked) : index.Answers stretch asked answer where
  inOrder := hinOrder
  within := hwithin
  forward := hforward
  eq_filter := h
  backward := by rw [scanBack_eq_reverse, ← hforward, h, descending, List.filter_reverse]

theorem Answers.congr {other : α → Bool} (h : index.Answers stretch asked answer)
    (hasked : ∀ label ∈ index.ascending, asked label = other label) : index.Answers stretch other answer :=
  answers_of_eq_filter h.inOrder h.within h.forward (h.eq_filter.trans (List.filter_congr hasked))

theorem answers_atLocation (index : LabelIndex α) (start stop : Nat) :
    index.Answers (index.locationStretch start stop) (occupies ⟨start, stop⟩) (index.atLocation start stop) := by
  have hlt : index.labels.toList.Pairwise
      fun a b => (span b).lt ⟨start, stop⟩ = true → (span a).lt ⟨start, stop⟩ = true :=
    index.sorted.imp Span.lt_of_le_of_lt
  have hle : index.labels.toList.Pairwise
      fun a b => (span b).le ⟨start, stop⟩ = true → (span a).le ⟨start, stop⟩ = true :=
    index.sorted.imp Span.le_trans
  obtain ⟨hbefore, hfrom⟩ := partitionPoint_spec hlt
  obtain ⟨hupTo, hafter⟩ := partitionPoint_spec hle
  have hinOrder : (index.locationStretch start stop).start ≤ (index.locationStretch start stop).stop :=
    partitionPoint_mono hlt hle fun _ _ => Span.le_of_lt
  have hfilter : index.atLocation start stop = index.ascending.filter (occupies ⟨start, stop⟩) := by
    apply slice_eq_filter hinOrder
    · intro label hmem
      have hlabel := hbefore label hmem
      rw [← Bool.not_eq_true, occupies_iff]
      intro heq
      rw [heq] at hlabel
      exact Span.lt_irrefl _ hlabel
    · intro label hmem
      obtain ⟨hdrop, htake⟩ := mem_of_mem_slice hmem
      rw [occupies_iff]
      apply Span.eq_of_le_of_not_lt (hupTo label htake)
      exact Bool.eq_false_iff.1 (hfrom label hdrop)
    · intro label hmem
      have hlabel := hafter label hmem
      rw [← Bool.not_eq_true, occupies_iff]
      intro heq
      rw [heq, Span.le_refl] at hlabel
      cases hlabel
  exact answers_of_eq_filter hinOrder (partitionPoint_le_size _ _) (List.filter_eq_self.2 fun _ _ => rfl).symm hfilter

theorem answers_following (index : LabelIndex α) (offset : Nat) :
    index.Answers (index.followingStretch offset) (fun label => offset ≤ (span label).start) (index.following offset) :=
  answers_of_eq_filter (partitionPoint_le_size _ _) (Nat.le_refl _)
    (List.filter_eq_self.2 fun _ _ => rfl).symm (index.following_eq_filter offset)

theorem answers_insideSpan (index : LabelIndex α) (range : Span) :
    index.Answers (index.insideStretch range) (inside range) (index.insideSpan range) :=
  answers_of_eq_filter (Nat.le_max_right _ _)
    (Nat.max_le.2 ⟨partitionPoint_le_size _ _, partitionPoint_le_size _ _⟩) rfl (index.insideSpan_eq_filter range)

/-- A label that ends within a range and not before it starts has started by the end of the range. -/
theorem inside_eq_contains {range : Span} {label : α} (hproper : (span label).start ≤ (span label).stop) :
    inside range label = range.contains (span label) := by
  rw [Bool.eq_iff_iff, Span.contains_iff]
  simp only [inside, Bool.and_eq_true, decide_eq_true_eq]
  omega

/-- Whatever bounds they name, queries answer with the labels that a look at every label would give. The one for labels
inside a range leaves out those that start after it, which a label that ends within it does only if it ends before it
starts. No span that `Span.between` builds does so: the last part holds of all labels whose spans keep that
invariant. -/
theorem queries_answer_as_filters (distinct : Bool) (given : List α) (range : Span) (start stop offset : Nat) :
    let index := ofLabels distinct given
    index.Answers (index.locationStretch start stop) (occupies ⟨start, stop⟩) (index.atLocation start stop) ∧
      index.Answers (index.followingStretch offset) (fun label => offset ≤ (span label).start)
        (index.following offset) ∧
      index.Answers (index.insideStretch range) (inside range) (index.insideSpan range) ∧
      ((∀ label ∈ given, (span label).start ≤ (span label).stop) →
        index.Answers (index.insideStretch range) (fun label => range.contains (span label))
          (index.insideSpan range)) := by
  intro index
  have hinside := index.answers_insideSpan range
  apply And.intro (index.answers_atLocation start stop)
  apply And.intro (index.answers_following offset)
  apply And.intro hinside
  intro hproper
  apply hinside.congr
  intro label hmem
  exact inside_eq_contains (hproper label (arrange_subset distinct given hmem))

/-- Two empty spans at the end of a range, a span that crosses the end and one that ends there. -/
def rests : List Span := [⟨4, 4⟩, ⟨3, 9⟩, ⟨4, 4⟩, ⟨0, 4⟩]

theorem queries_answer_as_filters_rests :
    let index := ofLabels false rests
    let range : Span := ⟨0, 4⟩
    (∀ label ∈ rests, (span label).start ≤ (span label).stop) ∧
      index.Answers (index.insideStretch range) (fun label => range.contains (span label)) (index.insideSpan range) ∧
      index.insideSpan range = [⟨0, 4⟩, ⟨4, 4⟩, ⟨4, 4⟩] := by
  have hproper : ∀ label ∈ rests, (span label).start ≤ (span label).stop := by decide
  apply And.intro hproper
  constructor
  · exact (queries_answer_as_filters false rests ⟨0, 4⟩ 0 0 0).2.2.2 hproper
  · simp only [ofLabels_eq_byInsertion]
    decide +kernel

theorem stops_subset {labels others : List α} (h : labels ⊆ others) : stops labels ⊆ stops others := by
  rintro stop ⟨label, hmem, hstop⟩
  exact ⟨label, h hmem, hstop⟩

theorem pairwise_maxStops (index : LabelIndex α) : index.maxStops.toList.Pairwise (· ≤ ·) := by
  rw [List.pairwise_iff_getElem]
  intro i j hi hj hij
  have hearlier := isGreatest_maxStops (Array.getElem?_toList ▸ List.getElem?_eq_getElem hi)
  have hlater := isGreatest_maxStops (Array.getElem?_toList ▸ List.getElem?_eq_getElem hj)
  apply hearlier.mono hlater
  apply stops_subset
  apply List.take_subset_take_left
  omega

/-- Every label before the stretch ends too early, since the largest stop up to there does. -/
theorem stop_lt_of_mem_take {range : Span} {label : α}
    (h : label ∈ index.ascending.take (index.coveringStretch range).start) : (span label).stop < range.stop := by
  have hmono : index.maxStops.toList.Pairwise
      fun a b => decide (b < range.stop) = true → decide (a < range.stop) = true := by
    apply index.pairwise_maxStops.imp
    intro a b hle hlt
    exact decide_eq_true (lt_of_le_of_lt hle (of_decide_eq_true hlt))
  obtain ⟨i, hi, rfl⟩ := List.mem_take_iff_getElem.1 h
  obtain ⟨hstart, hlength⟩ := Nat.lt_min.1 hi
  have hsize : i < index.maxStops.size := by rwa [size_maxStops, ← length_ascending]
  have hlargest : decide (index.maxStops[i] < range.stop) = true := by
    apply (partitionPoint_spec hmono).1
    exact List.mem_take_iff_getElem.2 ⟨i, Nat.lt_min.2 ⟨hstart, hsize⟩, Array.getElem_toList hsize⟩
  have hgreatest := isGreatest_maxStops (Array.getElem?_eq_getElem hsize)
  apply lt_of_le_of_lt (hgreatest.2 _) (of_decide_eq_true hlargest)
  exact ⟨_, List.mem_take_iff_getElem.2 ⟨i, Nat.lt_min.2 ⟨Nat.lt_succ_self i, hlength⟩, rfl⟩, rfl⟩

theorem not_contains_of_mem_take {range : Span} {label : α}
    (h : label ∈ index.ascending.take (index.coveringStretch range).start) : (span label).contains range = false := by
  have hstop := stop_lt_of_mem_take h
  rw [← Bool.not_eq_true, Span.contains_iff]
  omega

theorem answers_covering (index : LabelIndex α) (range : Span) :
    index.Answers (index.coveringStretch range) (fun label => (span label).contains range) (index.covering range) := by
  have hhigh := index.upperBound_spec range.start
  have hstart : (index.coveringStretch range).start ≤ index.size := by
    rw [← size_maxStops]
    exact partitionPoint_le_size _ _
  have hfilter : index.covering range = index.ascending.filter fun label => (span label).contains range := by
    apply filter_slice (Nat.le_max_right _ _)
    · exact fun label => not_contains_of_mem_take
    · intro label hmem
      rw [slice_max] at hmem
      simp [Span.contains, hhigh.1 label (mem_of_mem_slice hmem).2]
    · intro label hmem
      have hafter := hhigh.2 label (List.drop_subset_drop_left _ (Nat.le_max_left _ _) hmem)
      rw [← Bool.not_eq_true, Span.contains_iff]
      omega
  exact answers_of_eq_filter (Nat.le_max_right _ _) (Nat.max_le.2 ⟨partitionPoint_le_size _ _, hstart⟩) rfl hfilter

/-- The labels that contain a range are found, none of them before the place at which the scan starts. -/
theorem covering_skips_none (distinct : Bool) (given : List α) (range : Span) :
    let index := ofLabels distinct given
    index.Answers (index.coveringStretch range) (fun label => (span label).contains range) (index.covering range) ∧
      (index.ascending.take (index.coveringStretch range).start).filter (fun label => (span label).contains range) = [] := by
  intro index
  apply And.intro (index.answers_covering range)
  rw [List.filter_eq_nil_iff]
  exact fun label hmem => Bool.eq_false_iff.1 (not_contains_of_mem_take hmem)

end TextAnnotation.LabelIndex
