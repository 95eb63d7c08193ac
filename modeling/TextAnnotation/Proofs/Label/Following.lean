import TextAnnotation.Label.Index

/-!
Binary search stops where its property does, so the labels from a lower bound on are those that start at
the offset or after it.
-/

namespace TextAnnotation

theorem partitionPointIn_spec {holds : α → Bool} {xs : Array α} {lo hi : Nat} (bounded : hi ≤ xs.size)
    (hmono : ∀ i j, (hij : i ≤ j) → (hj : j < xs.size) → holds xs[j] = true → holds xs[i] = true)
    (hbelow : ∀ i, (h : i < xs.size) → i < lo → holds xs[i] = true)
    (habove : ∀ i, (h : i < xs.size) → hi ≤ i → holds xs[i] = false) :
    (∀ i, (h : i < xs.size) → i < partitionPointIn holds xs lo hi bounded → holds xs[i] = true) ∧
      ∀ i, (h : i < xs.size) → partitionPointIn holds xs lo hi bounded ≤ i → holds xs[i] = false := by
  fun_induction partitionPointIn holds xs lo hi bounded with
  | case1 lo hi bounded hlt mid hmid hholds ih =>
    refine ih hmono ?_ habove
    intro i h hi
    exact hmono i mid (by omega) hmid hholds
  | case2 lo hi bounded hlt mid hmid hfails ih =>
    refine ih hmono hbelow ?_
    intro i h hi
    rw [Bool.eq_false_iff]
    intro hholds
    exact hfails (hmono mid i hi h hholds)
  | case3 lo hi bounded hge =>
    exact ⟨hbelow, fun i h hi => habove i h (by omega)⟩

/-- In an array whose elements with a property come first, the partition point parts them from the
others. -/
theorem partitionPoint_spec {holds : α → Bool} {xs : Array α}
    (h : xs.toList.Pairwise fun a b => holds b = true → holds a = true) :
    (∀ a ∈ xs.toList.take (partitionPoint holds xs), holds a = true) ∧
      ∀ a ∈ xs.toList.drop (partitionPoint holds xs), holds a = false := by
  have hmono : ∀ i j, (hij : i ≤ j) → (hj : j < xs.size) → holds xs[j] = true → holds xs[i] = true := by
    intro i j hij hj hholds
    rcases Nat.eq_or_lt_of_le hij with heq | hlt
    · subst heq; exact hholds
    · exact List.pairwise_iff_getElem.1 h i j (by simpa using by omega) (by simpa using hj) hlt hholds
  obtain ⟨hbefore, hafter⟩ := partitionPointIn_spec (Nat.le_refl xs.size) hmono
    (fun i _ hi => absurd hi (Nat.not_lt_zero i)) (fun i h hi => absurd h (Nat.not_lt.2 hi))
  constructor
  · intro a ha
    obtain ⟨i, hi, rfl⟩ := List.mem_take_iff_getElem.1 ha
    simp only [Array.length_toList] at hi
    exact hbefore i (by omega) (Nat.lt_of_lt_of_le hi (Nat.min_le_left _ _))
  · intro a ha
    obtain ⟨i, hi, rfl⟩ := List.mem_drop_iff_getElem.1 ha
    simp only [Array.length_toList] at hi
    exact hafter _ (by omega) (Nat.le_add_right _ _)

theorem partitionPointIn_le {holds : α → Bool} {xs : Array α} {lo hi : Nat} (bounded : hi ≤ xs.size) (hle : lo ≤ hi) :
    partitionPointIn holds xs lo hi bounded ≤ hi := by
  fun_induction partitionPointIn holds xs lo hi bounded with
  | case1 lo hi bounded hlt mid hmid hholds ih => exact ih (by omega)
  | case2 lo hi bounded hlt mid hmid hfails ih => exact Nat.le_trans (ih (by omega)) (by omega)
  | case3 lo hi bounded hge => exact hle

theorem partitionPoint_le_size (holds : α → Bool) (xs : Array α) : partitionPoint holds xs ≤ xs.size :=
  partitionPointIn_le (Nat.le_refl _) (Nat.zero_le _)

theorem partitionPoint_eq_countP {holds : α → Bool} {xs : Array α}
    (h : xs.toList.Pairwise fun a b => holds b = true → holds a = true) :
    partitionPoint holds xs = xs.toList.countP holds := by
  obtain ⟨hbefore, hafter⟩ := partitionPoint_spec h
  have hle : partitionPoint holds xs ≤ xs.toList.length := partitionPoint_le_size holds xs
  have hnone : (xs.toList.drop (partitionPoint holds xs)).countP holds = 0 := by
    rw [List.countP_eq_zero]
    intro a ha
    rw [hafter a ha]
    exact Bool.false_ne_true
  calc partitionPoint holds xs
      = (xs.toList.take (partitionPoint holds xs)).length := (List.length_take_of_le hle).symm
    _ = (xs.toList.take (partitionPoint holds xs)).countP holds := (List.countP_eq_length.2 hbefore).symm
    _ = xs.toList.countP holds := by
      rw [← Nat.add_zero (List.countP _ _), ← hnone, ← List.countP_append, List.take_append_drop]

theorem partitionPoint_mono {holds other : α → Bool} {xs : Array α}
    (h : xs.toList.Pairwise fun a b => holds b = true → holds a = true)
    (hother : xs.toList.Pairwise fun a b => other b = true → other a = true)
    (himp : ∀ a ∈ xs.toList, holds a = true → other a = true) : partitionPoint holds xs ≤ partitionPoint other xs := by
  rw [partitionPoint_eq_countP h, partitionPoint_eq_countP hother]
  exact List.countP_mono_left himp

namespace LabelIndex

variable [Spanned α] {index : LabelIndex α}

open Spanned (span)

theorem length_ascending (index : LabelIndex α) : index.ascending.length = index.size := Array.length_toList

theorem following_eq_drop (offset : Nat) :
    index.following offset = index.ascending.drop (index.lowerBound offset) := by
  simp only [following, slice, size, ascending, Array.toList_extract, List.extract_eq_take_drop]
  rw [List.take_of_length_le]
  simp

/-- A property that earlier spans have whenever later ones do parts the labels of an index in two. -/
theorem partition_spec (index : LabelIndex α) (holds : α → Bool)
    (h : ∀ a b, (span a).le (span b) = true → holds b = true → holds a = true) :
    (∀ label ∈ index.ascending.take (partitionPoint holds index.labels), holds label = true) ∧
      ∀ label ∈ index.ascending.drop (partitionPoint holds index.labels), holds label = false :=
  partitionPoint_spec (index.sorted.imp fun {a b} => h a b)

theorem lowerBound_spec (index : LabelIndex α) (offset : Nat) :
    (∀ label ∈ index.ascending.take (index.lowerBound offset), (span label).start < offset) ∧
      ∀ label ∈ index.ascending.drop (index.lowerBound offset), offset ≤ (span label).start := by
  have h := index.partition_spec (fun label => decide ((span label).start < offset))
    fun a b hle hlt => decide_eq_true (Nat.lt_of_le_of_lt (Span.start_le_of_le hle) (of_decide_eq_true hlt))
  simpa [lowerBound] using h

theorem upperBound_spec (index : LabelIndex α) (offset : Nat) :
    (∀ label ∈ index.ascending.take (index.upperBound offset), (span label).start ≤ offset) ∧
      ∀ label ∈ index.ascending.drop (index.upperBound offset), offset < (span label).start := by
  have h := index.partition_spec (fun label => decide ((span label).start ≤ offset))
    fun a b hle hle' => decide_eq_true (Nat.le_trans (Span.start_le_of_le hle) (of_decide_eq_true hle'))
  simpa [upperBound] using h

theorem le_start_of_mem_following {label : α} {offset : Nat} (h : label ∈ index.following offset) :
    offset ≤ (span label).start := by
  rw [following_eq_drop] at h
  exact (index.lowerBound_spec offset).2 label h

theorem start_lt_of_lt_lowerBound {label : α} {position offset : Nat} (h : index.get? position = some label)
    (hlt : position < index.lowerBound offset) : (span label).start < offset := by
  apply (index.lowerBound_spec offset).1 label
  rw [List.mem_take_iff_getElem]
  obtain ⟨hsize, rfl⟩ := Array.getElem?_eq_some_iff.1 h
  exact ⟨position, Nat.lt_min.2 ⟨hlt, by simpa [ascending] using hsize⟩, by simp [ascending]⟩

theorem start_le_start {a b : α} {i j : Nat} (ha : index.get? i = some a) (hb : index.get? j = some b)
    (hij : i ≤ j) : (span a).start ≤ (span b).start := by
  obtain ⟨hi, rfl⟩ := Array.getElem?_eq_some_iff.1 ha
  obtain ⟨hj, rfl⟩ := Array.getElem?_eq_some_iff.1 hb
  rcases Nat.eq_or_lt_of_le hij with heq | hlt
  · subst heq; exact Nat.le_refl _
  · have hle := List.pairwise_iff_getElem.1 index.sorted i j (by simpa using hi) (by simpa using hj) hlt
    simp only [Array.getElem_toList] at hle
    exact Span.start_le_of_le hle

theorem get?_eq_ascending (position : Nat) : index.get? position = index.ascending[position]? := by
  simp [get?, ascending]

theorem mem_of_get? {label : α} {position : Nat} (h : index.get? position = some label) : label ∈ index.ascending := by
  rw [get?_eq_ascending] at h
  exact List.mem_of_getElem? h

theorem get?_eq_none_of_le {position later : Nat} (h : index.get? position = none) (hle : position ≤ later) :
    index.get? later = none := by
  rw [get?_eq_ascending, List.getElem?_eq_none_iff] at h ⊢
  exact Nat.le_trans h hle

theorem get?_eq_none_of_drop_eq_nil {position : Nat} (h : [] = index.ascending.drop position) :
    index.get? position = none := by
  rw [get?_eq_ascending, ← List.head?_drop, ← h]
  rfl

theorem slice_eq_take (index : LabelIndex α) (start stop : Nat) :
    index.slice start stop = (index.ascending.drop start).take (stop - start) := by
  rw [slice, Array.toList_extract, List.extract_eq_take_drop]
  rfl

theorem slice_eq_take_drop (start count : Nat) :
    index.slice start (start + count) = (index.ascending.drop start).take count := by
  rw [slice_eq_take, Nat.add_sub_cancel_left]

/-- A slice whose bounds would be out of order but for the maximum is empty. -/
theorem slice_max (index : LabelIndex α) (start stop : Nat) :
    index.slice start (max stop start) = index.slice start stop := by
  have hlength : max stop start - start = stop - start := by omega
  rw [slice_eq_take, slice_eq_take, hlength]

theorem mem_of_mem_slice {label : α} {start stop : Nat} (h : label ∈ index.slice start stop) :
    label ∈ index.ascending.drop start ∧ label ∈ index.ascending.take stop := by
  rw [slice_eq_take] at h
  constructor
  · exact List.mem_of_mem_take h
  · rw [← List.drop_take] at h
    exact List.mem_of_mem_drop h

/-- What a slice has of the labels that are asked for is all that the index has of them, if none of them stands before
the slice or after it. -/
theorem filter_slice {start stop : Nat} {keep asked : α → Bool} (hle : start ≤ stop)
    (hbefore : ∀ label ∈ index.ascending.take start, asked label = false)
    (hwithin : ∀ label ∈ index.slice start stop, keep label = asked label)
    (hafter : ∀ label ∈ index.ascending.drop stop, asked label = false) :
    (index.slice start stop).filter keep = index.ascending.filter asked := by
  have hnone {labels : List α} (h : ∀ label ∈ labels, asked label = false) : labels.filter asked = [] := by
    rw [List.filter_eq_nil_iff]
    intro label hmem
    rw [h label hmem]
    exact Bool.false_ne_true
  have hrest : index.ascending.drop stop = (index.ascending.drop start).drop (stop - start) := by
    rw [List.drop_drop, Nat.add_sub_cancel' hle]
  calc (index.slice start stop).filter keep
      = (index.slice start stop).filter asked := List.filter_congr hwithin
    _ = (index.slice start stop ++ index.ascending.drop stop).filter asked := by
      rw [List.filter_append, hnone hafter, List.append_nil]
    _ = (index.ascending.drop start).filter asked := by rw [slice_eq_take, hrest, List.take_append_drop]
    _ = (index.ascending.take start ++ index.ascending.drop start).filter asked := by
      rw [List.filter_append, hnone hbefore, List.nil_append]
    _ = index.ascending.filter asked := by rw [List.take_append_drop]

theorem slice_eq_filter {start stop : Nat} {asked : α → Bool} (hle : start ≤ stop)
    (hbefore : ∀ label ∈ index.ascending.take start, asked label = false)
    (hwithin : ∀ label ∈ index.slice start stop, asked label = true)
    (hafter : ∀ label ∈ index.ascending.drop stop, asked label = false) :
    index.slice start stop = index.ascending.filter asked := by
  have hkept : (index.slice start stop).filter (fun _ => true) = index.ascending.filter asked :=
    filter_slice hle hbefore (fun label hmem => (hwithin label hmem).symm) hafter
  rwa [List.filter_eq_self.2 fun _ _ => rfl] at hkept

theorem of_cons_eq_drop {label : α} {rest : List α} {position : Nat}
    (h : label :: rest = index.ascending.drop position) :
    index.get? position = some label ∧ rest = index.ascending.drop (position + 1) := by
  constructor
  · rw [get?_eq_ascending, ← List.head?_drop, ← h]
    rfl
  · rw [← List.tail_drop, ← h]
    rfl

end LabelIndex

end TextAnnotation
