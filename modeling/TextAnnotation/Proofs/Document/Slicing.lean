import TextAnnotation.Proofs.Label.Tokenizing

/-!
Slices of texts. A span covers a text if both its ends are places in the text, and what a span covers in a part of a text
the same span, moved by where the part begins, covers in the whole.
-/

namespace TextAnnotation

namespace Text

/-- Whether a text has a place at an offset: the beginning, the end or between two characters. -/
def IsPlace (cs : List Char) (offset : Nat) : Prop := ∃ before after, cs = before ++ after ∧ byteLength before = offset

section
variable {before cs after : List Char} {offset : Nat}

theorem eq_nil_of_byteLength_append_le (h : byteLength (before ++ after) ≤ byteLength before) : after = [] := by
  rw [byteLength_append] at h
  cases after with
  | nil => rfl
  | cons c after =>
    have hpos := byteLength_pos (List.cons_ne_nil c after)
    omega

theorem isPlace_iff_splitAt? : IsPlace cs offset ↔ (splitAt? cs offset).isSome := by
  constructor
  · rintro ⟨before, after, rfl, rfl⟩
    rw [splitAt?_byteLength]
    rfl
  · intro h
    obtain ⟨⟨before, after⟩, hsplit⟩ := Option.isSome_iff_exists.1 h
    obtain ⟨hcs, hoffset⟩ := eq_of_splitAt? hsplit
    exact ⟨before, after, hcs, hoffset.symm⟩

theorem IsPlace.sub {start stop : Nat} (hstart : splitAt? cs start = some (before, after)) (hle : start ≤ stop) :
    IsPlace cs stop ↔ IsPlace after (stop - start) := by
  obtain ⟨rfl, rfl⟩ := eq_of_splitAt? hstart
  constructor
  · rintro ⟨left, right, heq, rfl⟩
    rcases List.append_eq_append_iff.1 heq with ⟨middle, rfl, rfl⟩ | ⟨middle, rfl, rfl⟩
    · refine ⟨middle, right, rfl, ?_⟩
      rw [byteLength_append, Nat.add_sub_cancel_left]
    · -- The later place does not lie after the earlier one: they are one.
      have hmiddle := eq_nil_of_byteLength_append_le hle
      exact ⟨[], _, rfl, by simp [hmiddle, byteLength]⟩
  · rintro ⟨left, right, rfl, hlength⟩
    refine ⟨before ++ left, right, (List.append_assoc _ _ _).symm, ?_⟩
    rw [byteLength_append]
    omega

theorem splitAt?_append_left (before cs : List Char) (offset : Nat) :
    splitAt? (before ++ cs) (byteLength before + offset) =
      (splitAt? cs offset).map fun (left, right) => (before ++ left, right) := by
  cases hsplit : splitAt? cs offset with
  | some parts =>
    obtain ⟨left, right⟩ := parts
    obtain ⟨rfl, rfl⟩ := eq_of_splitAt? hsplit
    rw [← List.append_assoc, ← byteLength_append, splitAt?_byteLength]
    rfl
  | none =>
    have hplace : ¬ IsPlace cs offset := by rw [isPlace_iff_splitAt?, hsplit]; exact nofun
    have hmoved : IsPlace (before ++ cs) (byteLength before + offset) ↔ _ :=
      IsPlace.sub (splitAt?_byteLength before cs) (Nat.le_add_right _ offset)
    rw [Nat.add_sub_cancel_left] at hmoved
    rw [← hmoved, isPlace_iff_splitAt?, Bool.not_eq_true, Option.isSome_eq_false_iff, Option.isNone_iff_eq_none]
      at hplace
    rw [hplace]
    rfl

theorem splitAt?_append_right (cs after : List Char) (hle : offset ≤ byteLength cs) :
    splitAt? (cs ++ after) offset = (splitAt? cs offset).map fun (left, right) => (left, right ++ after) := by
  cases hsplit : splitAt? cs offset with
  | some parts =>
    obtain ⟨left, right⟩ := parts
    obtain ⟨rfl, rfl⟩ := eq_of_splitAt? hsplit
    rw [List.append_assoc, splitAt?_byteLength]
    rfl
  | none =>
    cases hwhole : splitAt? (cs ++ after) offset with
    | none => rfl
    | some parts =>
      obtain ⟨left, right⟩ := parts
      obtain ⟨heq, rfl⟩ := eq_of_splitAt? hwhole
      rcases List.append_eq_append_iff.1 heq with ⟨middle, rfl, rfl⟩ | ⟨middle, rfl, rfl⟩
      · obtain rfl := eq_nil_of_byteLength_append_le hle
        have hend := splitAt?_byteLength cs []
        simp only [List.append_nil] at hend hsplit
        rw [hend] at hsplit
        cases hsplit
      · rw [splitAt?_byteLength] at hsplit
        cases hsplit

theorem slice?_isSome_iff {span : Span} :
    (slice? cs span).isSome ↔ span.start ≤ span.stop ∧ IsPlace cs span.start ∧ IsPlace cs span.stop := by
  by_cases hle : span.start ≤ span.stop
  · cases hstart : splitAt? cs span.start with
    | none =>
      have hplace : ¬ IsPlace cs span.start := by rw [isPlace_iff_splitAt?, hstart]; exact nofun
      simp [slice?, hle, hstart, hplace]
    | some parts =>
      obtain ⟨before, after⟩ := parts
      have hplace : IsPlace cs span.start := by rw [isPlace_iff_splitAt?, hstart]; rfl
      have hlater : IsPlace after (span.stop - span.start) ↔ _ := isPlace_iff_splitAt?
      rw [IsPlace.sub hstart hle, hlater]
      cases hstop : splitAt? after (span.stop - span.start) <;> simp [slice?, hle, hstart, hstop, hplace]
  · simp [slice?, hle]

/-- What a span covers in a part of a text is what the span covers in the text, once it is moved to where the part
begins. -/
theorem slice?_part (before cs after : List Char) {span : Span} (hle : span.start ≤ span.stop)
    (hwithin : span.stop ≤ byteLength cs) :
    slice? (before ++ (cs ++ after)) ⟨byteLength before + span.start, byteLength before + span.stop⟩ =
      slice? cs span := by
  have hlength : byteLength before + span.stop - (byteLength before + span.start) = span.stop - span.start := by omega
  simp only [slice?, if_pos hle, if_pos (Nat.add_le_add_left hle _), hlength, splitAt?_append_left,
    splitAt?_append_right cs after (Nat.le_trans hle hwithin)]
  cases hstart : splitAt? cs span.start with
  | none => rfl
  | some parts =>
    obtain ⟨left, right⟩ := parts
    obtain ⟨rfl, hoffset⟩ := eq_of_splitAt? hstart
    have hright : span.stop - span.start ≤ byteLength right := by
      rw [byteLength_append] at hwithin
      omega
    simp only [Option.map_some, Option.bind_eq_bind, Option.bind_some, splitAt?_append_right right after hright]
    cases splitAt? right (span.stop - span.start) <;> rfl

/-- A slice stands where its span says. -/
theorem eq_append_of_slice? {span : Span} {part : List Char} (h : slice? cs span = some part) :
    ∃ before after, cs = before ++ (part ++ after) ∧ span.start = byteLength before ∧
      span.stop = span.start + byteLength part := by
  rw [slice?] at h
  split at h
  · rename_i hle
    obtain ⟨⟨before, rest⟩, hstart, h⟩ := Option.bind_eq_some_iff.1 h
    obtain ⟨⟨inner, after⟩, hstop, h⟩ := Option.bind_eq_some_iff.1 h
    obtain rfl := Option.some.inj h
    obtain ⟨rfl, hbefore⟩ := eq_of_splitAt? hstart
    obtain ⟨rfl, hpart⟩ := eq_of_splitAt? hstop
    exact ⟨before, after, rfl, hbefore, by omega⟩
  · cases h

end

end Text

end TextAnnotation
