import Mathlib.Tactic.SplitIfs
import TextAnnotation.Proofs.Label.Tokenizing

/-!
When a token is said to have white space after it. It is if the whole segment after it is blank, so not if something that
is not blank belongs to the white space that follows it: a mark that attaches to a space, or a letter after a narrow
no-break space.
-/

namespace TextAnnotation

namespace Text

/-- Whether a character of a second class belongs to the segment that a blank character of the first class begins. A line
feed after a carriage return is left out, since nothing belongs to the two. -/
def WordClass.joinsBlank : WordClass → WordClass → Bool
  | .carriageReturn, _ | .lineFeed, _ | .newline, _ => false
  | .space, next => next.attaches || next == .space
  | .connector, next =>
    next.attaches || next == .connector || next == .letter || next == .hebrewLetter || next == .numeric ||
      next == .katakana
  | _, next => next.attaches

/-- Whether a character that is not blank belongs to the segment that a blank character of class `first` begins, directly
or after more blank ones that do. -/
def clings (first : WordClass) : List Char → Bool
  | [] => false
  | c :: rest => first.joinsBlank (.ofChar c) && (!isBlank c || clings first rest)

/-- The classes that blank characters have. -/
def blankClasses : List WordClass := [.carriageReturn, .lineFeed, .newline, .space, .connector, .other]

/-- The code points of blank characters. -/
def blankNumbers : List Nat :=
  [0x09, 0x0A, 0x0B, 0x0C, 0x0D, 0x20, 0x85, 0xA0, 0x1680, 0x2000, 0x2001, 0x2002, 0x2003, 0x2004, 0x2005, 0x2006,
    0x2007, 0x2008, 0x2009, 0x200A, 0x2028, 0x2029, 0x202F, 0x205F, 0x3000]

theorem toNat_mem_of_isBlank {c : Char} (h : isBlank c = true) : c.toNat ∈ blankNumbers := by
  simp only [isBlank, Bool.or_eq_true, Bool.and_eq_true, decide_eq_true_eq, beq_iff_eq] at h
  simp only [blankNumbers, List.mem_cons, List.not_mem_nil, or_false]
  omega

theorem ofChar_mem_of_isBlank {c : Char} (h : isBlank c = true) : WordClass.ofChar c ∈ blankClasses := by
  have hclasses : ∀ n ∈ blankNumbers, WordClass.ofChar (Char.ofNat n) ∈ blankClasses := by decide +kernel
  have hclass := hclasses _ (toNat_mem_of_isBlank h)
  rwa [Char.ofNat_toNat] at hclass

theorem isBlank_of_lineFeed {c : Char} (h : WordClass.ofChar c = .lineFeed) : isBlank c = true := by
  by_cases hnumber : c.toNat = 0x0A
  · simp [isBlank, hnumber]
  · -- Every other test that finds the class of a character gives another class.
    have hite {p : Prop} [Decidable p] {k l : WordClass} (hk : k ≠ .lineFeed) (hl : l ≠ .lineFeed) :
        (if p then k else l) ≠ .lineFeed := by
      split <;> assumption
    refine absurd h ?_
    unfold WordClass.ofChar
    dsimp only
    refine hite (by decide) ?_
    rw [if_neg (by simpa using hnumber)]
    repeat refine hite (by decide) ?_
    decide

theorem attaches_eq_false {k : WordClass} (h : k ∈ blankClasses) : k.attaches = false := by
  simp only [blankClasses, List.mem_cons, List.not_mem_nil, or_false] at h
  rcases h with rfl | rfl | rfl | rfl | rfl | rfl <;> rfl

section

variable {first : WordClass} {state : SegmentState}

theorem isTentative_ofFirst (hstate : SegmentState.ofFirst first = some state) : state.isTentative = false := by
  cases first <;> cases hstate <;> rfl

theorem joinsBlank_eq (hfirst : first ∈ blankClasses) (hstate : SegmentState.ofFirst first = some state)
    (next : WordClass) : first.joinsBlank next = (next.attaches || (state.next? false next).isSome) := by
  simp only [blankClasses, List.mem_cons, List.not_mem_nil, or_false] at hfirst
  rcases hfirst with rfl | rfl | rfl | rfl | rfl | rfl <;> cases hstate <;> cases next <;> rfl

theorem next?_of_blank (hfirst : first ∈ blankClasses) (hstate : SegmentState.ofFirst first = some state)
    {next : WordClass} {after : SegmentState} (hnext : state.next? false next = some after) :
    after.isTentative = false ∧ (next ∈ blankClasses → after = state) := by
  simp only [blankClasses, List.mem_cons, List.not_mem_nil, or_false] at hfirst
  rcases hfirst with rfl | rfl | rfl | rfl | rfl | rfl <;> cases hstate <;> cases next <;> cases hnext <;>
    exact ⟨rfl, by decide⟩

theorem le_segmentRest {afterJoiner marked : Bool} {least taken kept : Nat} {cs : List Char}
    (htaken : least ≤ taken) (hkept : state.isTentative = true → least ≤ kept) :
    least ≤ segmentRest state afterJoiner marked taken kept cs := by
  fun_induction segmentRest state afterJoiner marked taken kept cs with
  | case1 _ _ _ _ _ htentative => exact hkept htentative
  | case2 => exact htaken
  | case3 _ _ _ _ _ _ _ _ _ ih => exact ih (Nat.le_succ_of_le htaken) hkept
  | case4 _ _ _ _ _ _ _ _ _ _ ih => exact ih (Nat.le_succ_of_le htaken) (by simp [SegmentState.isTentative])
  | case5 _ _ _ _ _ _ _ _ _ _ next _ ih =>
    refine ih (Nat.le_succ_of_le htaken) fun htentative => ?_
    rwa [if_pos htentative]
  | case6 _ _ _ _ _ _ _ _ _ _ _ htentative => exact hkept htentative
  | case7 => exact htaken

variable {c : Char} {taken kept : Nat} {cs : List Char}

theorem segmentRest_of_not_joinsBlank (hfirst : first ∈ blankClasses)
    (hstate : SegmentState.ofFirst first = some state) (hjoins : first.joinsBlank (.ofChar c) = false) :
    segmentRest state false false taken kept (c :: cs) = taken := by
  rw [joinsBlank_eq hfirst hstate, Bool.or_eq_false_iff, Option.isSome_eq_false_iff, Option.isNone_iff_eq_none]
    at hjoins
  simp [segmentRest, hjoins, isTentative_ofFirst hstate]

theorem lt_segmentRest_of_joinsBlank (hfirst : first ∈ blankClasses)
    (hstate : SegmentState.ofFirst first = some state) (hjoins : first.joinsBlank (.ofChar c) = true) :
    taken < segmentRest state false false taken kept (c :: cs) := by
  rw [joinsBlank_eq hfirst hstate, Bool.or_eq_true] at hjoins
  rw [segmentRest]
  split
  · exact le_segmentRest (Nat.le_refl _) (by simp [isTentative_ofFirst hstate])
  · rename_i hattaches
    obtain ⟨next, hnext⟩ := Option.isSome_iff_exists.1 (hjoins.resolve_left hattaches)
    rw [Bool.false_and, if_neg Bool.false_ne_true, hnext]
    exact le_segmentRest (Nat.le_refl _) (by simp [(next?_of_blank hfirst hstate hnext).1])

theorem segmentRest_of_isBlank (hfirst : first ∈ blankClasses) (hstate : SegmentState.ofFirst first = some state)
    (hblank : isBlank c = true) (hjoins : first.joinsBlank (.ofChar c) = true) :
    segmentRest state false false taken kept (c :: cs) = segmentRest state false false (taken + 1) kept cs := by
  have hclass := ofChar_mem_of_isBlank hblank
  rw [joinsBlank_eq hfirst hstate, attaches_eq_false hclass, Bool.false_or] at hjoins
  obtain ⟨next, hnext⟩ := Option.isSome_iff_exists.1 hjoins
  obtain rfl := (next?_of_blank hfirst hstate hnext).2 hclass
  simp [segmentRest, attaches_eq_false hclass, hnext, isTentative_ofFirst hstate]

/-- What a segment that begins with a blank takes after it is blank unless something clings to the blank. -/
theorem exists_segmentRest_eq_add (hfirst : first ∈ blankClasses)
    (hstate : SegmentState.ofFirst first = some state) :
    ∃ more, segmentRest state false false taken kept cs = taken + more ∧
      (cs.take more).all isBlank = !clings first cs := by
  induction cs generalizing taken with
  | nil => exact ⟨0, by simp [segmentRest, isTentative_ofFirst hstate], rfl⟩
  | cons c cs ih =>
    cases hjoins : first.joinsBlank (.ofChar c) with
    | false => exact ⟨0, segmentRest_of_not_joinsBlank hfirst hstate hjoins, by simp [clings, hjoins]⟩
    | true =>
      cases hblank : isBlank c with
      | true =>
        obtain ⟨more, hmore, hall⟩ := @ih (taken + 1)
        refine ⟨more + 1, ?_, ?_⟩
        · rw [segmentRest_of_isBlank hfirst hstate hblank hjoins, hmore, Nat.add_right_comm, Nat.add_assoc]
        · simp [clings, hjoins, hblank, hall]
      | false =>
        obtain ⟨more, hmore⟩ := Nat.exists_eq_add_of_lt (lt_segmentRest_of_joinsBlank hfirst hstate hjoins)
        exact ⟨more + 1, hmore, by simp [clings, hjoins, hblank]⟩

end

theorem segmentAfter_of_ofFirst_eq_none {c : Char} {cs : List Char}
    (hnone : SegmentState.ofFirst (.ofChar c) = none) : (cs.take (segmentAfter c cs)).all isBlank = true := by
  rw [segmentAfter, hnone]
  dsimp only
  split
  · rename_i hfeed
    cases cs with
    | nil => rfl
    | cons next cs =>
      simp only [List.head?_cons, Option.map_some, Bool.and_eq_true, beq_iff_eq, Option.some.injEq] at hfeed
      simp [isBlank_of_lineFeed hfeed.2]
  · rfl

theorem clings_of_ofFirst_eq_none {first : WordClass} (hnone : SegmentState.ofFirst first = none)
    (cs : List Char) : clings first cs = false := by
  have hjoins (next : WordClass) : first.joinsBlank next = false := by
    cases first <;> first | rfl | cases hnone
  cases cs with
  | nil => rfl
  | cons c cs => rw [clings, hjoins, Bool.false_and]

theorem all_isBlank_segmentAfter {c : Char} (hblank : isBlank c = true) (cs : List Char) :
    (cs.take (segmentAfter c cs)).all isBlank = !clings (.ofChar c) cs := by
  have hclass := ofChar_mem_of_isBlank hblank
  cases hstate : SegmentState.ofFirst (.ofChar c) with
  | none => rw [segmentAfter_of_ofFirst_eq_none hstate, clings_of_ofFirst_eq_none hstate, Bool.not_false]
  | some state =>
    have hjoiner : (WordClass.ofChar c == .joiner) = false := by
      rw [beq_eq_false_iff_ne]
      rintro hjoiner
      simp [hjoiner, blankClasses] at hclass
    obtain ⟨more, hmore, hall⟩ := exists_segmentRest_eq_add hclass hstate
    rw [segmentAfter, hstate]
    simp only
    rw [hjoiner, hmore, Nat.zero_add, hall]

/-- Whether a text begins with a blank to which nothing clings. -/
def clearsFirst : List Char → Bool
  | [] => false
  | c :: cs => isBlank c && !clings (.ofChar c) cs

theorem clearsFirst_iff {cs : List Char} :
    clearsFirst cs = true ↔ ∃ c rest, cs = c :: rest ∧ isBlank c = true ∧ clings (.ofChar c) rest = false := by
  constructor
  · intro h
    cases cs with
    | nil => cases h
    | cons c rest => exact ⟨c, rest, rfl, by simpa [clearsFirst] using h⟩
  · rintro ⟨c, rest, rfl, hblank, hclings⟩
    rw [clearsFirst, hblank, hclings, Bool.not_false, Bool.and_true]

theorem clearsFirst_iff_isBlank {cs : List Char} :
    (clearsFirst cs = true ↔ cs.head?.any isBlank = true) ↔
      ∀ c rest, cs = c :: rest → isBlank c = true → clings (.ofChar c) rest = false := by
  constructor
  · rintro h c rest rfl hblank
    have hclears : clearsFirst (c :: rest) = true := h.2 hblank
    simpa [clearsFirst, hblank] using hclears
  · intro h
    cases cs with
    | nil => rfl
    | cons c rest =>
      cases hblank : isBlank c with
      | false => simp [clearsFirst, hblank]
      | true => simp [clearsFirst, hblank, h c rest rfl hblank]

theorem head?_segments_isBlank (cs : List Char) :
    (segments cs).head?.any (·.all isBlank) = clearsFirst cs := by
  cases cs with
  | nil => rw [segments]; rfl
  | cons c cs =>
    rw [segments, List.head?_cons, Option.any_some, List.all_cons, clearsFirst]
    cases hblank : isBlank c with
    | false => rfl
    | true => rw [all_isBlank_segmentAfter hblank]

theorem segments_of_append {cs : List Char} {before after : List (List Char)} (h : segments cs = before ++ after) :
    after = segments after.flatten := by
  fun_induction segments cs generalizing before with
  | case1 =>
    obtain ⟨rfl, rfl⟩ := List.append_eq_nil_iff.1 h.symm
    rw [List.flatten_nil, segments]
  | case2 c cs ih =>
    cases before with
    | nil =>
      rw [List.nil_append] at h
      rw [← h, List.flatten_cons, flatten_segments, List.cons_append, List.take_append_drop, segments]
    | cons first before => exact ih (List.cons.inj h).2

end Text

open Text (byteLength clearsFirst clings isBlank segments)

namespace Token

theorem exists_of_mem_ofSegments {offset : Nat} {pieces : List (List Char)} {token : Token}
    (h : token ∈ ofSegments offset pieces) :
    ∃ before after, pieces = before ++ after ∧ token.span.stop = offset + byteLength before.flatten ∧
      token.spaceAfter = after.head?.any (·.all isBlank) := by
  induction pieces generalizing offset with
  | nil => cases h
  | cons segment rest ih =>
    have hlater (h : token ∈ ofSegments (offset + byteLength segment) rest) :
        ∃ before after, segment :: rest = before ++ after ∧
          token.span.stop = offset + byteLength before.flatten ∧
          token.spaceAfter = after.head?.any (·.all isBlank) := by
      obtain ⟨before, after, rfl, hstop, hspace⟩ := ih h
      refine ⟨segment :: before, after, rfl, ?_, hspace⟩
      rw [hstop, List.flatten_cons, Text.byteLength_append, Nat.add_assoc]
    rw [ofSegments] at h
    split at h
    · exact hlater h
    · rcases List.mem_cons.1 h with rfl | h
      · exact ⟨[segment], rest, rfl, by simp, rfl⟩
      · exact hlater h

theorem exists_spaceAfter_eq {text : String} {token : Token} (h : token ∈ tokenize text) :
    ∃ before after, Text.splitAt? text.toList token.span.stop = some (before, after) ∧
      token.spaceAfter = clearsFirst after := by
  obtain ⟨before, after, hcut, hstop, hspace⟩ := exists_of_mem_ofSegments h
  have htext : text.toList = before.flatten ++ after.flatten := by
    rw [← List.flatten_append, ← hcut, Text.flatten_segments]
  refine ⟨before.flatten, after.flatten, ?_, ?_⟩
  · rw [htext, hstop, Nat.zero_add, Text.splitAt?_byteLength]
  · rw [hspace, ← Text.head?_segments_isBlank, ← Text.segments_of_append hcut]

/-- A token is said to have white space after it if and only if a blank to which nothing clings follows it. So this tells
whether a blank follows except where something that is not blank clings to that blank. -/
theorem tells_space_iff_unclung {text : String} {token : Token} (h : token ∈ tokenize text) :
    ∃ before after, Text.splitAt? text.toList token.span.stop = some (before, after) ∧
      (token.spaceAfter = true ↔
        ∃ c rest, after = c :: rest ∧ isBlank c = true ∧ clings (.ofChar c) rest = false) ∧
      ((token.spaceAfter = true ↔ after.head?.any isBlank = true) ↔
        ∀ c rest, after = c :: rest → isBlank c = true → clings (.ofChar c) rest = false) := by
  obtain ⟨before, after, hsplit, hspace⟩ := exists_spaceAfter_eq h
  rw [hspace]
  exact ⟨before, after, hsplit, Text.clearsFirst_iff, Text.clearsFirst_iff_isBlank⟩

/-- After "+" stands a narrow no-break space, to which the digit clings. -/
theorem tells_space_iff_unclung_dose :
    (⟨⟨0, 1⟩, "+", false⟩ : Token) ∈ tokenize "+\u202F5 mg" ∧
      ∃ before after, Text.splitAt? "+\u202F5 mg".toList 1 = some (before, after) ∧
        (false = true ↔ ∃ c rest, after = c :: rest ∧ isBlank c = true ∧ clings (.ofChar c) rest = false) ∧
        ((false = true ↔ after.head?.any isBlank = true) ↔
          ∀ c rest, after = c :: rest → isBlank c = true → clings (.ofChar c) rest = false) := by
  have hmem : (⟨⟨0, 1⟩, "+", false⟩ : Token) ∈ tokenize "+\u202F5 mg" := by decide +kernel
  exact ⟨hmem, tells_space_iff_unclung hmem⟩

/-- A quotation mark that a narrow no-break space follows, to which the quoted word clings. -/
theorem not_always_tells_space :
    ¬∀ (text : String) (token : Token), token ∈ tokenize text →
      ∀ before after, Text.splitAt? text.toList token.span.stop = some (before, after) →
        (token.spaceAfter = true ↔ after.head?.any isBlank = true) := by
  intro h
  have hmem : (⟨⟨0, 2⟩, "«", false⟩ : Token) ∈ tokenize "«\u202Foui\u202F»" := by decide +kernel
  have hsplit : Text.splitAt? "«\u202Foui\u202F»".toList 2 =
      some (['«'], ['\u202F', 'o', 'u', 'i', '\u202F', '»']) := by decide
  have hspace := h _ _ hmem _ _ hsplit
  exact absurd hspace (by decide)

end Token

end TextAnnotation
