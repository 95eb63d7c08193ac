import TextAnnotation.Proofs.Phrase.Fitting

/-!
What a scan for phrases finds. It takes the longest phrase at the leftmost place where one fits and goes on after it, and
no other list of matches leaves nothing out in this way.
-/

namespace TextAnnotation.PhraseDetector

variable {σ τ : Type}

/-- Matches from a place on, from left to right. Each is the longest at its place, they do not overlap, and no phrase fits
at a place that lies in none of them. -/
structure LeftmostLongest (accepts : σ → τ → Bool) (phrases : List (List σ)) (tokens : List τ) (start : Nat)
    (found : List (Nat × Nat)) : Prop where
  from_start : ∀ taken ∈ found, start ≤ taken.1
  in_order : ∀ taken ∈ found, taken.1 ≤ taken.2
  apart : found.Pairwise fun earlier later => earlier.2 < later.1
  longest : ∀ taken ∈ found, ∃ n, IsGreatest (matchLengths accepts phrases tokens taken.1) n ∧ taken.2 = taken.1 + n - 1
  none_missed : ∀ place, start ≤ place → (∀ taken ∈ found, ¬ (taken.1 ≤ place ∧ place ≤ taken.2)) →
    matchLengths accepts phrases tokens place = ∅

variable {accepts : σ → τ → Bool} {phrases : List (List σ)} {tokens : List τ} {start : Nat} {found : List (Nat × Nat)}

theorem matchLengths_eq_empty_of_length_le (h : tokens.length ≤ start) :
    matchLengths accepts phrases tokens start = ∅ := by
  rw [Set.eq_empty_iff_forall_notMem]
  rintro n ⟨hn, phrase, _, hlength, hfits⟩
  cases phrase with
  | nil =>
    cases hlength
    exact Nat.not_succ_le_zero 0 hn
  | cons word rest =>
    obtain ⟨token, htoken, _⟩ := hfits 0 word rfl
    rw [Nat.add_zero, List.getElem?_eq_none h] at htoken
    cases htoken

/-- Which phrases have the length of a match depends on the phrases alone, and on those only that have words. -/
theorem matchLengths_congr {others : List (List σ)} (h : ∀ phrase, phrase ≠ [] → (phrase ∈ others ↔ phrase ∈ phrases))
    (tokens : List τ) (start : Nat) :
    matchLengths accepts others tokens start = matchLengths accepts phrases tokens start := by
  ext n
  apply and_congr_right
  intro hn
  apply exists_congr
  intro phrase
  by_cases hphrase : phrase = []
  · subst hphrase
    constructor <;>
    · rintro ⟨_, rfl, _⟩
      exact absurd hn (Nat.not_succ_le_zero 0)
  · rw [h phrase hphrase]

namespace LeftmostLongest

theorem matchLengths_ne_empty (h : LeftmostLongest accepts phrases tokens start found) {taken : Nat × Nat}
    (hmem : taken ∈ found) : matchLengths accepts phrases tokens taken.1 ≠ ∅ := by
  obtain ⟨n, hn, _⟩ := h.longest taken hmem
  exact Set.Nonempty.ne_empty ⟨n, hn.1⟩

theorem iff_nil (hend : tokens.length ≤ start) : LeftmostLongest accepts phrases tokens start found ↔ found = [] := by
  constructor
  · intro h
    rw [List.eq_nil_iff_forall_not_mem]
    intro taken hmem
    have hstart := h.from_start taken hmem
    exact h.matchLengths_ne_empty hmem (matchLengths_eq_empty_of_length_le (Nat.le_trans hend hstart))
  · rintro rfl
    refine ⟨nofun, nofun, .nil, nofun, fun place hplace _ => ?_⟩
    exact matchLengths_eq_empty_of_length_le (Nat.le_trans hend hplace)

theorem iff_skip (hnone : matchLengths accepts phrases tokens start = ∅) :
    LeftmostLongest accepts phrases tokens start found ↔ LeftmostLongest accepts phrases tokens (start + 1) found := by
  constructor
  · intro h
    refine ⟨fun taken hmem => ?_, h.in_order, h.apart, h.longest, fun place hplace => ?_⟩
    · apply Nat.lt_of_le_of_ne (h.from_start taken hmem)
      rintro rfl
      exact h.matchLengths_ne_empty hmem hnone
    · exact h.none_missed place (Nat.le_of_succ_le hplace)
  · intro h
    refine ⟨fun taken hmem => ?_, h.in_order, h.apart, h.longest, fun place hplace hfree => ?_⟩
    · exact Nat.le_of_succ_le (h.from_start taken hmem)
    · rcases Nat.eq_or_lt_of_le hplace with rfl | hlater
      · exact hnone
      · exact h.none_missed place hlater hfree

theorem begins_at_start {first last : Nat} {rest : List (Nat × Nat)}
    (h : LeftmostLongest accepts phrases tokens start ((first, last) :: rest))
    (hfits : matchLengths accepts phrases tokens start ≠ ∅) : first = start := by
  have hfrom : start ≤ first := h.from_start _ List.mem_cons_self
  have horder : first ≤ last := h.in_order _ List.mem_cons_self
  by_contra hne
  apply hfits
  apply h.none_missed start (Nat.le_refl start)
  rw [List.forall_mem_cons]
  constructor
  · dsimp only
    omega
  · intro later hmem
    have hlater := (List.pairwise_cons.1 h.apart).1 later hmem
    dsimp only at hlater
    omega

theorem tail {last : Nat} {rest : List (Nat × Nat)}
    (h : LeftmostLongest accepts phrases tokens start ((start, last) :: rest)) :
    LeftmostLongest accepts phrases tokens (last + 1) rest := by
  obtain ⟨hafter, hapart⟩ := List.pairwise_cons.1 h.apart
  have horder : start ≤ last := h.in_order _ List.mem_cons_self
  refine ⟨hafter, (List.forall_mem_cons.1 h.in_order).2, hapart, (List.forall_mem_cons.1 h.longest).2,
    fun place hplace hfree => ?_⟩
  apply h.none_missed place (by omega)
  rw [List.forall_mem_cons]
  refine ⟨?_, hfree⟩
  dsimp only
  omega

theorem cons {last : Nat} {rest : List (Nat × Nat)}
    (hn : IsGreatest (matchLengths accepts phrases tokens start) (last + 1 - start)) (hle : start ≤ last)
    (h : LeftmostLongest accepts phrases tokens (last + 1) rest) :
    LeftmostLongest accepts phrases tokens start ((start, last) :: rest) where
  from_start := by
    rw [List.forall_mem_cons]
    refine ⟨Nat.le_refl start, fun later hmem => ?_⟩
    exact Nat.le_trans (Nat.le_succ_of_le hle) (h.from_start later hmem)
  in_order := List.forall_mem_cons.2 ⟨hle, h.in_order⟩
  apart := .cons h.from_start h.apart
  longest := by
    refine List.forall_mem_cons.2 ⟨⟨_, hn, ?_⟩, h.longest⟩
    dsimp only
    omega
  none_missed place hplace hfree := by
    obtain ⟨hfirst, hrest⟩ := List.forall_mem_cons.1 hfree
    dsimp only at hfirst
    exact h.none_missed place (by omega) hrest

/-- Where a phrase fits, only a list that begins there leaves nothing out. -/
theorem iff_take {reach : Nat} (hreach : IsGreatest (matchLengths accepts phrases tokens start) (reach + 1)) :
    LeftmostLongest accepts phrases tokens start found ↔
      ∃ rest, found = (start, start + reach) :: rest ∧
        LeftmostLongest accepts phrases tokens (start + reach + 1) rest := by
  have hfits : matchLengths accepts phrases tokens start ≠ ∅ := Set.Nonempty.ne_empty ⟨_, hreach.1⟩
  constructor
  · intro h
    cases found with
    | nil => exact absurd (h.none_missed start (Nat.le_refl start) nofun) hfits
    | cons taken rest =>
      obtain ⟨first, last⟩ := taken
      obtain rfl := h.begins_at_start hfits
      obtain ⟨m, hm, hlast⟩ := h.longest _ List.mem_cons_self
      obtain rfl : m = reach + 1 := hm.unique hreach
      obtain rfl : last = first + reach := hlast
      exact ⟨rest, rfl, h.tail⟩
  · rintro ⟨rest, rfl, h⟩
    apply cons _ (Nat.le_add_right start reach) h
    rwa [Nat.add_assoc, Nat.add_sub_cancel_left]

end LeftmostLongest

variable [DecidableEq σ]

theorem longestMatch?_drop_eq_some_iff {reach : Nat} :
    (ofSequences phrases accepts).longestMatch? (tokens.drop start) = some reach ↔
      IsGreatest (matchLengths accepts phrases tokens start) (reach + 1) := by
  rw [isGreatest_matchLengths_succ_iff, longestMatch?_eq_some_iff]

theorem longestMatch?_drop_eq_none_iff :
    (ofSequences phrases accepts).longestMatch? (tokens.drop start) = none ↔
      matchLengths accepts phrases tokens start = ∅ := by
  rw [← longestMatchAt_eq_none_iff, longestMatchAt, Option.map_eq_none_iff]

theorem detectFrom_eq_iff {rest : List τ} (hrest : rest = tokens.drop start) :
    (ofSequences phrases accepts).detectFrom start rest = found ↔
      LeftmostLongest accepts phrases tokens start found := by
  fun_induction (ofSequences phrases accepts).detectFrom start rest generalizing found with
  | case1 start =>
    rw [LeftmostLongest.iff_nil (List.drop_eq_nil_iff.1 hrest.symm), eq_comm]
  | case2 start token rest reach hlongest ih =>
    rw [hrest, longestMatch?_drop_eq_some_iff] at hlongest
    have hnext : rest.drop reach = tokens.drop (start + reach + 1) := by
      rw [Nat.add_assoc, ← List.drop_drop, ← hrest, List.drop_succ_cons]
    rw [LeftmostLongest.iff_take hlongest]
    constructor
    · rintro rfl
      exact ⟨_, rfl, (ih hnext).1 rfl⟩
    · rintro ⟨others, rfl, h⟩
      rw [(ih hnext).2 h]
  | case3 start token rest hnone ih =>
    rw [hrest, longestMatch?_drop_eq_none_iff] at hnone
    have hnext : rest = tokens.drop (start + 1) := by
      rw [← List.drop_drop, ← hrest, List.drop_succ_cons, List.drop_zero]
    rw [LeftmostLongest.iff_skip hnone, ih hnext]

theorem detectAll_eq_iff :
    (ofSequences phrases accepts).detectAll tokens = found ↔ LeftmostLongest accepts phrases tokens 0 found :=
  detectFrom_eq_iff rfl

theorem leftmostLongest_detectAll (accepts : σ → τ → Bool) (phrases : List (List σ)) (tokens : List τ) :
    LeftmostLongest accepts phrases tokens 0 ((ofSequences phrases accepts).detectAll tokens) :=
  detectAll_eq_iff.1 rfl

theorem detectAll_congr {others : List (List σ)} (h : ∀ phrase, phrase ≠ [] → (phrase ∈ others ↔ phrase ∈ phrases))
    (accepts : σ → τ → Bool) (tokens : List τ) :
    (ofSequences others accepts).detectAll tokens = (ofSequences phrases accepts).detectAll tokens := by
  rw [detectAll_eq_iff]
  obtain ⟨hfrom, horder, hapart, hlongest, hnone⟩ := leftmostLongest_detectAll accepts phrases tokens
  constructor
  case from_start => exact hfrom
  case in_order => exact horder
  case apart => exact hapart
  case longest =>
    intro taken hmem
    rw [matchLengths_congr h]
    exact hlongest taken hmem
  case none_missed =>
    intro place hplace hfree
    rw [matchLengths_congr h]
    exact hnone place hplace hfree

/-- The matches of a dictionary are the leftmost longest ones and no others are, however its phrases are ordered or
repeated. -/
theorem detects_leftmost_longest (accepts : σ → τ → Bool) (phrases : List (List σ)) (tokens : List τ) :
    (∀ found, (ofSequences phrases accepts).detectAll tokens = found ↔
        LeftmostLongest accepts phrases tokens 0 found) ∧
      ∀ others : List (List σ), (∀ phrase, phrase ≠ [] → (phrase ∈ others ↔ phrase ∈ phrases)) →
        (ofSequences others accepts).detectAll tokens = (ofSequences phrases accepts).detectAll tokens :=
  ⟨fun _ => detectAll_eq_iff, fun _ h => detectAll_congr h accepts tokens⟩

/-- Phrases of which one overlaps another and one begins another, and the same phrases in another order. -/
def rounds : List (List Char) := [['a', 'b'], ['b', 'c'], ['a', 'b', 'b', 'd']]

def roundsAgain : List (List Char) := [['a', 'b', 'b', 'd'], ['b', 'c'], [], ['a', 'b'], ['b', 'c']]

theorem detects_leftmost_longest_rounds :
    let sung := ['a', 'b', 'c', 'a', 'b', 'b', 'c']
    (∀ phrase, phrase ≠ [] → (phrase ∈ roundsAgain ↔ phrase ∈ rounds)) ∧
      (ofSequences roundsAgain (· == ·)).detectAll sung = (ofSequences rounds (· == ·)).detectAll sung ∧
      (ofSequences rounds (· == ·)).detectAll sung = [(0, 1), (3, 4), (5, 6)] := by
  intro sung
  have hsame : ∀ phrase, phrase ≠ [] → (phrase ∈ roundsAgain ↔ phrase ∈ rounds) := by
    intro phrase hphrase
    simp only [roundsAgain, rounds, List.mem_cons, List.not_mem_nil, or_false]
    tauto
  exact ⟨hsame, (detects_leftmost_longest (· == ·) rounds sung).2 roundsAgain hsame, by decide +kernel⟩

end TextAnnotation.PhraseDetector
