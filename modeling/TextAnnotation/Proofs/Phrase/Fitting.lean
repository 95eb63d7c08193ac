import TextAnnotation.Proofs.Phrase.Counting

/-!
Which match a detector takes at a place. A phrase fits there if its words accept the tokens one after the other, and
the match has as many tokens as the longest phrase that fits has words.
-/

namespace TextAnnotation.PhraseDetector

variable {σ τ : Type}

/-- From `start` on, the words of the phrase accept the tokens one after the other. -/
def Fits (accepts : σ → τ → Bool) (tokens : List τ) (start : Nat) (phrase : List σ) : Prop :=
  ∀ offset word, phrase[offset]? = some word →
    ∃ token, tokens[start + offset]? = some token ∧ accepts word token = true

/-- The lengths of the phrases that fit at `start`. -/
def matchLengths (accepts : σ → τ → Bool) (phrases : List (List σ)) (tokens : List τ) (start : Nat) : Set Nat :=
  {n | 1 ≤ n ∧ ∃ phrase ∈ phrases, phrase.length = n ∧ Fits accepts tokens start phrase}

variable {accepts : σ → τ → Bool} {phrases : List (List σ)} {tokens : List τ} {start : Nat}

theorem fits_cons_iff {word : σ} {rest : List σ} :
    Fits accepts tokens start (word :: rest) ↔
      (∃ token, tokens[start]? = some token ∧ accepts word token = true) ∧ Fits accepts tokens (start + 1) rest := by
  constructor
  · intro h
    apply And.intro (h 0 word rfl)
    intro offset later hlater
    rw [Nat.add_assoc, Nat.add_comm 1]
    exact h (offset + 1) later hlater
  · rintro ⟨hfirst, hrest⟩ offset later hlater
    cases offset with
    | zero =>
      cases hlater
      exact hfirst
    | succ offset =>
      have hfound := hrest offset later hlater
      rwa [Nat.add_assoc, Nat.add_comm 1] at hfound

theorem fits_iff_forall₂ {phrase : List σ} :
    Fits accepts tokens start phrase ↔
      List.Forall₂ (fun word token => accepts word token = true) phrase ((tokens.drop start).take phrase.length) := by
  induction phrase generalizing start with
  | nil => exact iff_of_true (fun _ _ hword => nomatch hword) .nil
  | cons word rest ih =>
    rw [fits_cons_iff, ih]
    by_cases hstart : start < tokens.length
    · rw [List.drop_eq_getElem_cons hstart, List.length_cons, List.take_succ_cons, List.forall₂_cons,
        List.getElem?_eq_getElem hstart]
      simp
    · have hend := Nat.le_of_not_lt hstart
      rw [List.drop_eq_nil_of_le hend, List.getElem?_eq_none hend]
      simp

variable [DecidableEq σ]

/-- A phrase of `n + 1` words that fits is one that ends `n` tokens after the first. -/
theorem succ_mem_matchLengths_iff {n : Nat} :
    n + 1 ∈ matchLengths accepts phrases tokens start ↔
      n ∈ (ofSequences phrases accepts).ends [(ofSequences phrases accepts).trie] (tokens.drop start) := by
  constructor
  · rintro ⟨_, phrase, hmem, hlength, hfits⟩
    rw [fits_iff_forall₂, hlength] at hfits
    have hcontains : (ofSequences phrases accepts).trie.Contains phrase :=
      (PhraseTrie.contains_ofPhrases phrases phrase).2 ⟨hmem, List.ne_nil_of_length_eq_add_one hlength⟩
    have htake := hfits.length_eq
    rw [hlength, List.length_take] at htake
    exact ⟨by omega, _, List.mem_singleton_self _, phrase, hcontains, hfits⟩
  · rintro ⟨hlt, node, hnode, phrase, hcontains, hmatch⟩
    cases List.mem_singleton.1 hnode
    have hmem := ((PhraseTrie.contains_ofPhrases phrases phrase).1 hcontains).1
    have hlength : phrase.length = n + 1 := by
      rw [hmatch.length_eq, List.length_take]
      omega
    apply And.intro (Nat.succ_pos n)
    exact ⟨phrase, hmem, hlength, fits_iff_forall₂.2 (hlength ▸ hmatch)⟩

theorem isGreatest_matchLengths_succ_iff {n : Nat} :
    IsGreatest (matchLengths accepts phrases tokens start) (n + 1) ↔
      IsGreatest ((ofSequences phrases accepts).ends [(ofSequences phrases accepts).trie] (tokens.drop start)) n := by
  apply and_congr succ_mem_matchLengths_iff
  constructor
  · intro h later hlater
    exact Nat.le_of_succ_le_succ (h (succ_mem_matchLengths_iff.2 hlater))
  · intro h later hlater
    cases later with
    | zero => exact Nat.zero_le _
    | succ later => exact Nat.succ_le_succ (h (succ_mem_matchLengths_iff.1 hlater))

theorem longestMatchAt_eq_some_iff {last : Nat} :
    (ofSequences phrases accepts).longestMatchAt tokens start = some last ↔
      ∃ n, IsGreatest (matchLengths accepts phrases tokens start) n ∧ last = start + n - 1 := by
  rw [longestMatchAt, Option.map_eq_some_iff]
  constructor
  · rintro ⟨n, hn, rfl⟩
    exact ⟨n + 1, isGreatest_matchLengths_succ_iff.2 (longestMatch?_eq_some_iff.1 hn), rfl⟩
  · rintro ⟨n, hn, rfl⟩
    cases n with
    | zero => exact absurd hn.1.1 (Nat.not_succ_le_zero 0)
    | succ n => exact ⟨n, longestMatch?_eq_some_iff.2 (isGreatest_matchLengths_succ_iff.1 hn), rfl⟩

theorem longestMatchAt_eq_none_iff :
    (ofSequences phrases accepts).longestMatchAt tokens start = none ↔
      matchLengths accepts phrases tokens start = ∅ := by
  rw [longestMatchAt, Option.map_eq_none_iff, longestMatch?_eq_none_iff, Set.eq_empty_iff_forall_notMem,
    Set.eq_empty_iff_forall_notMem]
  constructor
  · intro h n hn
    cases n with
    | zero => exact Nat.not_succ_le_zero 0 hn.1
    | succ n => exact h n (succ_mem_matchLengths_iff.1 hn)
  · intro h n hn
    exact h (n + 1) (succ_mem_matchLengths_iff.2 hn)

/-- A dictionary of any phrases, read by any comparison, finds the longest phrase that fits and misses none, and counts
the phrases that it can find. -/
theorem finds_longest_phrase (accepts : σ → τ → Bool) (phrases : List (List σ)) (tokens : List τ) (start : Nat) :
    let detector := ofSequences phrases accepts
    (∀ last, detector.longestMatchAt tokens start = some last ↔
        ∃ n, IsGreatest (matchLengths accepts phrases tokens start) n ∧ last = start + n - 1) ∧
      (detector.longestMatchAt tokens start = none ↔ matchLengths accepts phrases tokens start = ∅) ∧
      detector.phraseCount = (phrases.toFinset.erase []).card :=
  ⟨fun _ => longestMatchAt_eq_some_iff, longestMatchAt_eq_none_iff, PhraseTrie.phraseCount_ofPhrases phrases⟩

-- The first token is accepted as the word of two children, of which the later one leads to the match.
example : (ofSequences [['A', 'f'], ['a', 'l']] fun word token => word.toLower == token.toLower).longestMatchAt
    ['A', 'L'] 0 = some 1 := by decide

end TextAnnotation.PhraseDetector
