import Mathlib.Data.List.Forall2
import Mathlib.Data.Nat.SuccPred
import TextAnnotation.Phrase.Detector

/-!
The tree of a dictionary contains its phrases, and a walk down the tree finds the longest of those that the
tokens begin with.
-/

namespace TextAnnotation

namespace PhraseTrie

variable {σ : Type}

/-- A phrase that leads from a node to an end. -/
inductive Contains : PhraseTrie σ → List σ → Prop where
  | here (children : List (σ × PhraseTrie σ)) : Contains (.node true children) []
  | there {isEnd : Bool} {children : List (σ × PhraseTrie σ)} {word : σ} {child : PhraseTrie σ}
    {rest : List σ} (hmem : (word, child) ∈ children) (h : child.Contains rest) :
    Contains (.node isEnd children) (word :: rest)

theorem contains_nil_iff {trie : PhraseTrie σ} : trie.Contains [] ↔ trie.isEnd = true := by
  cases trie with
  | node isEnd children =>
    constructor
    · intro h
      cases h
      rfl
    · intro h
      cases isEnd with
      | true => exact .here children
      | false => cases h

theorem contains_cons_iff {trie : PhraseTrie σ} {word : σ} {rest : List σ} :
    trie.Contains (word :: rest) ↔ ∃ child, (word, child) ∈ trie.children ∧ child.Contains rest := by
  cases trie with
  | node isEnd children =>
    constructor
    · intro h
      cases h with
      | there hmem h => exact ⟨_, hmem, h⟩
    · rintro ⟨child, hmem, h⟩
      exact .there hmem h

@[simp] theorem not_contains_empty (phrase : List σ) : ¬ (empty : PhraseTrie σ).Contains phrase := by
  intro h
  cases h with
  | there hmem _ => cases hmem

variable [DecidableEq σ]

/-- A change that adds a phrase below a word adds it to the children. -/
theorem contains_changeChild {word : σ} {phrase : List σ} {change : PhraseTrie σ → PhraseTrie σ}
    (hchange : ∀ trie other, (change trie).Contains other ↔ other = phrase ∨ trie.Contains other)
    (children : List (σ × PhraseTrie σ)) (key : σ) (other : List σ) :
    (∃ child, (key, child) ∈ changeChild word change children ∧ child.Contains other) ↔
      (key = word ∧ other = phrase) ∨ ∃ child, (key, child) ∈ children ∧ child.Contains other := by
  induction children with
  | nil => simp [changeChild, hchange]
  | cons entry rest ih =>
    obtain ⟨found, child⟩ := entry
    rw [changeChild]
    split
    · rename_i heq
      subst heq
      simp only [List.mem_cons, Prod.mk.injEq, or_and_right, exists_or, and_assoc, exists_and_left, exists_eq_left,
        hchange]
      tauto
    · simp only [List.mem_cons, or_and_right, exists_or, ih]
      exact or_left_comm

theorem contains_insert (phrase : List σ) (trie : PhraseTrie σ) (other : List σ) :
    (trie.insert phrase).Contains other ↔ other = phrase ∨ trie.Contains other := by
  induction phrase generalizing trie other with
  | nil =>
    obtain ⟨isEnd, children⟩ := trie
    rw [insert]
    cases other with
    | nil => simp [contains_nil_iff, PhraseTrie.isEnd]
    | cons key other => simp [contains_cons_iff, PhraseTrie.children]
  | cons word rest ih =>
    obtain ⟨isEnd, children⟩ := trie
    rw [insert]
    cases other with
    | nil => simp [contains_nil_iff, PhraseTrie.isEnd]
    | cons key other =>
      simp only [contains_cons_iff, PhraseTrie.children, List.cons.injEq]
      exact contains_changeChild ih children key other

/-- The tree of phrases contains those that have words. -/
theorem contains_ofPhrases (phrases : List (List σ)) (phrase : List σ) :
    (ofPhrases phrases).Contains phrase ↔ phrase ∈ phrases ∧ phrase ≠ [] := by
  have hfold (trie : PhraseTrie σ) :
      (phrases.foldl (fun trie phrase => if phrase.isEmpty then trie else trie.insert phrase) trie).Contains phrase ↔
        (phrase ∈ phrases ∧ phrase ≠ []) ∨ trie.Contains phrase := by
    induction phrases generalizing trie with
    | nil => simp
    | cons first rest ih =>
      rw [List.foldl_cons, ih]
      cases first with
      | nil =>
        simp only [List.isEmpty_nil, if_true, List.mem_cons]
        tauto
      | cons word words =>
        simp only [List.isEmpty_cons, Bool.false_eq_true, if_false, contains_insert, List.mem_cons]
        have hne : phrase = word :: words → phrase ≠ [] := by
          rintro rfl
          exact List.cons_ne_nil word words
        tauto
  rw [ofPhrases, hfold, or_iff_left (not_contains_empty phrase)]

end PhraseTrie

namespace PhraseDetector

variable {σ τ : Type} (detector : PhraseDetector σ τ)

/-- Some phrase that one of the nodes contains is accepted by the tokens, word by word. -/
def Finds (active : List (PhraseTrie σ)) (tokens : List τ) : Prop :=
  ∃ node ∈ active, ∃ phrase, node.Contains phrase ∧
    List.Forall₂ (fun word token => detector.accepts word token = true) phrase tokens

/-- The offsets of the tokens at which phrases end that the tokens begin with. -/
def ends (active : List (PhraseTrie σ)) (tokens : List τ) : Set Nat :=
  {n | n < tokens.length ∧ detector.Finds active (tokens.take (n + 1))}

variable {detector} {active : List (PhraseTrie σ)}

theorem finds_nil_iff : detector.Finds active [] ↔ active.any (·.isEnd) = true := by
  simp [Finds, List.forall₂_nil_right_iff, PhraseTrie.contains_nil_iff]

theorem finds_cons_iff {token : τ} {rest : List τ} :
    detector.Finds active (token :: rest) ↔ detector.Finds (detector.advance active token) rest := by
  constructor
  · rintro ⟨node, hnode, phrase, hcontains, hmatch⟩
    cases hmatch with
    | @cons word _ words _ haccepts hrest =>
      obtain ⟨child, hchild, hcontains⟩ := PhraseTrie.contains_cons_iff.1 hcontains
      refine ⟨child, ?_, words, hcontains, hrest⟩
      exact List.mem_flatMap.2 ⟨node, hnode, List.mem_map.2 ⟨(word, child), List.mem_filter.2 ⟨hchild, haccepts⟩, rfl⟩⟩
  · rintro ⟨child, hchild, words, hcontains, hrest⟩
    obtain ⟨node, hnode, hmem⟩ := List.mem_flatMap.1 hchild
    obtain ⟨⟨word, _⟩, hkept, rfl⟩ := List.mem_map.1 hmem
    obtain ⟨hentry, haccepts⟩ := List.mem_filter.1 hkept
    exact ⟨node, hnode, word :: words, PhraseTrie.contains_cons_iff.2 ⟨_, hentry, hcontains⟩, .cons haccepts hrest⟩

theorem not_finds_of_isEmpty (h : active.isEmpty = true) (tokens : List τ) : ¬ detector.Finds active tokens := by
  rintro ⟨node, hnode, _⟩
  rw [List.isEmpty_iff.1 h] at hnode
  cases hnode

theorem zero_mem_ends_cons_iff {token : τ} {rest : List τ} :
    0 ∈ detector.ends active (token :: rest) ↔ (detector.advance active token).any (·.isEnd) = true := by
  rw [← finds_nil_iff, ← finds_cons_iff]
  exact and_iff_right (Nat.succ_pos _)

theorem succ_mem_ends_cons_iff {token : τ} {rest : List τ} {n : Nat} :
    n + 1 ∈ detector.ends active (token :: rest) ↔ n ∈ detector.ends (detector.advance active token) rest := by
  simp [ends, finds_cons_iff]

/-- What is found on the way down is the last end of a phrase, or what was found before if there is none. -/
theorem longestFrom_spec (taken : Nat) (longest : Option Nat) (tokens : List τ) :
    (∀ n, IsGreatest (detector.ends active tokens) n →
        detector.longestFrom active taken longest tokens = some (taken + n)) ∧
      ((∀ n, n ∉ detector.ends active tokens) → detector.longestFrom active taken longest tokens = longest) := by
  induction tokens generalizing active taken longest with
  | nil => exact ⟨fun n hn => absurd hn.1.1 (Nat.not_lt_zero n), fun _ => rfl⟩
  | cons token rest ih =>
    rw [longestFrom]
    dsimp only
    split
    · rename_i hempty
      have hnone (n : Nat) : n ∉ detector.ends active (token :: rest) := by
        intro hn
        exact not_finds_of_isEmpty hempty _ (finds_cons_iff.1 hn.2)
      exact ⟨fun n hn => absurd hn.1 (hnone n), fun _ => rfl⟩
    obtain ⟨hgreatest, hempty⟩ := @ih (detector.advance active token) (taken + 1)
      (if (detector.advance active token).any (·.isEnd) then some taken else longest)
    constructor
    · intro n hn
      cases n with
      | zero =>
        rw [hempty, if_pos (zero_mem_ends_cons_iff.1 hn.1)]
        · rfl
        · intro later hlater
          exact absurd (hn.2 (succ_mem_ends_cons_iff.2 hlater)) (Nat.not_succ_le_zero later)
      | succ n =>
        rw [hgreatest n, Nat.add_assoc, Nat.add_comm 1]
        constructor
        · exact succ_mem_ends_cons_iff.1 hn.1
        · intro later hlater
          exact Nat.le_of_succ_le_succ (hn.2 (succ_mem_ends_cons_iff.2 hlater))
    · intro hnone
      rw [hempty, if_neg]
      · exact fun h => hnone 0 (zero_mem_ends_cons_iff.2 h)
      · exact fun later hlater => hnone (later + 1) (succ_mem_ends_cons_iff.2 hlater)

theorem exists_isGreatest_ends {tokens : List τ} (h : (detector.ends active tokens).Nonempty) :
    ∃ n, IsGreatest (detector.ends active tokens) n := by
  have hbounded : BddAbove (detector.ends active tokens) := ⟨tokens.length, fun m hm => Nat.le_of_lt hm.1⟩
  exact hbounded.exists_isGreatest_of_nonempty h

/-- The longest match ends at the last token at which a phrase ends that the tokens begin with. -/
theorem longestMatch?_eq_some_iff {tokens : List τ} {n : Nat} :
    detector.longestMatch? tokens = some n ↔ IsGreatest (detector.ends [detector.trie] tokens) n := by
  obtain ⟨hgreatest, hempty⟩ := @longestFrom_spec _ _ detector [detector.trie] 0 none tokens
  constructor
  · intro h
    have hsome : (detector.ends [detector.trie] tokens).Nonempty := by
      by_contra hnone
      cases h.symm.trans (hempty (not_exists.1 hnone))
    obtain ⟨m, hm⟩ := exists_isGreatest_ends hsome
    cases h.symm.trans (hgreatest m hm)
    rwa [Nat.zero_add]
  · intro h
    have hfound := hgreatest n h
    rwa [Nat.zero_add] at hfound

theorem longestMatch?_eq_none_iff {tokens : List τ} :
    detector.longestMatch? tokens = none ↔ detector.ends [detector.trie] tokens = ∅ := by
  rw [← Set.not_nonempty_iff_eq_empty, Option.eq_none_iff_forall_ne_some]
  constructor
  · intro hnone hends
    obtain ⟨n, hn⟩ := exists_isGreatest_ends hends
    exact hnone n (longestMatch?_eq_some_iff.2 hn)
  · intro hends n hn
    exact hends ⟨n, (longestMatch?_eq_some_iff.1 hn).1⟩

/-- Of a dictionary of one phrase, as many tokens as it has words are a match if and only if they are its words. -/
theorem longestMatch?_singleton_iff [DecidableEq σ] {phrase : List σ} {accepts : σ → τ → Bool} {tokens : List τ}
    {more : Nat} (hphrase : phrase.length = more + 1) (htokens : tokens.length = more + 1) :
    (ofSequences [phrase] accepts).longestMatch? tokens = some more ↔
      List.Forall₂ (fun word token => accepts word token = true) phrase tokens := by
  have htake : tokens.take (more + 1) = tokens := List.take_of_length_le (Nat.le_of_eq htokens)
  have hcontains (other : List σ) : (ofSequences [phrase] accepts).trie.Contains other ↔ other = phrase := by
    have hne : phrase ≠ [] := List.ne_nil_of_length_eq_add_one hphrase
    rw [ofSequences, PhraseTrie.contains_ofPhrases, List.mem_singleton, and_iff_left_iff_imp]
    rintro rfl
    exact hne
  rw [longestMatch?_eq_some_iff]
  constructor
  · rintro ⟨⟨_, node, hnode, other, hother, hmatch⟩, _⟩
    cases List.mem_singleton.1 hnode
    cases (hcontains other).1 hother
    rwa [htake] at hmatch
  · intro hmatch
    constructor
    · refine ⟨by omega, _, List.mem_singleton_self _, phrase, (hcontains phrase).2 rfl, ?_⟩
      rwa [htake]
    · rintro n ⟨hlt, _⟩
      omega

end PhraseDetector

end TextAnnotation
