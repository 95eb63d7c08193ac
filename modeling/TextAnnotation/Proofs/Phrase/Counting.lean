import Mathlib.Data.Finset.Card
import Mathlib.Data.Finset.Dedup
import Mathlib.Data.List.Nodup
import TextAnnotation.Proofs.Phrase.Longest

/-!
How many phrases a tree counts. A new phrase adds one, and a phrase that the tree contains adds none, since no word leads
from a node to two others.
-/

namespace TextAnnotation.PhraseTrie

variable {σ : Type}

/-- No two children of a node have one word. -/
inductive Distinct : PhraseTrie σ → Prop where
  | node (isEnd : Bool) {children : List (σ × PhraseTrie σ)} (words : (children.map (·.1)).Nodup)
      (below : ∀ word child, (word, child) ∈ children → child.Distinct) : Distinct (.node isEnd children)

theorem distinct_empty : (empty : PhraseTrie σ).Distinct := .node false .nil (fun _ _ hmem => nomatch hmem)

variable [DecidableEq σ]

theorem map_fst_changeChild (word : σ) (change : PhraseTrie σ → PhraseTrie σ) (children : List (σ × PhraseTrie σ)) :
    (changeChild word change children).map (·.1) =
      if word ∈ children.map (·.1) then children.map (·.1) else children.map (·.1) ++ [word] := by
  induction children with
  | nil => rfl
  | cons entry rest ih =>
    obtain ⟨key, child⟩ := entry
    rw [changeChild]
    by_cases hkey : key = word
    · simp [hkey]
    · rw [if_neg hkey, List.map_cons, ih]
      simp only [List.map_cons, List.mem_cons, Ne.symm hkey, false_or]
      split <;> rfl

theorem nodup_changeChild {word : σ} {change : PhraseTrie σ → PhraseTrie σ} {children : List (σ × PhraseTrie σ)}
    (h : (children.map (·.1)).Nodup) : ((changeChild word change children).map (·.1)).Nodup := by
  rw [map_fst_changeChild]
  by_cases hmem : word ∈ children.map (·.1)
  · rwa [if_pos hmem]
  · rw [if_neg hmem, ← List.concat_eq_append]
    exact h.concat hmem

/-- What a changed child is: the change of a child, or of the empty tree if the word had none. -/
theorem of_mem_changeChild {word key : σ} {change : PhraseTrie σ → PhraseTrie σ} {children : List (σ × PhraseTrie σ)}
    {child : PhraseTrie σ} (h : (key, child) ∈ changeChild word change children) :
    (key, child) ∈ children ∨ child = change empty ∨ ∃ old, (key, old) ∈ children ∧ child = change old := by
  induction children with
  | nil =>
    cases List.mem_singleton.1 h
    exact .inr (.inl rfl)
  | cons entry rest ih =>
    obtain ⟨found, other⟩ := entry
    rw [changeChild] at h
    by_cases hfound : found = word
    · rw [if_pos hfound] at h
      rcases List.mem_cons.1 h with heq | hmem
      · cases heq
        exact .inr (.inr ⟨other, List.mem_cons_self, rfl⟩)
      · exact .inl (List.mem_cons_of_mem _ hmem)
    · rw [if_neg hfound] at h
      rcases List.mem_cons.1 h with heq | hmem
      · exact .inl (heq ▸ List.mem_cons_self)
      · rcases ih hmem with hmem | hempty | ⟨old, hold, hchild⟩
        · exact .inl (List.mem_cons_of_mem _ hmem)
        · exact .inr (.inl hempty)
        · exact .inr (.inr ⟨old, List.mem_cons_of_mem _ hold, hchild⟩)

theorem Distinct.insert {trie : PhraseTrie σ} (h : trie.Distinct) (phrase : List σ) : (trie.insert phrase).Distinct := by
  induction phrase generalizing trie with
  | nil =>
    cases h with
    | node isEnd hwords hbelow => exact .node true hwords hbelow
  | cons word rest ih =>
    cases h with
    | node isEnd hwords hbelow =>
      apply Distinct.node isEnd (nodup_changeChild hwords)
      intro key child hmem
      rcases of_mem_changeChild hmem with hmem | rfl | ⟨old, hold, rfl⟩
      · exact hbelow key child hmem
      · exact ih distinct_empty
      · exact ih (hbelow key old hold)

open Classical in
/-- A change that adds one phrase below a word adds one to the count, unless the children have that phrase. -/
theorem phraseCountOf_changeChild {word : σ} {phrase : List σ} {change : PhraseTrie σ → PhraseTrie σ}
    {children : List (σ × PhraseTrie σ)} (hwords : (children.map (·.1)).Nodup)
    (hempty : (change empty).phraseCount = 1)
    (hchange : ∀ child, (word, child) ∈ children →
      (change child).phraseCount = child.phraseCount + if child.Contains phrase then 0 else 1) :
    phraseCountOf (changeChild word change children) =
      phraseCountOf children + if ∃ child, (word, child) ∈ children ∧ child.Contains phrase then 0 else 1 := by
  induction children with
  | nil => simp [changeChild, phraseCountOf, hempty]
  | cons entry rest ih =>
    obtain ⟨key, child⟩ := entry
    obtain ⟨hkey, hrest⟩ := List.nodup_cons.1 hwords
    rw [changeChild]
    by_cases hword : key = word
    · subst hword
      have honly : (∃ other, (key, other) ∈ (key, child) :: rest ∧ other.Contains phrase) ↔ child.Contains phrase := by
        constructor
        · rintro ⟨other, hmem, hcontains⟩
          rcases List.mem_cons.1 hmem with heq | hmem
          · cases heq
            exact hcontains
          · exact absurd (List.mem_map_of_mem hmem) hkey
        · exact fun hcontains => ⟨child, List.mem_cons_self, hcontains⟩
      rw [if_pos rfl, phraseCountOf, phraseCountOf, hchange child List.mem_cons_self, if_congr honly rfl rfl]
      omega
    · have hlater : (∃ other, (word, other) ∈ (key, child) :: rest ∧ other.Contains phrase) ↔
          ∃ other, (word, other) ∈ rest ∧ other.Contains phrase := by
        simp [Ne.symm hword]
      rw [if_neg hword, phraseCountOf, phraseCountOf, ih hrest fun other hmem => hchange other (List.mem_cons_of_mem _ hmem),
        if_congr hlater rfl rfl, Nat.add_assoc]

open Classical in
theorem phraseCount_insert {trie : PhraseTrie σ} (h : trie.Distinct) (phrase : List σ) :
    (trie.insert phrase).phraseCount = trie.phraseCount + if trie.Contains phrase then 0 else 1 := by
  induction phrase generalizing trie with
  | nil =>
    cases trie with
    | node isEnd children =>
      cases isEnd <;> simp [insert, phraseCount, contains_nil_iff, PhraseTrie.isEnd]
  | cons word rest ih =>
    cases h with
    | @node isEnd children hwords hbelow =>
      have hempty : ((empty : PhraseTrie σ).insert rest).phraseCount = 1 := by
        rw [ih distinct_empty, if_neg (not_contains_empty rest)]
        rfl
      have hcount := phraseCountOf_changeChild hwords hempty fun child hmem => ih (hbelow word child hmem)
      rw [insert, phraseCount, phraseCount, hcount, if_congr contains_cons_iff rfl rfl, PhraseTrie.children]
      omega

theorem ofPhrases_concat (phrases : List (List σ)) (phrase : List σ) :
    ofPhrases (phrases ++ [phrase]) = if phrase.isEmpty then ofPhrases phrases else (ofPhrases phrases).insert phrase := by
  rw [ofPhrases, ofPhrases, List.foldl_append]
  rfl

theorem distinct_ofPhrases (phrases : List (List σ)) : (ofPhrases phrases).Distinct := by
  induction phrases using List.reverseRecOn with
  | nil => exact distinct_empty
  | append_singleton phrases phrase ih =>
    rw [ofPhrases_concat]
    split
    · exact ih
    · exact ih.insert phrase

/-- The tree of a list of phrases counts those that have words, each of them once. -/
theorem phraseCount_ofPhrases (phrases : List (List σ)) :
    (ofPhrases phrases).phraseCount = (phrases.toFinset.erase []).card := by
  induction phrases using List.reverseRecOn with
  | nil => rfl
  | append_singleton phrases phrase ih =>
    have hset : (phrases ++ [phrase]).toFinset = Insert.insert phrase phrases.toFinset := by
      ext other
      simp
    rw [ofPhrases_concat, hset]
    cases phrase with
    | nil => rwa [Finset.erase_insert_eq_erase]
    | cons word rest =>
      have hne : word :: rest ≠ [] := List.cons_ne_nil word rest
      rw [Finset.erase_insert_of_ne hne, List.isEmpty_cons, if_neg Bool.false_ne_true,
        phraseCount_insert (distinct_ofPhrases phrases), ih]
      by_cases hmem : word :: rest ∈ phrases
      · have hcontains := (contains_ofPhrases phrases _).2 ⟨hmem, hne⟩
        rw [if_pos hcontains, Finset.insert_eq_of_mem (Finset.mem_erase.2 ⟨hne, List.mem_toFinset.2 hmem⟩), Nat.add_zero]
      · have hnew : ¬ (ofPhrases phrases).Contains (word :: rest) := by
          rw [contains_ofPhrases]
          exact fun h => hmem h.1
        rw [if_neg hnew, Finset.card_insert_of_notMem]
        simp [hmem]

end TextAnnotation.PhraseTrie
