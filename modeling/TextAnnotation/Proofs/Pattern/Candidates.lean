import TextAnnotation.Proofs.Label.Inside
import TextAnnotation.Proofs.Pattern.Advance
import TextAnnotation.Proofs.Pattern.Session

/-!
The candidates of a searcher ascend from the start of its range, and whatever it finds begins at the
candidate that it was tried from or after it.
-/

namespace TextAnnotation

namespace Pattern

theorem eraseReps_loop_eq (r : α → α → Bool) (a : α) (rest kept : List α) :
    List.eraseRepsBy.loop r a rest kept = kept.reverse ++ List.eraseRepsBy.loop r a rest [] := by
  induction rest generalizing a kept with
  | nil => simp [List.eraseRepsBy.loop]
  | cons b rest ih =>
    simp only [List.eraseRepsBy.loop]
    split
    · exact ih a kept
    · rw [ih b (a :: kept), ih b [a]]
      simp

theorem eraseReps_cons_cons [BEq α] (a b : α) (rest : List α) :
    (a :: b :: rest).eraseReps = if a == b then (a :: rest).eraseReps else a :: (b :: rest).eraseReps := by
  simp only [List.eraseReps, List.eraseRepsBy, List.eraseRepsBy.loop]
  split
  · rename_i heq
    rw [heq]
    rfl
  · rename_i hne
    rw [hne, eraseReps_loop_eq]
    rfl

theorem mem_eraseReps [BEq α] [LawfulBEq α] {x : α} {as : List α} : x ∈ as.eraseReps ↔ x ∈ as := by
  rcases as with _ | ⟨a, rest⟩
  · rfl
  induction rest generalizing a with
  | nil => rfl
  | cons b rest ih =>
    rw [eraseReps_cons_cons]
    split
    · rename_i heq
      rw [ih, beq_iff_eq.1 heq]
      simp
    · rw [List.mem_cons, List.mem_cons, ih]

theorem pairwise_lt_eraseReps {as : List Nat} (h : as.Pairwise (· ≤ ·)) : as.eraseReps.Pairwise (· < ·) := by
  rcases as with _ | ⟨a, rest⟩
  · exact .nil
  induction rest generalizing a with
  | nil => exact List.pairwise_singleton _ a
  | cons b rest ih =>
    obtain ⟨hhead, htail⟩ := List.pairwise_cons.1 h
    rw [eraseReps_cons_cons]
    split
    · obtain ⟨_, hrest⟩ := List.forall_mem_cons.1 hhead
      exact ih a (List.pairwise_cons.2 ⟨hrest, (List.pairwise_cons.1 htail).2⟩)
    · rename_i hne
      refine List.pairwise_cons.2 ⟨fun x hx => ?_, ih b htail⟩
      have hab : a ≤ b := hhead b List.mem_cons_self
      have hbx : b ≤ x := by
        rcases List.mem_cons.1 (mem_eraseReps.1 hx) with heq | hmem
        · exact Nat.le_of_eq heq.symm
        · exact (List.pairwise_cons.1 htail).1 x hmem
      have hne : a ≠ b := fun heq => hne (beq_iff_eq.2 heq)
      omega

namespace Searcher

theorem mem_candidateStarts {indices : Array FrozenKind} {range : Span} {offset : Nat} :
    offset ∈ candidateStarts indices range ↔ ∃ frozen ∈ indices, ∃ label ∈ frozen.index.ascending,
      LabelIndex.inside range label = true ∧ label.span.start = offset := by
  simp only [candidateStarts, mem_eraseReps, List.mem_mergeSort, List.mem_flatMap, Array.mem_toList_iff,
    List.mem_map, LabelIndex.insideSpan_eq_filter, List.mem_filter, and_assoc]

theorem pairwise_lt_candidateStarts (indices : Array FrozenKind) (range : Span) :
    (candidateStarts indices range).Pairwise (· < ·) := by
  apply pairwise_lt_eraseReps
  have h := @List.pairwise_mergeSort _ (fun a b : Nat => decide (a ≤ b))
    (fun a b c hab hbc => by simp at *; omega) (fun a b => by simp; omega)
    (indices.toList.flatMap fun frozen => (frozen.index.insideSpan range).map (·.span.start))
  exact h.imp of_decide_eq_true

theorem le_of_mem_candidateStarts {indices : Array FrozenKind} {range : Span} {candidate : Nat}
    (h : candidate ∈ candidateStarts indices range) : range.start ≤ candidate := by
  obtain ⟨_, _, label, _, hinside, rfl⟩ := mem_candidateStarts.1 h
  simp only [LabelIndex.inside, Bool.and_eq_true, decide_eq_true_eq] at hinside
  exact hinside.1.1

/-- What every searcher of a view of proper labels keeps through its session. -/
structure Regular (s : Searcher) : Prop where
  proper : ∀ frozen ∈ s.indices, frozen.index.All Label.Proper
  candidates : s.candidates.toList = candidateStarts s.indices s.range

theorem Regular.matcher {s : Searcher} (h : s.Regular) : s.matcher.Proper := h.proper

theorem Regular.reset {s : Searcher} (h : s.Regular) (range : Span) : (s.reset range).Regular where
  proper := h.proper
  candidates := rfl

theorem Regular.report {s : Searcher} (h : s.Regular) (hit : Attempt Hit) : (s.report hit).2.Regular := by
  rcases hit with fault | _ | hit
  · exact h
  · exact ⟨h.proper, h.candidates⟩
  simp only [Searcher.report]
  split
  · exact h
  split
  · exact ⟨h.proper, h.candidates⟩
  · exact ⟨h.proper, h.candidates⟩

theorem Regular.search {s : Searcher} (h : s.Regular) : s.search.2.Regular := by
  rw [search_eq]
  simp only [searchByAttempts]
  split
  · exact h
  · exact h.report _

theorem Regular.next {s next : Searcher} (h : s.Regular) {answer : Except MatchFault Bool}
    (hsearch : s.search = (answer, next)) : next.Regular := by
  have hregular := h.search
  rwa [hsearch] at hregular

theorem Regular.after {s : Searcher} (h : s.Regular) (calls : List Call) : (s.after calls).Regular := by
  induction calls generalizing s with
  | nil => exact h
  | cons call calls ih =>
    cases call with
    | search => exact ih h.search
    | reset range => exact ih (h.reset range)

theorem indices_search (s : Searcher) : s.search.2.indices = s.indices := by
  rw [search_eq]
  simp only [searchByAttempts]
  split
  · rfl
  rcases s.firstHit s.remaining with fault | _ | hit
  · rfl
  · rfl
  simp only [Searcher.report]
  split
  · rfl
  split <;> rfl

theorem indices_after (s : Searcher) (calls : List Call) : (s.after calls).indices = s.indices := by
  induction calls generalizing s with
  | nil => rfl
  | cons call calls ih =>
    cases call with
    | search => exact (ih _).trans s.indices_search
    | reset range => exact ih _

theorem pattern_report (s : Searcher) (hit? : Attempt Hit) : (s.report hit?).2.pattern = s.pattern := by
  rcases hit? with fault | _ | hit
  · rfl
  · rfl
  simp only [report]
  split
  · rfl
  split <;> rfl

theorem pattern_after (s : Searcher) (calls : List Call) : (s.after calls).pattern = s.pattern := by
  induction calls generalizing s with
  | nil => rfl
  | cons call calls ih =>
    cases call with
    | search =>
      refine (ih _).trans ?_
      change s.search.2.pattern = s.pattern
      rw [search_eq, searchByAttempts]
      split
      · rfl
      · exact s.pattern_report _
    | reset range => exact ih _

theorem all_searcherIn {P : Label → Prop} {view : View} (h : view.All P) (pattern : Pattern)
    (range : Span) : ∀ frozen ∈ (view.searcherIn pattern range).1.indices, frozen.index.All P := by
  intro frozen hmem
  simp only [View.searcherIn, start, List.mem_toArray] at hmem
  obtain ⟨⟨kind, index⟩, hzip, rfl⟩ := List.mem_map.1 hmem
  exact h.freezeAll pattern.kinds index (List.of_mem_zip hzip).2

theorem regular_searcherIn {view : View} (h : view.Proper) (pattern : Pattern) (range : Span) :
    (view.searcherIn pattern range).1.Regular where
  proper := all_searcherIn h pattern range
  candidates := rfl

/-- The candidates that the cursor has passed are before it, and the others are not. -/
theorem Regular.remaining_spec {s : Searcher} (h : s.Regular) :
    (∀ candidate ∈ s.candidates.toList.take
      (partitionPoint (fun start => decide (start < s.cursor)) s.candidates), candidate < s.cursor) ∧
      ∀ candidate ∈ s.remaining, s.cursor ≤ candidate := by
  have hsorted : s.candidates.toList.Pairwise fun a b =>
      decide (b < s.cursor) = true → decide (a < s.cursor) = true := by
    rw [h.candidates]
    refine (pairwise_lt_candidateStarts _ _).imp fun hab => ?_
    simp only [decide_eq_true_eq]
    omega
  have hspec := partitionPoint_spec hsorted
  simpa [remaining] using hspec

theorem Regular.of_mem_remaining {s : Searcher} (h : s.Regular) {candidate : Nat}
    (hmem : candidate ∈ s.remaining) : s.cursor ≤ candidate ∧ s.range.start ≤ candidate := by
  have hcandidate : candidate ∈ candidateStarts s.indices s.range := by
    rw [← h.candidates]
    exact List.mem_of_mem_drop hmem
  exact ⟨h.remaining_spec.2 candidate hmem, le_of_mem_candidateStarts hcandidate⟩

theorem of_firstHit_eq_some {s : Searcher} {candidates : List Nat} {hit : Hit}
    (h : s.firstHit candidates = .ok (some hit)) :
    hit.candidate ∈ candidates ∧ s.attempt hit.candidate = .ok (some hit) := by
  induction candidates with
  | nil => cases h
  | cons candidate rest ih =>
    simp only [firstHit] at h
    rcases Attempt.orElse_eq_some_iff.1 h with hattempt | ⟨_, hrest⟩
    · obtain ⟨found, _, heq⟩ := Attempt.andThen_eq_some_iff.1 hattempt
      simp only [Except.ok.injEq, Option.map_eq_some_iff] at heq
      obtain ⟨start, _, rfl⟩ := heq
      exact ⟨List.mem_cons_self, hattempt⟩
    · obtain ⟨hmem, hattempt⟩ := ih hrest
      exact ⟨List.mem_cons_of_mem _ hmem, hattempt⟩

/-- What a hit has consumed lies in order between its candidate and the end of the range, and the hit
begins where the first piece of it does. -/
theorem Regular.hit_advance {s : Searcher} (h : s.Regular) {candidate : Nat} {hit : Hit}
    (hattempt : s.attempt candidate = .ok (some hit)) :
    ∃ first rest, hit.found.consumed.map s.matcher.pieceSpan? = (first :: rest).map some ∧
      Advance s.range.stop { position := candidate, anchor := .start } (first :: rest)
        hit.found.state ∧ first.start = hit.start := by
  obtain ⟨found, hfound, heq⟩ := Attempt.andThen_eq_some_iff.1 hattempt
  simp only [Except.ok.injEq, Option.map_eq_some_iff] at heq
  obtain ⟨start, hstart, rfl⟩ := heq
  obtain ⟨spans, hspans, hadvance⟩ := (Matcher.path_of_evaluate hfound).advance h.matcher
  have hbegin := hadvance.begin?
  rw [hstart] at hbegin
  rcases spans with _ | ⟨first, rest⟩
  · simp at hbegin
  · exact ⟨first, rest, hspans, hadvance, by simpa using hbegin.symm⟩

theorem Regular.bounds {s : Searcher} (h : s.Regular) {hit : Hit}
    (hhit : s.firstHit s.remaining = .ok (some hit)) :
    s.cursor ≤ hit.candidate ∧ hit.candidate ≤ hit.start ∧ s.range.start ≤ hit.candidate := by
  obtain ⟨hmem, hattempt⟩ := of_firstHit_eq_some hhit
  obtain ⟨hcursor, hrange⟩ := h.of_mem_remaining hmem
  obtain ⟨first, rest, _, hadvance, hfirst⟩ := h.hit_advance hattempt
  have hle : hit.candidate ≤ first.start := hadvance.ascending.1
  exact ⟨hcursor, by omega, hrange⟩

theorem search_eq_true {s next : Searcher} (h : s.search = (.ok true, next)) :
    ∃ hit, s.exhausted = false ∧ s.firstHit s.remaining = .ok (some hit) ∧
      hit.start ≤ hit.found.state.position ∧
      next = { s with
        matched? := some ⟨hit.start, hit.found.state.position⟩
        captures := hit.found.captures
        cursor := max hit.found.state.position (hit.candidate + 1) } := by
  rw [search_eq] at h
  simp only [searchByAttempts] at h
  split at h
  · cases h
  rename_i hexhausted
  rcases hhit : s.firstHit s.remaining with fault | _ | hit
  · rw [hhit] at h
    cases h
  · rw [hhit] at h
    cases h
  rw [hhit] at h
  simp only [report] at h
  split at h
  · cases h
  rename_i span hspan
  obtain ⟨hle, rfl⟩ := Span.between_eq_ok_iff.1 hspan
  split at h
  · cases h
    exact ⟨hit, by simpa using hexhausted, rfl, hle, rfl⟩
  · cases h

end Searcher

end Pattern

end TextAnnotation
