import TextAnnotation.Proofs.Pattern.Candidates
import TextAnnotation.Proofs.Pattern.Evaluation
import TextAnnotation.Proofs.Pattern.Hanging
import TextAnnotation.Proofs.Pattern.Recognition

/-!
Which searches return. A call of the search returns the same under every large enough limit on repetitions,
unless a candidate leads to a repetition that swings for ever.
-/

namespace TextAnnotation.Pattern

open Attempt

namespace Matcher

theorem exists_matchNode_iff {m : Matcher} (hm : m.Proper) {limit : Nat} {node : Node} {state : MatchState}
    {captures : Captures} :
    (∃ n, ∀ k, n ≤ k → (m.withLimit k).matchNode limit node state captures ≠ .error .endless) ↔
      ¬ m.Hangs limit node state captures := by
  have hendless (k : Nat) : (m.withLimit k).matchNode limit node state captures = .error .endless ↔
      m.attempts limit node state captures k = .error .endless := by
    have h := (m.withLimit k).matchNode_agrees limit node state captures
    unfold attempts
    generalize (m.withLimit k).matchNode limit node state captures = outcome at h ⊢
    generalize (m.withLimit k).evaluate limit node state captures = attempt at h ⊢
    cases h with
    | fault fault => simp
    | failure left => simp
    | success found => simp
  simp only [ne_eq, hendless]
  constructor
  · intro h hhangs
    obtain ⟨n, hn⟩ := h
    exact hn n (Nat.le_refl n) (hhangs.endless n)
  · intro hhangs
    rcases Rising.endless_or_yields (m.attempts limit node state captures) with h | ⟨result, h⟩
    · exact absurd (hangs_of_endless hm h) hhangs
    · obtain ⟨n, hn⟩ := (m.rising_evaluate limit node state captures).eventually_eq h
      exact ⟨n, fun k hle => (hn k hle).symm ▸ h.1⟩

end Matcher

namespace Searcher

def withLimit (s : Searcher) (repetitions : Nat) : Searcher := { s with repetitionLimit := repetitions }

/-- A call of the search gives an answer that no larger limit on repetitions changes. -/
def Returns (s : Searcher) : Prop :=
  ∃ (answer : Except MatchFault Bool) (next : Searcher) (n : Nat), answer ≠ .error .endless ∧
    ∀ k, n ≤ k → (s.withLimit k).search = (answer, next.withLimit k)

/-- A call of the search comes to a candidate that hangs, after others that do not match. -/
def Hangs (s : Searcher) : Prop :=
  s.exhausted = false ∧ ∃ tried candidate later, s.remaining = tried ++ candidate :: later ∧
    Yields (fun n => (s.withLimit n).firstHit tried) (.ok none) ∧
    s.matcher.Hangs s.range.stop s.pattern.root { position := candidate, anchor := .start }
      (noCaptures s.pattern)

abbrev attempts (s : Searcher) (candidate : Nat) : Nat → Attempt Accepted :=
  s.matcher.attempts s.range.stop s.pattern.root { position := candidate, anchor := .start }
    (noCaptures s.pattern)

theorem rising_attempts (s : Searcher) (candidate : Nat) : Rising (s.attempts candidate) :=
  s.matcher.rising_evaluate _ _ _ _

theorem rising_attempt (s : Searcher) (candidate : Nat) :
    Rising fun n => (s.withLimit n).attempt candidate :=
  (s.rising_attempts candidate).andThen_const fun found =>
    .ok (found.state.begin?.map fun start => Hit.mk candidate start found)

theorem rising_firstHit (s : Searcher) (candidates : List Nat) :
    Rising fun n => (s.withLimit n).firstHit candidates := by
  induction candidates with
  | nil => exact .const _
  | cons candidate rest ih => exact (s.rising_attempt candidate).orElse ih

theorem endless_attempt_iff {s : Searcher} (hs : s.Regular) {candidate : Nat} :
    (Endless fun n => (s.withLimit n).attempt candidate) ↔
      s.matcher.Hangs s.range.stop s.pattern.root { position := candidate, anchor := .start }
        (noCaptures s.pattern) := by
  have hattempts : (Endless fun n => (s.withLimit n).attempt candidate) ↔ Endless (s.attempts candidate) := by
    apply @endless_andThen_const_iff _ _ _ (s.rising_attempts candidate) fun found =>
      .ok (found.state.begin?.map fun start => Hit.mk candidate start found)
    intro found h
    cases h
  rw [hattempts]
  exact ⟨Matcher.hangs_of_endless hs.matcher, Matcher.Hangs.endless⟩

theorem endless_firstHit_cons_iff {s : Searcher} (hs : s.Regular) {candidate : Nat} {rest : List Nat} :
    (Endless fun n => (s.withLimit n).firstHit (candidate :: rest)) ↔
      s.matcher.Hangs s.range.stop s.pattern.root { position := candidate, anchor := .start }
          (noCaptures s.pattern) ∨
        Yields (fun n => (s.withLimit n).attempt candidate) (.ok none) ∧
          Endless fun n => (s.withLimit n).firstHit rest := by
  apply Iff.trans (endless_orElse_iff (s.rising_attempt candidate) (s.rising_firstHit rest))
  rw [endless_attempt_iff hs]

theorem endless_firstHit_iff {s : Searcher} (hs : s.Regular) {candidates : List Nat} :
    (Endless fun n => (s.withLimit n).firstHit candidates) ↔
      ∃ tried candidate later, candidates = tried ++ candidate :: later ∧
        Yields (fun n => (s.withLimit n).firstHit tried) (.ok none) ∧
        s.matcher.Hangs s.range.stop s.pattern.root { position := candidate, anchor := .start }
          (noCaptures s.pattern) := by
  constructor
  · intro h
    induction candidates with
    | nil => cases h 0
    | cons candidate rest ih =>
      rcases (endless_firstHit_cons_iff hs).1 h with hcandidate | ⟨hfails, hrest⟩
      · exact ⟨[], candidate, rest, rfl, .const none, hcandidate⟩
      · obtain ⟨tried, next, later, rfl, htried, hnext⟩ := ih hrest
        have hall : Yields (fun n => (s.withLimit n).firstHit (candidate :: tried)) (.ok none) :=
          hfails.orElse (s.rising_attempt candidate) (s.rising_firstHit tried) htried
        exact ⟨candidate :: tried, next, later, rfl, hall, hnext⟩
  · intro h
    obtain ⟨tried, candidate, later, rfl, htried, hcandidate⟩ := h
    induction tried with
    | nil => exact (endless_firstHit_cons_iff hs).2 (.inl hcandidate)
    | cons first rest ih =>
      obtain ⟨hfirst, hrest⟩ := htried.of_orElse
      exact (endless_firstHit_cons_iff hs).2 (.inr ⟨hfirst, ih hrest⟩)

theorem report_withLimit (s : Searcher) (n : Nat) (hit : Attempt Hit) :
    (s.withLimit n).report hit = ((s.report hit).1, (s.report hit).2.withLimit n) := by
  rcases hit with fault | _ | hit
  · rfl
  · rfl
  simp only [report]
  cases Span.between hit.start hit.found.state.position with
  | error bounds => rfl
  | ok span =>
    simp only
    split <;> rfl

theorem report_ne_endless {s : Searcher} {hit : Attempt Hit} (h : hit ≠ .error .endless) :
    (s.report hit).1 ≠ .error .endless := by
  rcases hit with fault | _ | hit
  · intro heq
    cases heq
    exact h rfl
  · intro heq
    cases heq
  simp only [report]
  intro heq
  split at heq
  · cases heq
  split at heq <;> cases heq

theorem search_withLimit (s : Searcher) (n : Nat) :
    (s.withLimit n).search =
      if s.exhausted then (.ok false, s.withLimit n)
      else (s.withLimit n).report ((s.withLimit n).firstHit s.remaining) :=
  search_eq _

/-- A search that hangs runs into any limit. -/
theorem Hangs.search {s : Searcher} (hs : s.Regular) (h : s.Hangs) (n : Nat) :
    (s.withLimit n).search.1 = .error .endless := by
  obtain ⟨hexhausted, hhangs⟩ := h
  have hendless : (s.withLimit n).firstHit s.remaining = .error .endless :=
    (endless_firstHit_iff hs).2 hhangs n
  rw [search_withLimit, hexhausted, if_neg Bool.false_ne_true, hendless]
  rfl

theorem returns_iff {s : Searcher} (hs : s.Regular) : s.Returns ↔ ¬ s.Hangs := by
  constructor
  · intro h hhangs
    obtain ⟨answer, next, n, hanswer, hn⟩ := h
    have hsearch := hn n (Nat.le_refl n)
    exact hanswer ((congrArg Prod.fst hsearch).symm.trans (hhangs.search hs n))
  · intro hhangs
    cases hexhausted : s.exhausted with
    | true =>
      refine ⟨.ok false, s, 0, nofun, fun k _ => ?_⟩
      rw [search_withLimit, hexhausted, if_pos rfl]
    | false =>
      rcases Rising.endless_or_yields fun n => (s.withLimit n).firstHit s.remaining with h | ⟨hit, h⟩
      · exact absurd ⟨hexhausted, (endless_firstHit_iff hs).1 h⟩ hhangs
      · obtain ⟨n, hn⟩ := (s.rising_firstHit s.remaining).eventually_eq h
        refine ⟨(s.report hit).1, (s.report hit).2, n, report_ne_endless h.1, fun k hle => ?_⟩
        rw [search_withLimit, hexhausted, if_neg Bool.false_ne_true, hn k hle, report_withLimit]

/-- In a session, a match returns from every state, and a call of the search does, if and only if no
repetition without upper bound that it comes to swings for ever. -/
theorem returns_iff_not_hangs {view : View} (hview : view.Proper) (pattern : Pattern) (range : Span)
    (calls : List Call) {s : Searcher} (hs : s = (view.searcherIn pattern range).1.after calls) :
    (∀ (limit : Nat) (node : Node) (state : MatchState) (captures : Captures),
      (∃ n, ∀ k, n ≤ k → (s.matcher.withLimit k).matchNode limit node state captures ≠ .error .endless) ↔
        ¬ s.matcher.Hangs limit node state captures) ∧
      (s.Returns ↔ ¬ s.Hangs) := by
  have hregular : s.Regular := hs ▸ (regular_searcherIn hview pattern range).after calls
  exact ⟨fun _ _ _ _ => Matcher.exists_matchNode_iff hregular.matcher, returns_iff hregular⟩

/-- All searches of a view without empty labels return. -/
theorem returns_of_nonempty {view : View} (hview : view.All Label.Nonempty) (pattern : Pattern)
    (range : Span) (calls : List Call) : ((view.searcherIn pattern range).1.after calls).Returns := by
  have hproper := View.proper_of_nonempty hview
  apply (returns_iff ((regular_searcherIn hproper pattern range).after calls)).2
  intro h
  obtain ⟨_, _, _, _, _, _, h⟩ := h
  apply Matcher.not_hangs_of_nonempty _ h
  intro frozen hfrozen
  apply all_searcherIn hview pattern range frozen
  rwa [← indices_after _ calls]

def cueAliases : AliasTable :=
  (AliasTable.register ⟨.empty, none⟩ "X" { name := "Place" } []).register "Z" { name := "Cue" } []

/-- A place ahead makes the next label adjacent, and a cue leaves it free again. -/
def cueBody : Node := .alternation [
  .sequence [.lookahead (.label ⟨"X", 1, []⟩) false, .adjacent], .label ⟨"Z", 0, []⟩]

def cuePattern : Pattern where
  source := "Z ((?=X) -> | Z)*"
  root := .sequence [.label ⟨"Z", 0, []⟩, .repetition cueBody 0 none]
  kinds := [{ name := "Cue" }, { name := "Place" }]
  captureNames := []

def cueTree : Grammar.Alternation :=
  .last (.next (.ofAlias "Z") (.last (.item none (.group (.next
    (.next (.item none (.lookahead false (.last (.last (.ofAlias "X")))) none) (.last .arrow))
    (.last (.last (.ofAlias "Z"))))) (some ⟨.any, false⟩))))

def cueView : View where
  name := "cues"
  text := "bc"
  labelers := [
    ({ name := "Cue" }, .collecting #[⟨⟨0, 0⟩, .empty⟩]),
    ({ name := "Place" }, .collecting #[⟨⟨1, 2⟩, .empty⟩])]

def cueSearcher : Searcher := (cueView.searcherIn cuePattern ⟨0, 2⟩).1

def cueState (anchor : Anchor) : MatchState := ⟨0, anchor, some 0, some ⟨0, 0⟩⟩

theorem parse_cues : parse cueAliases "Z ((?=X) -> | Z)*" = .ok cuePattern :=
  parse_of_meaning cueTree (by decide +kernel) rfl

theorem cueView_proper : cueView.Proper := by
  simp [View.Proper, View.All, cueView, Labeler.All, Label.Proper]

theorem cues_swing : cueSearcher.matcher.Swings 2 cueBody (cueState .free, #[]) := by
  have hfree : cueSearcher.matcher.Leads 2 cueBody (cueState .free, #[]) (cueState .adjacent, #[]) :=
    ⟨⟨cueState .adjacent, #[], []⟩, .of_eq 0 (by decide +kernel), by decide +kernel, rfl⟩
  have hadjacent : cueSearcher.matcher.Leads 2 cueBody (cueState .adjacent, #[]) (cueState .free, #[]) :=
    ⟨⟨cueState .free, #[], [⟨0, 0, 0⟩]⟩, .of_eq 0 (by decide +kernel), by decide +kernel, rfl⟩
  refine ⟨fun i => (cueState (if i % 2 = 0 then .free else .adjacent), #[]), rfl, fun i => ?_⟩
  rcases Nat.mod_two_eq_zero_or_one i with hi | hi
  · have hnext : (i + 1) % 2 = 1 := by omega
    simp only [hi, hnext, if_true, Nat.one_ne_zero, if_false]
    exact ⟨hfree, rfl, rfl, .inl ⟨rfl, rfl⟩⟩
  · have hnext : (i + 1) % 2 = 0 := by omega
    simp only [hi, hnext, if_true, Nat.one_ne_zero, if_false]
    exact ⟨hadjacent, rfl, rfl, .inr ⟨rfl, rfl⟩⟩

theorem cueSearcher_hangs : cueSearcher.Hangs := by
  have hremaining : cueSearcher.remaining = [0, 1] := by
    rw [cueSearcher, searcherIn_eq_byInsertion]
    decide +kernel
  refine ⟨rfl, [], 0, [1], hremaining, .const none, ?_⟩
  exact @Matcher.Hangs.sequence _ _ [.label ⟨"Z", 0, []⟩] _ _ _ ⟨cueState .free, #[], [⟨0, 0, 0⟩]⟩ []
    (.of_eq 0 (by decide +kernel)) (.swings 0 cues_swing)

theorem returns_iff_not_hangs_cues :
    cueView.Proper ∧ cueSearcher = (cueView.searcherIn cuePattern ⟨0, 2⟩).1.after [] ∧
      (¬ ∃ n, ∀ k, n ≤ k → (cueSearcher.matcher.withLimit k).matchNode 2 (.repetition cueBody 0 none)
        (cueState .free) #[] ≠ .error .endless) ∧ ¬ cueSearcher.Returns := by
  have hcues : cueSearcher = (cueView.searcherIn cuePattern ⟨0, 2⟩).1.after [] := rfl
  obtain ⟨hmatch, hsearch⟩ := returns_iff_not_hangs cueView_proper cuePattern ⟨0, 2⟩ [] hcues
  refine ⟨cueView_proper, hcues, fun h => ?_, fun h => ?_⟩
  · exact (hmatch 2 _ _ _).1 h (.swings 0 cues_swing)
  · exact hsearch.1 h cueSearcher_hangs

/-- A repetition that makes the next label adjacent and consumes an empty one in turn never ends. -/
theorem not_always_returns :
    ¬ ∀ (table : AliasTable) (source : String) (pattern : Pattern) (view : View) (range : Span),
      parse table source = .ok pattern → view.Proper → (view.searcherIn pattern range).1.Returns := by
  intro h
  have hregular := regular_searcherIn cueView_proper cuePattern ⟨0, 2⟩
  exact (returns_iff hregular).1 (h _ _ _ _ ⟨0, 2⟩ parse_cues cueView_proper) cueSearcher_hangs

end Searcher

end TextAnnotation.Pattern
