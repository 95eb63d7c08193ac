import TextAnnotation.Proofs.Pattern.Safety
import TextAnnotation.Proofs.Pattern.Calls

/-!
Counted repetitions and sequences of as many copies of their body. An iteration that leads nowhere ends a
repetition, and a counted one that ends before its count has failed, where the sequence goes on.
-/

namespace TextAnnotation.Pattern

namespace Matcher

open Attempt

/-- What a match comes to. What it leaves in the captures when it fails does not count. -/
def comesTo : Outcome → Attempt (MatchState × Captures)
  | .error fault => .error fault
  | .ok (none, _) => .ok none
  | .ok (some next, written) => .ok (some (next, written))

/-- Of `count` copies of a body one after the other, one before the last leads nowhere. -/
def StallsShort (m : Matcher) (limit : Nat) (body : Node) (count : Nat) (state : MatchState)
    (captures : Captures) : Prop :=
  ∃ before current next, before + 1 < count ∧
    comesTo (m.matchNode limit (.sequence (List.replicate before body)) state captures) = .ok (some current) ∧
    comesTo (m.matchNode limit body current.1 current.2) = .ok (some next) ∧
    stalled current.1 next.1 = true

section
variable (m : Matcher) (limit : Nat) (state : MatchState) (captures : Captures)

theorem comesTo_matchNode (node : Node) :
    comesTo (m.matchNode limit node state captures) =
      (m.evaluate limit node state captures).andThen fun found => .ok (some found.result) := by
  have hagrees := m.matchNode_agrees limit node state captures
  generalize m.matchNode limit node state captures = outcome at hagrees ⊢
  generalize m.evaluate limit node state captures = attempt at hagrees ⊢
  cases hagrees with
  | fault => rfl
  | failure => rfl
  | success => rfl

@[simp] theorem comesTo_sequence_nil :
    comesTo (m.matchNode limit (.sequence []) state captures) = .ok (some (state, captures)) := by
  simp only [matchNode, matchAll, comesTo]

theorem comesTo_sequence_cons (node : Node) (rest : List Node) :
    comesTo (m.matchNode limit (.sequence (node :: rest)) state captures) =
      (comesTo (m.matchNode limit node state captures)).andThen fun next =>
        comesTo (m.matchNode limit (.sequence rest) next.1 next.2) := by
  simp only [matchNode, matchAll, bind, Except.bind]
  rcases m.matchNode limit node state captures with fault | ⟨_ | next, written⟩
  · rfl
  · rfl
  · rfl

@[simp] theorem comesTo_repetition_zero (body : Node) :
    comesTo (m.matchNode limit (.repetition body 0 (some 0)) state captures) = .ok (some (state, captures)) := by
  simp [comesTo_matchNode, evaluate, iterate, Accepted.still]

/-- A counted repetition goes on after an iteration that led somewhere, and after the last one it is done. -/
theorem comesTo_repetition_succ (body : Node) (count : Nat) :
    comesTo (m.matchNode limit (.repetition body (count + 1) (some (count + 1))) state captures) =
      (comesTo (m.matchNode limit body state captures)).andThen fun next =>
        if stalled state next.1 = true ∧ 0 < count then .ok none
        else comesTo (m.matchNode limit (.repetition body count (some count)) next.1 next.2) := by
  simp only [comesTo_matchNode, evaluate, Option.isSome_some, Option.getD_some, iterate, afterIteration]
  rcases m.evaluate limit body state captures with fault | _ | next
  · rfl
  · simp
  simp only [andThen_some]
  by_cases hstalled : stalled state next.state = true
  · rcases count with _ | count
    · simp [hstalled, iterate, Accepted.still]
    · simp [hstalled]
  · rw [if_neg hstalled, if_neg (by simp [hstalled])]
    rcases iterate _ true count next.state next.captures with fault | _ | ⟨further, last⟩
    · rfl
    · rfl
    simp only [andThen_some, Nat.add_le_add_iff_right]
    split
    · rfl
    · rfl

end

section
variable {m : Matcher} {limit : Nat} {body : Node}

theorem stallsShort_succ_iff {count : Nat} {state : MatchState} {captures : Captures} :
    m.StallsShort limit body (count + 1) state captures ↔
      ∃ next, comesTo (m.matchNode limit body state captures) = .ok (some next) ∧
        (stalled state next.1 = true ∧ 0 < count ∨ m.StallsShort limit body count next.1 next.2) := by
  constructor
  · intro h
    obtain ⟨before, current, next, hlt, hbefore, hnext, hstalled⟩ := h
    cases before with
    | zero =>
      rw [List.replicate_zero, comesTo_sequence_nil] at hbefore
      cases hbefore
      exact ⟨next, hnext, .inl ⟨hstalled, by omega⟩⟩
    | succ before =>
      rw [List.replicate_succ, comesTo_sequence_cons] at hbefore
      obtain ⟨first, hfirst, hrest⟩ := andThen_eq_some_iff.1 hbefore
      exact ⟨first, hfirst, .inr ⟨before, current, next, by omega, hrest, hnext, hstalled⟩⟩
  · intro h
    obtain ⟨first, hfirst, ⟨hstalled, hcount⟩ | ⟨before, current, next, hlt, hbefore, hnext, hstalled⟩⟩ := h
    · exact ⟨0, (state, captures), first, by omega, comesTo_sequence_nil .., hfirst, hstalled⟩
    · refine ⟨before + 1, current, next, by omega, ?_, hnext, hstalled⟩
      rw [List.replicate_succ, comesTo_sequence_cons, hfirst]
      exact hbefore

theorem repetition_fails_of_stallsShort {count : Nat} {state : MatchState} {captures : Captures}
    (h : m.StallsShort limit body count state captures) :
    comesTo (m.matchNode limit (.repetition body count (some count)) state captures) = .ok none := by
  induction count generalizing state captures with
  | zero =>
    obtain ⟨before, _, _, hlt, _⟩ := h
    exact absurd hlt (Nat.not_lt_zero _)
  | succ count ih =>
    obtain ⟨next, hnext, hstalls⟩ := stallsShort_succ_iff.1 h
    rw [comesTo_repetition_succ, hnext, andThen_some]
    split
    · rfl
    · rename_i hgoes
      exact ih (hstalls.resolve_left hgoes)

theorem repetition_unrolls {count : Nat} {state : MatchState} {captures : Captures}
    (h : ¬ m.StallsShort limit body count state captures) :
    comesTo (m.matchNode limit (.repetition body count (some count)) state captures) =
      comesTo (m.matchNode limit (.sequence (List.replicate count body)) state captures) := by
  induction count generalizing state captures with
  | zero => rw [List.replicate_zero, comesTo_sequence_nil, comesTo_repetition_zero]
  | succ count ih =>
    rw [List.replicate_succ, comesTo_repetition_succ, comesTo_sequence_cons]
    rcases hnext : comesTo (m.matchNode limit body state captures) with fault | _ | next
    · rfl
    · rfl
    have hgoes : ¬ (stalled state next.1 = true ∧ 0 < count) := by
      intro hstalled
      exact h (stallsShort_succ_iff.2 ⟨next, hnext, .inl hstalled⟩)
    simp only [andThen_some, if_neg hgoes]
    apply ih
    intro hstalls
    exact h (stallsShort_succ_iff.2 ⟨next, hnext, .inr hstalls⟩)

end

/-- A counted repetition and the sequence of as many copies of its body come to the same if and only if no
iteration before the last leads nowhere, or the sequence fails too. Where such an iteration leads nowhere, the
repetition fails. -/
theorem repetition_unrolls_iff (m : Matcher) (limit : Nat) (body : Node) (count : Nat) (state : MatchState)
    (captures : Captures) :
    (comesTo (m.matchNode limit (.repetition body count (some count)) state captures) =
        comesTo (m.matchNode limit (.sequence (List.replicate count body)) state captures) ↔
      (m.StallsShort limit body count state captures →
        comesTo (m.matchNode limit (.sequence (List.replicate count body)) state captures) = .ok none)) ∧
    (m.StallsShort limit body count state captures →
      comesTo (m.matchNode limit (.repetition body count (some count)) state captures) = .ok none) := by
  refine ⟨⟨fun heq hstalls => ?_, fun h => ?_⟩, repetition_fails_of_stallsShort⟩
  · rw [← heq]
    exact repetition_fails_of_stallsShort hstalls
  · by_cases hstalls : m.StallsShort limit body count state captures
    · rw [h hstalls]
      exact repetition_fails_of_stallsShort hstalls
    · exact repetition_unrolls hstalls

end Matcher

namespace Searcher

def amountAliases : AliasTable :=
  ((AliasTable.register ⟨.empty, none⟩ "Cue" { name := "Cue" } []).register "Place" { name := "Place" } []).register
    "Number" { name := "Number" } []

/-- A place, or none. -/
def amountPlace : Node := .repetition (.label ⟨"Place", 1, []⟩) 0 (some 1)

def amountPattern : Pattern where
  source := "Cue (Place?){2} Number"
  root := .sequence [.label ⟨"Cue", 0, []⟩, .repetition amountPlace 2 (some 2), .label ⟨"Number", 2, []⟩]
  kinds := [{ name := "Cue" }, { name := "Place" }, { name := "Number" }]
  captureNames := []

def amountTree : Grammar.Alternation :=
  .last (.next (.ofAlias "Cue") (.next (.item none (.group (.last (.last
    (.item none (.label ⟨"Place", none⟩) (some ⟨.optional, false⟩))))) (some ⟨.exactly 2, false⟩))
    (.last (.ofAlias "Number"))))

def amountView : View where
  name := "amounts"
  text := "about 5"
  labelers := [
    ({ name := "Cue" }, .collecting #[⟨⟨0, 5⟩, .empty⟩]),
    ({ name := "Number" }, .collecting #[⟨⟨6, 7⟩, .empty⟩])]

def amountSearcher : Searcher := (amountView.searcherIn amountPattern ⟨0, 7⟩).1

/-- The state after the cue. -/
def amountState : MatchState := ⟨5, .free, some 0, some ⟨0, 0⟩⟩

theorem amountView_proper : amountView.Proper := by
  simp [View.Proper, View.All, amountView, Labeler.All, Label.Proper]

theorem reaches_amountPlace : amountSearcher.matcher.Reaches (amountSearcher.task 0)
    ⟨7, .repetition amountPlace 2 (some 2), amountState, #[]⟩ := by
  have hcue : amountSearcher.matcher.matchNode 7 (.label ⟨"Cue", 0, []⟩) { position := 0, anchor := .start } #[] =
      .ok (some amountState, #[]) := by decide +kernel
  exact .tail (.single (.goOn (.rest hcue))) (.goOn (.first ..))

theorem repetition_unrolls_iff_amounts :
    amountSearcher.matcher.StallsShort 7 amountPlace 2 amountState #[] ∧
      Matcher.comesTo (amountSearcher.matcher.matchNode 7 (.repetition amountPlace 2 (some 2)) amountState #[]) =
        .ok none := by
  have hstalls : amountSearcher.matcher.StallsShort 7 amountPlace 2 amountState #[] :=
    ⟨0, (amountState, #[]), (amountState, #[]), by decide, by decide +kernel, by decide +kernel, by decide +kernel⟩
  exact ⟨hstalls, (Matcher.repetition_unrolls_iff _ _ _ _ _ _).2 hstalls⟩

/-- Where there is no place, two optional places match one after the other and fail as a counted repetition. -/
theorem not_always_unrolls :
    ¬ ∀ (table : AliasTable) (source : String) (pattern : Pattern) (view : View) (range : Span)
      (candidate limit : Nat) (body : Node) (count : Nat) (state : MatchState) (captures : Captures),
      parse table source = .ok pattern → view.Proper →
      (view.searcherIn pattern range).1.matcher.Reaches ((view.searcherIn pattern range).1.task candidate)
        ⟨limit, .repetition body count (some count), state, captures⟩ → 0 < count →
      Matcher.comesTo ((view.searcherIn pattern range).1.matcher.matchNode limit
          (.repetition body count (some count)) state captures) =
        Matcher.comesTo ((view.searcherIn pattern range).1.matcher.matchNode limit
          (.sequence (List.replicate count body)) state captures) := by
  intro h
  have hparse : parse amountAliases "Cue (Place?){2} Number" = .ok amountPattern :=
    parse_of_meaning amountTree (by decide +kernel) rfl
  have hsame := h _ _ _ _ _ _ _ _ _ _ _ hparse amountView_proper reaches_amountPlace (by decide)
  have hcounted : Matcher.comesTo (amountSearcher.matcher.matchNode 7 (.repetition amountPlace 2 (some 2))
      amountState #[]) = .ok none := by decide +kernel
  have hunrolled : Matcher.comesTo (amountSearcher.matcher.matchNode 7 (.sequence (List.replicate 2 amountPlace))
      amountState #[]) = .ok (some (amountState, #[])) := by decide +kernel
  cases hcounted.symm.trans (hsame.trans hunrolled)

end Searcher

end TextAnnotation.Pattern
