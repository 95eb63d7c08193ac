import TextAnnotation.Proofs.Pattern.Attempt

/-!
Matching in place, where whoever tries something puts the captures back afterwards, and matching by
attempts with captures of their own come to the same.
-/

namespace TextAnnotation.Pattern

/-- A match in place and an attempt end in the same way. What a failed match has left in the captures does
not count. -/
inductive Agrees (result : β → α × Captures) :
    Except MatchFault (Option α × Captures) → Attempt β → Prop where
  | fault (fault : MatchFault) : Agrees result (.error fault) (.error fault)
  | failure (left : Captures) : Agrees result (.ok (none, left)) (.ok none)
  | success (found : β) : Agrees result (.ok (some (result found).1, (result found).2)) (.ok (some found))

/-- The same for the acceptance of a label. -/
inductive AcceptanceAgrees : Except MatchFault (Bool × Captures) → Attempt Captures → Prop where
  | fault (fault : MatchFault) : AcceptanceAgrees (.error fault) (.error fault)
  | failure (left : Captures) : AcceptanceAgrees (.ok (false, left)) (.ok none)
  | success (written : Captures) : AcceptanceAgrees (.ok (true, written)) (.ok (some written))

/-- The same for a repetition, of which `count` iterations lie behind. -/
inductive RepetitionAgrees (count : Nat) :
    Except MatchFault (Nat × MatchState × Captures) → Attempt (Nat × Accepted) → Prop where
  | fault (fault : MatchFault) : RepetitionAgrees count (.error fault) (.error fault)
  | success (further : Nat) (last : Accepted) :
    RepetitionAgrees count (.ok (count + further, last.state, last.captures)) (.ok (some (further, last)))

abbrev Accepted.result (found : Accepted) : MatchState × Captures := (found.state, found.captures)

theorem Agrees.accepted (state : MatchState) (captures : Captures) (consumed : List Piece) :
    Agrees Accepted.result (.ok (some state, captures)) (.ok (some ⟨state, captures, consumed⟩)) :=
  @Agrees.success _ _ Accepted.result ⟨state, captures, consumed⟩

namespace Matcher

theorem pick_agrees (m : Matcher) (search : Search) (kind : LabelKind)
    {accepts : Span → Captures → Except MatchFault (Bool × Captures)} {accepts' : Span → Attempt Captures}
    {captures : Captures} (haccepts : ∀ span, AcceptanceAgrees (accepts span captures) (accepts' span))
    (nearest? : Option Nat) (position : Nat) (labels : List Label) :
    Agrees id (m.pick search kind accepts nearest? position labels captures)
      (firstAccepted accepts' (m.candidates search kind captures nearest? position labels)) := by
  induction labels generalizing nearest? position with
  | nil => exact .failure captures
  | cons label rest ih =>
    simp only [pick, candidates]
    split
    · exact .failure captures
    split
    · exact ih _ _
    rcases m.predicatesHold captures kind label search.term.predicates with fault | _ | _
    · exact .fault fault
    · exact ih _ _
    · have h := haccepts label.span
      simp only [bind, Except.bind, firstAccepted, if_true]
      generalize accepts label.span captures = outcome at h ⊢
      generalize accepts' label.span = attempt at h ⊢
      cases h with
      | fault fault => exact .fault fault
      | failure left => exact ih _ _
      | success written => exact @Agrees.success _ _ id ((label.span, position), written)

theorem matchLabel_agrees (m : Matcher) (term : LabelTerm) (seek : Bool)
    {accepts : Span → Captures → Except MatchFault (Bool × Captures)} {accepts' : Span → Attempt Captures}
    {captures : Captures} (haccepts : ∀ span, AcceptanceAgrees (accepts span captures) (accepts' span))
    (limit : Nat) (state : MatchState) :
    Agrees Accepted.result (m.matchLabel term seek accepts limit state captures)
      (m.evaluateLabel term seek accepts' limit state captures) := by
  simp only [matchLabel, evaluateLabel]
  rcases m.index term.slot with fault | frozen
  · exact .fault fault
  have h := m.pick_agrees (m.searchFor term seek limit state) frozen.kind haccepts none
    (frozen.index.lowerBound state.position) (frozen.index.following state.position)
  simp only [searchFor] at h ⊢
  simp only [bind, Except.bind]
  generalize m.pick _ _ _ _ _ _ _ = outcome at h ⊢
  generalize firstAccepted _ _ = attempt at h ⊢
  cases h with
  | fault fault => exact .fault fault
  | failure left => exact .failure left
  | success found => exact .accepted _ _ _

theorem matchLiteral_agrees (m : Matcher) (literal : Literal) (limit : Nat) (state : MatchState)
    (captures : Captures) :
    Agrees Accepted.result
      (do return (← m.matchLiteral literal limit state, captures))
      (m.evaluateLiteral literal limit state captures) := by
  simp only [evaluateLiteral]
  rcases m.matchLiteral literal limit state with fault | _ | next
  · exact .fault fault
  · exact .failure captures
  · exact .accepted _ _ _

theorem repeatUpTo_agrees {body : MatchState → Captures → Outcome}
    {body' : MatchState → Captures → Attempt Accepted}
    (hbody : ∀ state captures, Agrees Accepted.result (body state captures) (body' state captures))
    (bounded : Bool) (count more : Nat) (state : MatchState) (captures : Captures) :
    RepetitionAgrees count (repeatUpTo body bounded count more state captures)
      (iterate body' bounded more state captures) := by
  induction more generalizing count state captures with
  | zero =>
    cases bounded with
    | true => exact .success 0 (.still state captures)
    | false =>
      have h := hbody state captures
      simp only [repeatUpTo, iterate]
      generalize body state captures = outcome at h ⊢
      generalize body' state captures = attempt at h ⊢
      cases h with
      | fault fault => exact .fault fault
      | failure left => exact .success 0 (.still state captures)
      | success found => exact .fault .endless
  | succ more ih =>
    have h := hbody state captures
    simp only [repeatUpTo, iterate, afterIteration]
    generalize body state captures = outcome at h ⊢
    generalize body' state captures = attempt at h ⊢
    cases h with
    | fault fault => exact .fault fault
    | failure left => exact .success 0 (.still state captures)
    | success found =>
      have hrest := ih (count + 1) found.state found.captures
      by_cases hstalled : stalled state found.state = true
      · simp only [bind, Except.bind, if_pos hstalled]
        exact .success 1 found
      simp only [bind, Except.bind, if_neg hstalled]
      generalize repeatUpTo body bounded (count + 1) more _ _ = outcome at hrest ⊢
      generalize iterate body' bounded more _ _ = attempt at hrest ⊢
      cases hrest with
      | fault fault => exact .fault fault
      | success further last =>
        rw [show count + 1 + further = count + (further + 1) by omega]
        exact .success (further + 1) (found.followedBy last)

theorem matchAll_agrees {m : Matcher} {nodes : List Node} {limit : Nat}
    (h : ∀ node ∈ nodes, ∀ state captures, Agrees Accepted.result
      (m.matchNode limit node state captures) (m.evaluate limit node state captures))
    (state : MatchState) (captures : Captures) :
    Agrees Accepted.result (m.matchAll limit nodes state captures)
      (m.evaluateAll limit nodes state captures) := by
  induction nodes generalizing state captures with
  | nil => exact .accepted _ _ _
  | cons node rest ih =>
    have hnode := h node List.mem_cons_self state captures
    simp only [matchAll, evaluateAll]
    generalize m.matchNode limit node state captures = outcome at hnode ⊢
    generalize m.evaluate limit node state captures = attempt at hnode ⊢
    cases hnode with
    | fault fault => exact .fault fault
    | failure left => exact .failure left
    | success found =>
      have hrest := ih (fun node hmem => h node (List.mem_cons_of_mem _ hmem)) found.state found.captures
      simp only [bind, Except.bind, Attempt.andThen_some]
      generalize m.matchAll limit rest found.state found.captures = outcome at hrest ⊢
      generalize m.evaluateAll limit rest found.state found.captures = attempt at hrest ⊢
      cases hrest with
      | fault fault => exact .fault fault
      | failure left => exact .failure left
      | success last => exact .accepted _ _ _

theorem matchFirst_agrees {m : Matcher} {nodes : List Node} {limit : Nat}
    (h : ∀ node ∈ nodes, ∀ state captures, Agrees Accepted.result
      (m.matchNode limit node state captures) (m.evaluate limit node state captures))
    (state : MatchState) (captures : Captures) :
    Agrees Accepted.result (m.matchFirst limit nodes state captures)
      (m.evaluateFirst limit nodes state captures) := by
  induction nodes with
  | nil => exact .failure captures
  | cons node rest ih =>
    have hnode := h node List.mem_cons_self state captures
    simp only [matchFirst, evaluateFirst]
    generalize m.matchNode limit node state captures = outcome at hnode ⊢
    generalize m.evaluate limit node state captures = attempt at hnode ⊢
    cases hnode with
    | fault fault => exact .fault fault
    | failure left => exact ih fun node hmem => h node (List.mem_cons_of_mem _ hmem)
    | success found => exact .success found

theorem conditionsHold_agrees {m : Matcher} {nodes : List Node} {span : Span} (exact : Bool)
    (h : ∀ node ∈ nodes, ∀ state captures, Agrees Accepted.result
      (m.matchNode span.stop node state captures) (m.evaluate span.stop node state captures))
    (captures : Captures) :
    AcceptanceAgrees (m.conditionsHold span exact nodes captures)
      (m.evaluateConditions span exact nodes captures) := by
  induction nodes generalizing captures with
  | nil => exact .success captures
  | cons node rest ih =>
    have hnode := h node List.mem_cons_self { position := span.start, anchor := .free } captures
    simp only [conditionsHold, evaluateConditions]
    generalize m.matchNode span.stop node _ captures = outcome at hnode ⊢
    generalize m.evaluate span.stop node _ captures = attempt at hnode ⊢
    cases hnode with
    | fault fault => exact .fault fault
    | failure left => exact .failure left
    | success found =>
      simp only [bind, Except.bind, Attempt.andThen_some]
      change AcceptanceAgrees (if fits span exact found then m.conditionsHold span exact rest found.captures
        else .ok (false, found.captures)) _
      split
      · exact ih (fun node hmem => h node (List.mem_cons_of_mem _ hmem)) found.captures
      · exact .failure found.captures

theorem matchNode_agrees (m : Matcher) (limit : Nat) (node : Node) (state : MatchState)
    (captures : Captures) :
    Agrees Accepted.result (m.matchNode limit node state captures)
      (m.evaluate limit node state captures) := by
  induction node generalizing limit state captures with
  | sequence elements ih =>
    simp only [matchNode, evaluate]
    exact matchAll_agrees (fun node hmem state captures => ih node hmem limit state captures) state captures
  | alternation alternatives ih =>
    simp only [matchNode, evaluate]
    exact matchFirst_agrees (fun node hmem state captures => ih node hmem limit state captures) state captures
  | adjacent => exact .accepted _ _ _
  | repetition body minimum maximum? ih =>
    have h := repeatUpTo_agrees (fun state captures => ih limit state captures) maximum?.isSome 0
      (maximum?.getD m.repetitionLimit) state captures
    simp only [matchNode, evaluate]
    generalize repeatUpTo _ _ _ _ _ _ = outcome at h ⊢
    generalize iterate _ _ _ _ _ = attempt at h ⊢
    cases h with
    | fault fault => exact .fault fault
    | success further last =>
      simp only [bind, Except.bind, Attempt.andThen_some, Nat.zero_add]
      split
      · exact .accepted _ _ _
      · exact .failure _
  | capture slot body ih =>
    have h := ih limit { state with begin? := none, last? := none } captures
    simp only [matchNode, evaluate]
    generalize m.matchNode limit body _ captures = outcome at h ⊢
    generalize m.evaluate limit body _ captures = attempt at h ⊢
    cases h with
    | fault fault => exact .fault fault
    | failure left => exact .failure left
    | success inner =>
      simp only [bind, Except.bind, Attempt.andThen_some, writeCapture]
      cases inner.state.begin? with
      | none => exact .accepted _ _ _
      | some start =>
        simp only
        cases Span.between start inner.state.position with
        | error bounds => exact .fault _
        | ok span =>
          simp only
          split
          · exact .accepted _ _ _
          · exact .fault _
  | lookahead body negated ih =>
    have h := ih limit state captures
    simp only [matchNode, evaluate]
    generalize m.matchNode limit body state captures = outcome at h ⊢
    generalize m.evaluate limit body state captures = attempt at h ⊢
    cases h with
    | fault fault => exact .fault fault
    | failure left =>
      cases negated
      · exact .failure captures
      · exact .accepted _ _ _
    | success found =>
      cases negated
      · exact .accepted _ _ _
      · exact .failure captures
  | label term =>
    simp only [matchNode, evaluate]
    exact m.matchLabel_agrees term false (fun _ => .success captures) limit state
  | pinned term seek exact conditions ih =>
    simp only [matchNode, evaluate]
    apply m.matchLabel_agrees term seek
    intro span
    exact conditionsHold_agrees exact
      (fun node hmem state captures => ih node hmem span.stop state captures) captures
  | literal literal =>
    simp only [matchNode, evaluate]
    exact m.matchLiteral_agrees literal limit state captures

end Matcher

end TextAnnotation.Pattern
