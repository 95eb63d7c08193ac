import TextAnnotation.Proofs.Pattern.Rising

/-!
Matchers under ever larger limits on how often a repetition may match. All attempts of a node rise.
-/

namespace TextAnnotation.Pattern

namespace Matcher

open Attempt

/-- The matcher with another limit on repetitions without upper bound. -/
def withLimit (m : Matcher) (repetitions : Nat) : Matcher := { m with repetitionLimit := repetitions }

abbrev attempts (m : Matcher) (limit : Nat) (node : Node) (state : MatchState) (captures : Captures) :
    Nat → Attempt Accepted :=
  fun n => (m.withLimit n).evaluate limit node state captures

abbrev attemptsAll (m : Matcher) (limit : Nat) (nodes : List Node) (state : MatchState)
    (captures : Captures) : Nat → Attempt Accepted :=
  fun n => (m.withLimit n).evaluateAll limit nodes state captures

abbrev attemptsFirst (m : Matcher) (limit : Nat) (nodes : List Node) (state : MatchState)
    (captures : Captures) : Nat → Attempt Accepted :=
  fun n => (m.withLimit n).evaluateFirst limit nodes state captures

abbrev attemptsConditions (m : Matcher) (exact : Bool) (conditions : List Node) (captures : Captures)
    (span : Span) : Nat → Attempt Captures :=
  fun n => (m.withLimit n).evaluateConditions span exact conditions captures

section
variable (m : Matcher) (repetitions : Nat)

@[simp] theorem index_withLimit (slot : Nat) : (m.withLimit repetitions).index slot = m.index slot := rfl

@[simp] theorem predicatesHold_withLimit (captures : Captures) (kind : LabelKind) (label : Label)
    (predicates : List Predicate) :
    (m.withLimit repetitions).predicatesHold captures kind label predicates =
      m.predicatesHold captures kind label predicates := by
  induction predicates with
  | nil => rfl
  | cons predicate rest ih =>
    simp only [predicatesHold, ih]
    rfl

@[simp] theorem candidates_withLimit (search : Search) (kind : LabelKind) (captures : Captures)
    (nearest? : Option Nat) (position : Nat) (labels : List Label) :
    (m.withLimit repetitions).candidates search kind captures nearest? position labels =
      m.candidates search kind captures nearest? position labels := by
  induction labels generalizing nearest? position with
  | nil => rfl
  | cons label rest ih => simp only [candidates, predicatesHold_withLimit, ih]

@[simp] theorem evaluateLabel_withLimit (term : LabelTerm) (seek : Bool) (accepts : Span → Attempt Captures)
    (limit : Nat) (state : MatchState) (captures : Captures) :
    (m.withLimit repetitions).evaluateLabel term seek accepts limit state captures =
      m.evaluateLabel term seek accepts limit state captures := by
  simp only [evaluateLabel, index_withLimit, candidates_withLimit]
  rfl

@[simp] theorem evaluateLiteral_withLimit (literal : Literal) (limit : Nat) (state : MatchState)
    (captures : Captures) :
    (m.withLimit repetitions).evaluateLiteral literal limit state captures =
      m.evaluateLiteral literal limit state captures := rfl

end

theorem rising_firstAccepted {accepts : Nat → Span → Attempt Captures}
    (haccepts : ∀ span, Rising (accepts · span)) (candidates : List (Except MatchFault (Span × Nat))) :
    Rising fun n => firstAccepted (accepts n) candidates := by
  induction candidates with
  | nil => exact .const _
  | cons candidate rest ih =>
    rcases candidate with fault | ⟨span, position⟩
    · exact .const _
    · exact ((haccepts span).map fun written => ((span, position), written)).orElse ih

theorem rising_evaluateLabel (m : Matcher) (term : LabelTerm) (seek : Bool)
    {accepts : Nat → Span → Attempt Captures} (haccepts : ∀ span, Rising (accepts · span)) (limit : Nat)
    (state : MatchState) (captures : Captures) :
    Rising fun n => m.evaluateLabel term seek (accepts n) limit state captures := by
  simp only [evaluateLabel]
  split
  · exact .const _
  · exact (rising_firstAccepted haccepts _).map _

theorem iterate_stopsShortOf {short long : MatchState → Captures → Attempt Accepted} {bounded : Bool}
    (hbody : ∀ state captures, (short state captures).StopsShortOf (long state captures)) {n k : Nat}
    (hle : n ≤ k) (hbounded : bounded → n = k) (state : MatchState) (captures : Captures) :
    (iterate short bounded n state captures).StopsShortOf (iterate long bounded k state captures) := by
  induction n generalizing k state captures with
  | zero =>
    cases bounded with
    | true =>
      cases hbounded rfl
      exact .refl _
    | false =>
      -- The longer one tries the body as well, whatever it still may count.
      rcases hbody state captures with h | h
      · simp only [iterate, h]
        exact .inl rfl
      cases k with
      | zero =>
        simp only [iterate, h]
        exact .refl _
      | succ k =>
        simp only [iterate, h]
        rcases long state captures with fault | _ | next
        · exact .refl _
        · exact .refl _
        · exact .inl rfl
  | succ n ih =>
    obtain ⟨k, rfl⟩ : ∃ k', k = k' + 1 := ⟨k - 1, by omega⟩
    simp only [iterate, afterIteration]
    rcases hbody state captures with h | h
    · rw [h]
      exact .inl rfl
    rw [h]
    split
    · exact .refl _
    · exact .refl _
    split
    · exact .refl _
    · have hrest : bounded → n = k := fun h => Nat.succ.inj (hbounded h)
      exact (ih (Nat.le_of_succ_le_succ hle) hrest _ _).andThen fun _ => .refl _

/-- A body as often as it matches, where a missing maximum is one of the given limits. -/
def repeated (body : Nat → MatchState → Captures → Attempt Accepted) (maximum? : Option Nat)
    (state : MatchState) (captures : Captures) (n : Nat) : Attempt (Nat × Accepted) :=
  iterate (body n) maximum?.isSome (maximum?.getD n) state captures

theorem rising_repeated {body : Nat → MatchState → Captures → Attempt Accepted}
    (hbody : ∀ state captures, Rising (body · state captures)) (maximum? : Option Nat)
    (state : MatchState) (captures : Captures) : Rising (repeated body maximum? state captures) := by
  intro n k hle
  apply iterate_stopsShortOf fun state captures => hbody state captures n k hle
  · cases maximum? with
    | none => exact hle
    | some maximum => exact Nat.le_refl _
  · cases maximum? with
    | none => exact nofun
    | some maximum => exact fun _ => rfl

theorem rising_writeCapture (slot : Nat) (state : MatchState) (inner : Accepted) :
    Rising fun _ => writeCapture slot state inner := .const _

section
variable {m : Matcher} {limit : Nat} {nodes : List Node}

theorem rising_evaluateAll
    (hnodes : ∀ node ∈ nodes, ∀ state captures,
      Rising (m.attempts limit node state captures))
    (state : MatchState) (captures : Captures) :
    Rising (m.attemptsAll limit nodes state captures) := by
  induction nodes generalizing state captures with
  | nil => exact .const _
  | cons node rest ih =>
    obtain ⟨hnode, hrest⟩ := List.forall_mem_cons.1 hnodes
    exact (hnode state captures).andThen fun found => (ih hrest found.state found.captures).map _

theorem rising_evaluateFirst
    (hnodes : ∀ node ∈ nodes, ∀ state captures,
      Rising (m.attempts limit node state captures))
    (state : MatchState) (captures : Captures) :
    Rising (m.attemptsFirst limit nodes state captures) := by
  induction nodes with
  | nil => exact .const _
  | cons node rest ih =>
    obtain ⟨hnode, hrest⟩ := List.forall_mem_cons.1 hnodes
    exact (hnode state captures).orElse (ih hrest)

theorem rising_evaluateConditions {span : Span} {exact : Bool}
    (hnodes : ∀ node ∈ nodes, ∀ state captures,
      Rising (m.attempts span.stop node state captures)) (captures : Captures) :
    Rising (m.attemptsConditions exact nodes captures span) := by
  induction nodes generalizing captures with
  | nil => exact .const _
  | cons node rest ih =>
    obtain ⟨hnode, hrest⟩ := List.forall_mem_cons.1 hnodes
    exact (hnode _ captures).andThen fun inner => (ih hrest inner.captures).ite (.const (.ok none)) _

end

theorem rising_evaluate (m : Matcher) (limit : Nat) (node : Node) (state : MatchState)
    (captures : Captures) : Rising (m.attempts limit node state captures) := by
  induction node generalizing limit state captures with
  | sequence elements ih => exact rising_evaluateAll (fun node hmem => ih node hmem limit) state captures
  | alternation alternatives ih =>
    exact rising_evaluateFirst (fun node hmem => ih node hmem limit) state captures
  | adjacent => exact .const _
  | repetition body minimum maximum? ih =>
    exact (rising_repeated (fun state captures => ih limit state captures) maximum? state captures).andThen
      fun _ => .const _
  | capture slot body ih => exact (ih limit _ captures).andThen (rising_writeCapture slot state)
  | lookahead body negated ih => exact (ih limit state captures).strict rfl
  | label term =>
    unfold attempts
    simp only [evaluate, evaluateLabel_withLimit]
    exact .const _
  | pinned term seek exact conditions ih =>
    unfold attempts
    simp only [evaluate, evaluateLabel_withLimit]
    exact rising_evaluateLabel m term seek
      (fun span => rising_evaluateConditions (fun node hmem => ih node hmem span.stop) captures) limit state
      captures
  | literal literal =>
    unfold attempts
    simp only [evaluate, evaluateLiteral_withLimit]
    exact .const _

theorem rising_attemptsAll (m : Matcher) (limit : Nat) (nodes : List Node) (state : MatchState)
    (captures : Captures) : Rising (m.attemptsAll limit nodes state captures) :=
  rising_evaluateAll (fun node _ => m.rising_evaluate limit node) state captures

theorem rising_attemptsFirst (m : Matcher) (limit : Nat) (nodes : List Node) (state : MatchState)
    (captures : Captures) : Rising (m.attemptsFirst limit nodes state captures) :=
  rising_evaluateFirst (fun node _ => m.rising_evaluate limit node) state captures

theorem rising_attemptsConditions (m : Matcher) (exact : Bool) (conditions : List Node)
    (captures : Captures) (span : Span) : Rising (m.attemptsConditions exact conditions captures span) :=
  rising_evaluateConditions (fun node _ => m.rising_evaluate span.stop node) captures

end Matcher

end TextAnnotation.Pattern
