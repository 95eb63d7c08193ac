import TextAnnotation.Proofs.Pattern.Limit

/-!
Where an attempt runs into every limit. An endless attempt of several nodes comes to one of them that is
endless, after others that have been settled.
-/

namespace TextAnnotation.Pattern.Matcher

open Attempt

section
variable {m : Matcher} {limit : Nat} {state : MatchState} {captures : Captures}

theorem endless_evaluateAll_cons_iff {node : Node} {rest : List Node} :
    Endless (m.attemptsAll limit (node :: rest) state captures) ↔
      Endless (m.attempts limit node state captures) ∨
        ∃ found, Yields (m.attempts limit node state captures) (.ok (some found)) ∧
          Endless (m.attemptsAll limit rest found.state found.captures) := by
  have hrest (found : Accepted) := m.rising_attemptsAll limit rest found.state found.captures
  apply Iff.trans (endless_andThen_iff (m.rising_evaluate limit node state captures) fun found =>
    (hrest found).map found.followedBy)
  simp only [endless_map_iff (hrest _)]

theorem endless_evaluateAll_iff {nodes : List Node} :
    Endless (m.attemptsAll limit nodes state captures) ↔
      ∃ earlier node later found, nodes = earlier ++ node :: later ∧
        Yields (m.attemptsAll limit earlier state captures) (.ok (some found)) ∧
        Endless (m.attempts limit node found.state found.captures) := by
  constructor
  · intro h
    induction nodes generalizing state captures with
    | nil => cases h 0
    | cons node rest ih =>
      rcases endless_evaluateAll_cons_iff.1 h with hnode | ⟨found, hfound, hrest⟩
      · exact ⟨[], node, rest, .still state captures, rfl, .const _, hnode⟩
      · obtain ⟨earlier, next, later, last, rfl, hearlier, hnext⟩ := ih hrest
        have hrising (found : Accepted) := m.rising_attemptsAll limit earlier found.state found.captures
        have hall : Yields (m.attemptsAll limit (node :: earlier) state captures)
            (.ok (some (found.followedBy last))) :=
          hfound.andThen (m.rising_evaluate limit node state captures)
            (fun found => (hrising found).map found.followedBy) (hearlier.map (hrising found) _)
        exact ⟨node :: earlier, next, later, found.followedBy last, rfl, hall, hnext⟩
  · intro h
    obtain ⟨earlier, node, later, found, rfl, hearlier, hnode⟩ := h
    induction earlier generalizing state captures found with
    | nil =>
      obtain ⟨_, _, heq⟩ := hearlier
      cases heq
      exact endless_evaluateAll_cons_iff.2 (.inl hnode)
    | cons first rest ih =>
      obtain ⟨next, hnext, hrest⟩ := hearlier.of_andThen
      obtain ⟨last, hlast, heq⟩ := hrest.of_andThen
      obtain ⟨_, _, heq⟩ := heq
      cases heq
      exact endless_evaluateAll_cons_iff.2 (.inr ⟨next, hnext, ih last hlast hnode⟩)

theorem endless_evaluateFirst_cons_iff {node : Node} {rest : List Node} :
    Endless (m.attemptsFirst limit (node :: rest) state captures) ↔
      Endless (m.attempts limit node state captures) ∨
        Yields (m.attempts limit node state captures) (.ok none) ∧
          Endless (m.attemptsFirst limit rest state captures) :=
  endless_orElse_iff (m.rising_evaluate limit node state captures)
    (m.rising_attemptsFirst limit rest state captures)

theorem endless_evaluateFirst_iff {nodes : List Node} :
    Endless (m.attemptsFirst limit nodes state captures) ↔
      ∃ earlier node later, nodes = earlier ++ node :: later ∧
        Yields (m.attemptsFirst limit earlier state captures) (.ok none) ∧
        Endless (m.attempts limit node state captures) := by
  constructor
  · intro h
    induction nodes with
    | nil => cases h 0
    | cons node rest ih =>
      rcases endless_evaluateFirst_cons_iff.1 h with hnode | ⟨hfails, hrest⟩
      · exact ⟨[], node, rest, rfl, .const none, hnode⟩
      · obtain ⟨earlier, next, later, rfl, hearlier, hnext⟩ := ih hrest
        have hfirst : Yields (m.attemptsFirst limit (node :: earlier) state captures) (.ok none) :=
          hfails.orElse (m.rising_evaluate limit node state captures)
            (m.rising_attemptsFirst limit earlier state captures) hearlier
        exact ⟨node :: earlier, next, later, rfl, hfirst, hnext⟩
  · intro h
    obtain ⟨earlier, node, later, rfl, hearlier, hnode⟩ := h
    induction earlier with
    | nil => exact endless_evaluateFirst_cons_iff.2 (.inl hnode)
    | cons first rest ih =>
      obtain ⟨hfirst, hrest⟩ := hearlier.of_orElse
      exact endless_evaluateFirst_cons_iff.2 (.inr ⟨hfirst, ih hrest⟩)

theorem endless_evaluateConditions_cons_iff {span : Span} {exact : Bool} {condition : Node}
    {rest : List Node} :
    Endless (m.attemptsConditions exact (condition :: rest) captures span) ↔
      Endless (m.attempts span.stop condition { position := span.start, anchor := .free } captures) ∨
        ∃ inner, Yields (m.attempts span.stop condition { position := span.start, anchor := .free } captures)
            (.ok (some inner)) ∧
          fits span exact inner = true ∧
          Endless (m.attemptsConditions exact rest inner.captures span) := by
  apply Iff.trans (endless_andThen_iff (m.rising_evaluate span.stop condition _ captures) fun inner =>
    (m.rising_attemptsConditions exact rest inner.captures span).ite (.const (.ok none)) _)
  apply or_congr_right
  apply exists_congr
  intro inner
  apply and_congr_right
  intro _
  cases fits span exact inner with
  | false => exact ⟨fun h => (nomatch h 0), fun h => absurd h.1 Bool.false_ne_true⟩
  | true => exact ⟨fun h => ⟨rfl, h⟩, And.right⟩

theorem endless_evaluateConditions_iff {span : Span} {exact : Bool} {conditions : List Node} :
    Endless (m.attemptsConditions exact conditions captures span) ↔
      ∃ before condition after written, conditions = before ++ condition :: after ∧
        Yields (m.attemptsConditions exact before captures span) (.ok (some written)) ∧
        Endless (m.attempts span.stop condition { position := span.start, anchor := .free } written) := by
  constructor
  · intro h
    induction conditions generalizing captures with
    | nil => cases h 0
    | cons condition rest ih =>
      rcases endless_evaluateConditions_cons_iff.1 h with hcondition | ⟨inner, hinner, hfits, hrest⟩
      · exact ⟨[], condition, rest, captures, rfl, .const _, hcondition⟩
      · obtain ⟨before, next, after, written, rfl, hbefore, hnext⟩ := ih hrest
        have hall : Yields (m.attemptsConditions exact (condition :: before) captures span)
            (.ok (some written)) := by
          apply hinner.andThen (m.rising_evaluate span.stop condition _ captures)
          · intro inner
            exact (m.rising_attemptsConditions exact before inner.captures span).ite (.const (.ok none)) _
          · simpa only [hfits, if_true] using hbefore
        exact ⟨condition :: before, next, after, written, rfl, hall, hnext⟩
  · intro h
    obtain ⟨before, condition, after, written, rfl, hbefore, hcondition⟩ := h
    induction before generalizing captures with
    | nil =>
      obtain ⟨_, _, heq⟩ := hbefore
      cases heq
      exact endless_evaluateConditions_cons_iff.2 (.inl hcondition)
    | cons first rest ih =>
      obtain ⟨inner, hinner, hrest⟩ := hbefore.of_andThen
      cases hfits : fits span exact inner with
      | false =>
        simp only [hfits] at hrest
        obtain ⟨_, _, heq⟩ := hrest
        cases heq
      | true =>
        simp only [hfits, if_true] at hrest
        exact endless_evaluateConditions_cons_iff.2 (.inr ⟨inner, hinner, hfits, ih hrest⟩)

end

theorem bind_ne_endless {x : Except MatchFault α} {f : α → Except MatchFault β} (hx : x ≠ .error .endless)
    (hf : ∀ a, f a ≠ .error .endless) : (x >>= f) ≠ .error .endless := by
  rcases x with fault | a
  · intro h
    cases h
    exact hx rfl
  · exact hf a

theorem captured?_ne_endless (captures : Captures) (slot : Nat) :
    captured? captures slot ≠ .error .endless := by
  unfold captured?
  split <;> nofun

theorem index_ne_endless (m : Matcher) (slot : Nat) : m.index slot ≠ .error .endless := by
  unfold index
  split <;> nofun

theorem label_ne_endless (m : Matcher) (ref : LabelRef) : m.label ref ≠ .error .endless := by
  apply bind_ne_endless (m.index_ne_endless ref.slot)
  intro frozen
  split <;> nofun

theorem predicateHolds_ne_endless (m : Matcher) (captures : Captures) (kind : LabelKind) (label : Label)
    (predicate : Predicate) : m.predicateHolds captures kind label predicate ≠ .error .endless := by
  simp only [predicateHolds]
  split
  · nofun
  · apply bind_ne_endless (captured?_ne_endless captures _)
    intro captured
    split <;> nofun
  · apply bind_ne_endless (captured?_ne_endless captures _)
    intro captured
    split
    · exact bind_ne_endless (m.label_ne_endless _) fun _ => nofun
    · nofun

theorem predicatesHold_ne_endless (m : Matcher) (captures : Captures) (kind : LabelKind) (label : Label)
    (predicates : List Predicate) : m.predicatesHold captures kind label predicates ≠ .error .endless := by
  induction predicates with
  | nil => nofun
  | cons predicate rest ih =>
    apply bind_ne_endless (m.predicateHolds_ne_endless captures kind label predicate)
    intro holds
    cases holds with
    | false => nofun
    | true => exact ih

theorem endless_notMem_candidates (m : Matcher) (search : Search) (kind : LabelKind) (captures : Captures)
    (nearest? : Option Nat) (position : Nat) (labels : List Label) :
    .error .endless ∉ m.candidates search kind captures nearest? position labels := by
  induction labels generalizing nearest? position with
  | nil => simp [candidates]
  | cons label rest ih =>
    have hpredicates := m.predicatesHold_ne_endless captures kind label search.term.predicates
    simp only [candidates]
    split
    · simp
    split
    · exact ih _ _
    split
    · rename_i fault heq
      rw [heq] at hpredicates
      simpa [eq_comm] using hpredicates
    · simpa using ih _ _
    · exact ih _ _

theorem endless_firstAccepted_cons_iff {accepts : Nat → Span → Attempt Captures}
    (haccepts : ∀ span, Rising (accepts · span)) {span : Span} {position : Nat}
    {rest : List (Except MatchFault (Span × Nat))} :
    (Endless fun n => firstAccepted (accepts n) (.ok (span, position) :: rest)) ↔
      Endless (accepts · span) ∨
        Yields (accepts · span) (.ok none) ∧ Endless fun n => firstAccepted (accepts n) rest := by
  apply Iff.trans (endless_orElse_iff ((haccepts span).map fun written => ((span, position), written))
    (rising_firstAccepted haccepts rest))
  rw [endless_map_iff (haccepts span), yields_map_none_iff]

theorem endless_firstAccepted_iff {accepts : Nat → Span → Attempt Captures}
    (haccepts : ∀ span, Rising (accepts · span)) {candidates : List (Except MatchFault (Span × Nat))}
    (hcandidates : .error .endless ∉ candidates) :
    (Endless fun n => firstAccepted (accepts n) candidates) ↔
      ∃ rejected span position rest, candidates = rejected ++ .ok (span, position) :: rest ∧
        Yields (fun n => firstAccepted (accepts n) rejected) (.ok none) ∧ Endless (accepts · span) := by
  constructor
  · intro h
    induction candidates with
    | nil => cases h 0
    | cons candidate rest ih =>
      rcases candidate with fault | ⟨span, position⟩
      · cases h 0
        exact absurd List.mem_cons_self hcandidates
      rcases (endless_firstAccepted_cons_iff haccepts).1 h with hspan | ⟨hrejected, hrest⟩
      · exact ⟨[], span, position, rest, rfl, .const none, hspan⟩
      · obtain ⟨rejected, next, place, later, rfl, hlater, hnext⟩ :=
          ih (fun hmem => hcandidates (List.mem_cons_of_mem _ hmem)) hrest
        have hall : Yields (fun n => firstAccepted (accepts n) (.ok (span, position) :: rejected))
            (.ok none) :=
          ((yields_map_none_iff _).2 hrejected).orElse ((haccepts span).map _)
            (rising_firstAccepted haccepts rejected) hlater
        exact ⟨.ok (span, position) :: rejected, next, place, later, rfl, hall, hnext⟩
  · intro h
    obtain ⟨rejected, span, position, rest, rfl, hrejected, hspan⟩ := h
    clear hcandidates
    induction rejected with
    | nil => exact (endless_firstAccepted_cons_iff haccepts).2 (.inl hspan)
    | cons first others ih =>
      rcases first with fault | ⟨other, place⟩
      · obtain ⟨_, _, heq⟩ := hrejected
        cases heq
      obtain ⟨hfirst, hothers⟩ := hrejected.of_orElse
      exact (endless_firstAccepted_cons_iff haccepts).2
        (.inr ⟨(yields_map_none_iff _).1 hfirst, ih hothers⟩)

theorem rising_afterIteration {rest : Nat → MatchState → Captures → Attempt (Nat × Accepted)}
    (hrest : ∀ state captures, Rising (rest · state captures)) (state : MatchState) (captures : Captures)
    (result : Attempt Accepted) : Rising fun n => afterIteration state captures (rest n) result := by
  rcases result with fault | _ | next
  · exact .const _
  · exact .const _
  · exact (Rising.const (.ok (some (1, next)))).ite ((hrest next.state next.captures).map _) _

theorem endless_afterIteration_iff {rest : Nat → MatchState → Captures → Attempt (Nat × Accepted)}
    (hrest : ∀ state captures, Rising (rest · state captures)) {state : MatchState} {captures : Captures}
    {result : Attempt Accepted} (hresult : result ≠ .error .endless) :
    (Endless fun n => afterIteration state captures (rest n) result) ↔
      ∃ next, result = .ok (some next) ∧ stalled state next.state = false ∧
        Endless (rest · next.state next.captures) := by
  rcases result with fault | _ | next
  · constructor
    · intro h
      cases h 0
      exact absurd rfl hresult
    · intro h
      obtain ⟨next, heq, _⟩ := h
      cases heq
  · constructor
    · intro h
      cases h 0
    · intro h
      obtain ⟨next, heq, _⟩ := h
      cases heq
  have hmap := endless_map_iff (hrest next.state next.captures)
    fun counted => (counted.1 + 1, next.followedBy counted.2)
  constructor
  · intro h
    cases hstalled : stalled state next.state with
    | true =>
      have hfirst := h 0
      simp only [afterIteration, hstalled, if_true] at hfirst
      cases hfirst
    | false =>
      have hrest : Endless (rest · next.state next.captures) := by
        apply hmap.1
        intro n
        simpa only [afterIteration, hstalled, Bool.false_eq_true, if_false] using h n
      exact ⟨next, rfl, hstalled, hrest⟩
  · intro h n
    obtain ⟨_, heq, hstalled, h⟩ := h
    cases heq
    simpa only [afterIteration, hstalled, Bool.false_eq_true, if_false] using hmap.2 h n

theorem endless_repeated_none_iff_succ {body : Nat → MatchState → Captures → Attempt Accepted}
    (hbody : ∀ state captures, Rising (body · state captures)) {state : MatchState} {captures : Captures} :
    Endless (repeated body none state captures) ↔
      Endless fun n => iterate (body n) false (n + 1) state captures := by
  constructor
  · intro h n
    have hmore := @iterate_stopsShortOf (body n) (body (n + 1)) false
      (fun state captures => hbody state captures n (n + 1) (Nat.le_succ n)) (n + 1) (n + 1) (Nat.le_refl _)
      nofun state captures
    rcases hmore with hmore | hmore
    · exact hmore
    · exact hmore.trans (h (n + 1))
  · intro h n
    have hmore := @iterate_stopsShortOf (body n) (body n) false (fun state captures => .refl _) n (n + 1)
      (Nat.le_succ n) nofun state captures
    rcases hmore with hmore | hmore
    · exact hmore
    · exact hmore.trans (h n)

theorem endless_repeated_iff {body : Nat → MatchState → Captures → Attempt Accepted}
    (hbody : ∀ state captures, Rising (body · state captures)) {maximum? : Option Nat}
    (hmaximum : maximum? ≠ some 0) {state : MatchState} {captures : Captures} :
    Endless (repeated body maximum? state captures) ↔
      Endless (body · state captures) ∨
        ∃ next, Yields (body · state captures) (.ok (some next)) ∧ stalled state next.state = false ∧
          Endless (repeated body (maximum?.map (· - 1)) next.state next.captures) := by
  have hrest := rising_repeated hbody (maximum?.map (· - 1))
  have hstep : Endless (repeated body maximum? state captures) ↔
      Endless fun n => afterIteration state captures
        (fun state captures => repeated body (maximum?.map (· - 1)) state captures n)
        (body n state captures) := by
    rcases maximum? with _ | _ | maximum
    · exact endless_repeated_none_iff_succ hbody
    · exact absurd rfl hmaximum
    · exact Iff.rfl
  rw [hstep]
  apply Iff.trans (@endless_strict_iff _ _ _
    (fun n result => afterIteration state captures
      (fun state captures => repeated body (maximum?.map (· - 1)) state captures n) result)
    (hbody state captures) (fun _ => rfl) (rising_afterIteration hrest state captures))
  apply or_congr_right
  constructor
  · intro h
    obtain ⟨result, hyields, h⟩ := h
    obtain ⟨next, rfl, hstalled, h⟩ := (endless_afterIteration_iff hrest hyields.1).1 h
    exact ⟨next, hyields, hstalled, h⟩
  · intro h
    obtain ⟨next, hyields, hstalled, h⟩ := h
    exact ⟨_, hyields, (endless_afterIteration_iff hrest hyields.1).2 ⟨next, rfl, hstalled, h⟩⟩

section
variable {m : Matcher} {limit : Nat} {state : MatchState} {captures : Captures}

theorem endless_repetition_iff {body : Node} {minimum : Nat} {maximum? : Option Nat} :
    Endless (m.attempts limit (.repetition body minimum maximum?) state captures) ↔
      Endless (repeated (fun n state captures => m.attempts limit body state captures n) maximum? state
        captures) :=
  endless_andThen_const_iff (rising_repeated (m.rising_evaluate limit body) maximum? state captures) nofun

theorem endless_capture_iff {slot : Nat} {body : Node} :
    Endless (m.attempts limit (.capture slot body) state captures) ↔
      Endless (m.attempts limit body { state with begin? := none, last? := none } captures) := by
  apply endless_andThen_const_iff (m.rising_evaluate limit body _ captures)
  intro inner
  unfold writeCapture
  split
  · nofun
  split
  · nofun
  split <;> nofun

theorem endless_lookahead_iff {body : Node} {negated : Bool} :
    Endless (m.attempts limit (.lookahead body negated) state captures) ↔
      Endless (m.attempts limit body state captures) := by
  apply Iff.trans (@endless_strict_iff _ _ _ (fun _ => lookAround negated state captures)
    (m.rising_evaluate limit body state captures) (fun _ => rfl) fun _ => .const _)
  apply or_iff_left
  intro h
  obtain ⟨result, hyields, h⟩ := h
  rcases result with fault | _ | found
  · cases h 0
    exact hyields.1 rfl
  · cases h 0
  · cases h 0

theorem endless_evaluateLabel_iff {term : LabelTerm} {seek : Bool}
    {accepts : Nat → Span → Attempt Captures} (haccepts : ∀ span, Rising (accepts · span)) :
    (Endless fun n => m.evaluateLabel term seek (accepts n) limit state captures) ↔
      ∃ frozen rejected span position rest, m.index term.slot = .ok frozen ∧
        m.candidates (m.searchFor term seek limit state) frozen.kind captures none
          (frozen.index.lowerBound state.position) (frozen.index.following state.position) =
          rejected ++ .ok (span, position) :: rest ∧
        Yields (fun n => firstAccepted (accepts n) rejected) (.ok none) ∧ Endless (accepts · span) := by
  have hindex := m.index_ne_endless term.slot
  simp only [evaluateLabel]
  generalize m.index term.slot = indexed at hindex ⊢
  rcases indexed with fault | frozen
  · constructor
    · intro h
      have hfault : Except.error fault = .error .endless := h 0
      cases hfault
      exact absurd rfl hindex
    · intro h
      obtain ⟨frozen, _, _, _, _, heq, _⟩ := h
      cases heq
  apply Iff.trans (endless_map_iff (rising_firstAccepted haccepts _) _)
  apply Iff.trans (endless_firstAccepted_iff haccepts (m.endless_notMem_candidates _ _ _ _ _ _))
  constructor
  · intro h
    obtain ⟨rejected, span, position, rest, hcandidates, hrejected, h⟩ := h
    exact ⟨frozen, rejected, span, position, rest, rfl, hcandidates, hrejected, h⟩
  · intro h
    obtain ⟨frozen, rejected, span, position, rest, heq, hcandidates, hrejected, h⟩ := h
    cases heq
    exact ⟨rejected, span, position, rest, hcandidates, hrejected, h⟩

theorem not_endless_label {term : LabelTerm} : ¬ Endless (m.attempts limit (.label term) state captures) := by
  intro h
  unfold attempts at h
  simp only [evaluate, evaluateLabel_withLimit] at h
  obtain ⟨_, _, _, _, _, _, _, _, haccepts⟩ :=
    (@endless_evaluateLabel_iff _ _ _ _ _ _ (fun _ _ => .ok (some captures)) fun _ => .const _).1 h
  cases haccepts 0

theorem endless_pinned_iff {term : LabelTerm} {seek exact : Bool} {conditions : List Node} :
    Endless (m.attempts limit (.pinned term seek exact conditions) state captures) ↔
      ∃ frozen rejected span position rest, m.index term.slot = .ok frozen ∧
        m.candidates (m.searchFor term seek limit state) frozen.kind captures none
          (frozen.index.lowerBound state.position) (frozen.index.following state.position) =
          rejected ++ .ok (span, position) :: rest ∧
        Yields (fun n => firstAccepted (fun span => m.attemptsConditions exact conditions captures span n)
          rejected) (.ok none) ∧
        Endless (m.attemptsConditions exact conditions captures span) := by
  unfold attempts
  simp only [evaluate, evaluateLabel_withLimit]
  exact endless_evaluateLabel_iff (m.rising_attemptsConditions exact conditions captures)

theorem pickWords_ne_endless (literal : Literal) (windowEnd? : Option Nat) (limit more : Nat)
    (kind : LabelKind) (position : Nat) (labels : List Label) :
    pickWords literal windowEnd? limit more kind position labels ≠ .error .endless := by
  induction labels generalizing position with
  | nil => nofun
  | cons label rest ih =>
    simp only [pickWords]
    split
    · nofun
    split
    · nofun
    split
    · split <;> nofun
    · exact ih (position + 1)

theorem matchLiteral_ne_endless (m : Matcher) (literal : Literal) (limit : Nat) (state : MatchState) :
    m.matchLiteral literal limit state ≠ .error .endless := by
  apply bind_ne_endless (m.index_ne_endless literal.slot)
  intro frozen
  split
  · nofun
  · exact bind_ne_endless (pickWords_ne_endless _ _ _ _ _ _ _) fun _ => nofun

theorem not_endless_literal {literal : Literal} :
    ¬ Endless (m.attempts limit (.literal literal) state captures) := by
  intro h
  have hliteral := (endless_map_iff (.const (m.matchLiteral literal limit state)) _).1 h
  exact m.matchLiteral_ne_endless literal limit state (hliteral 0)

end

end TextAnnotation.Pattern.Matcher
