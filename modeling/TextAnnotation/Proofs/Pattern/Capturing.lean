import TextAnnotation.Proofs.Pattern.Hull
import TextAnnotation.Proofs.Pattern.Reading

/-!
Where captures lie. Whatever a capture holds after a match, some task of the match has made. A task takes
labels between its position and its limit only, and so do all tasks that it comes to; those inside the
conditions of a pinned label begin and end with that label.
-/

namespace TextAnnotation.Pattern

/-- A task of a capture whose body matches and consumes a label, with what the capture holds from then on. -/
def Task.Makes (m : Matcher) (task : Task) (slot : Nat) (captured : Captured) : Prop :=
  ∃ body inner written start, task.node = .capture slot body ∧
    m.matchNode task.limit body { task.state with begin? := none, last? := none } task.captures =
      .ok (some inner, written) ∧
    inner.begin? = some start ∧ captured = ⟨⟨start, inner.position⟩, inner.last?⟩

/-- The bounds between which a task takes labels. -/
def Task.bounds (task : Task) : Span := ⟨task.state.position, task.limit⟩

/-- Whatever captures hold when a task is done, they held before, or a task that it comes to has made it. -/
def Task.Accounts (m : Matcher) (task : Task) (written : Captures) : Prop :=
  ∀ slot captured, written[slot]? = some (some captured) →
    task.captures[slot]? = some (some captured) ∨
      ∃ maker, m.Reaches task maker ∧ maker.Makes m slot captured

namespace Matcher

variable {m : Matcher}

theorem accounts_refl (task : Task) : task.Accounts m task.captures := fun _ _ h => .inl h

theorem Calls.accounts {task next : Task} (h : m.Calls task next) (hbefore : task.Accounts m next.captures)
    {written : Captures} (hafter : next.Accounts m written) : task.Accounts m written := by
  intro slot captured hslot
  rcases hafter slot captured hslot with hheld | ⟨maker, hreach, hmakes⟩
  · exact hbefore slot captured hheld
  · exact .inr ⟨maker, .head h hreach, hmakes⟩

/-- A node accounts for its captures, from whichever state it is matched. -/
abbrev AccountsFor (m : Matcher) (limit : Nat) (node : Node) : Prop :=
  ∀ state captures found, m.evaluate limit node state captures = .ok (some found) →
    Task.Accounts m ⟨limit, node, state, captures⟩ found.captures

section
variable {limit : Nat} {state : MatchState} {captures : Captures} {found : Accepted}

theorem accounts_sequence {nodes : List Node} (hnodes : ∀ node ∈ nodes, m.AccountsFor limit node)
    (h : m.evaluateAll limit nodes state captures = .ok (some found)) :
    Task.Accounts m ⟨limit, .sequence nodes, state, captures⟩ found.captures := by
  induction nodes generalizing state captures found with
  | nil =>
    cases h
    exact accounts_refl _
  | cons node rest ih =>
    obtain ⟨hnode, hrest⟩ := List.forall_mem_cons.1 hnodes
    obtain ⟨next, hnext, h⟩ := Attempt.andThen_eq_some_iff.1 h
    obtain ⟨last, hlast, heq⟩ := Attempt.andThen_eq_some_iff.1 h
    cases heq
    have hfirst : Task.Accounts m ⟨limit, .sequence (node :: rest), state, captures⟩ next.captures :=
      (Calls.goOn (.first limit node rest state captures)).accounts (accounts_refl _) (hnode _ _ _ hnext)
    have hlater : Task.Accounts m ⟨limit, .sequence rest, next.state, next.captures⟩ last.captures :=
      ih hrest hlast
    exact (Calls.goOn (.rest (matchNode_eq_some hnext))).accounts hfirst hlater

theorem accounts_alternation {nodes : List Node} (hnodes : ∀ node ∈ nodes, m.AccountsFor limit node)
    (h : m.evaluateFirst limit nodes state captures = .ok (some found)) :
    Task.Accounts m ⟨limit, .alternation nodes, state, captures⟩ found.captures := by
  induction nodes with
  | nil => cases h
  | cons node rest ih =>
    obtain ⟨hnode, hrest⟩ := List.forall_mem_cons.1 hnodes
    rcases Attempt.orElse_eq_some_iff.1 h with hfound | ⟨hfails, hlater⟩
    · exact (Calls.goOn (.alternative limit node rest state captures)).accounts (accounts_refl _)
        (hnode _ _ _ hfound)
    · obtain ⟨left, hleft⟩ := matchNode_eq_none hfails
      exact (Calls.goOn (.otherwise hleft)).accounts (accounts_refl _) (ih hrest hlater)

/-- Iterations count down the maximum if there is one, and are all alike if there is none. -/
theorem accounts_repetition {body : Node} (hbody : m.AccountsFor limit body) (minimum : Nat)
    {maximum? : Option Nat} {more count : Nat} (hmore : ∀ maximum, maximum? = some maximum → maximum = more)
    (h : Repeats (m.evaluate limit body) more state captures count found) :
    Task.Accounts m ⟨limit, .repetition body minimum maximum?, state, captures⟩ found.captures := by
  induction h generalizing maximum? with
  | enough => exact accounts_refl _
  | @stalls more state captures next hnext hstalled =>
    have hmaximum : maximum? ≠ some 0 := fun heq => Nat.succ_ne_zero more (hmore 0 heq).symm
    exact (Calls.goOn (.body limit body minimum hmaximum state captures)).accounts (accounts_refl _)
      (hbody _ _ _ hnext)
  | @again more further state captures next last hnext hmoved hlast ih =>
    have hmaximum : maximum? ≠ some 0 := fun heq => Nat.succ_ne_zero more (hmore 0 heq).symm
    have hfirst : Task.Accounts m ⟨limit, .repetition body minimum maximum?, state, captures⟩ next.captures :=
      (Calls.goOn (.body limit body minimum hmaximum state captures)).accounts (accounts_refl _)
        (hbody _ _ _ hnext)
    refine (Calls.goOn (.again hmaximum (matchNode_eq_some hnext) hmoved)).accounts hfirst (ih ?_)
    intro maximum heq
    obtain ⟨larger, hlarger, rfl⟩ := Option.map_eq_some_iff.1 heq
    rw [hmore larger hlarger]
    rfl

theorem accounts_capture {slot : Nat} {body : Node} (hbody : m.AccountsFor limit body)
    (h : m.evaluate limit (.capture slot body) state captures = .ok (some found)) :
    Task.Accounts m ⟨limit, .capture slot body, state, captures⟩ found.captures := by
  simp only [evaluate] at h
  obtain ⟨inner, hinner, h⟩ := Attempt.andThen_eq_some_iff.1 h
  have haccounts : Task.Accounts m ⟨limit, .capture slot body, state, captures⟩ inner.captures :=
    (Calls.goOn (.capture limit slot body state captures)).accounts (accounts_refl _) (hbody _ _ _ hinner)
  rcases writeCapture_eq_some h with ⟨_, rfl⟩ | ⟨start, hbegin, _, _, rfl⟩
  · exact haccounts
  intro other captured hother
  simp only [Array.set!_eq_setIfInBounds, Array.getElem?_setIfInBounds] at hother
  split at hother
  · rename_i heq
    subst heq
    cases hother
    exact .inr ⟨_, .refl, body, inner.state, inner.captures, start, rfl, matchNode_eq_some hinner, hbegin, rfl⟩
  · exact haccounts other captured hother

theorem accounts_lookahead {body : Node} (hbody : m.AccountsFor limit body) {negated : Bool}
    (h : m.evaluate limit (.lookahead body negated) state captures = .ok (some found)) :
    Task.Accounts m ⟨limit, .lookahead body negated, state, captures⟩ found.captures := by
  simp only [evaluate] at h
  rcases lookAround_eq_some h with ⟨_, rfl⟩ | ⟨inner, hinner, rfl⟩
  · exact accounts_refl _
  · have hbody : Task.Accounts m ⟨limit, body, state, captures⟩ inner.captures := hbody _ _ _ hinner
    exact (Calls.lookahead limit body negated state captures).accounts (accounts_refl _) hbody

theorem conditionsHold_append {span : Span} {exact : Bool} {before : List Node} {condition : Node}
    {between : Captures} {inner : Accepted}
    (hbefore : m.conditionsHold span exact before captures = .ok (true, between))
    (hinner : m.evaluate span.stop condition { position := span.start, anchor := .free } between =
      .ok (some inner))
    (hfits : fits span exact inner = true) :
    m.conditionsHold span exact (before ++ [condition]) captures = .ok (true, inner.captures) := by
  induction before generalizing captures with
  | nil =>
    cases hbefore
    simp only [fits] at hfits
    simp only [List.nil_append, conditionsHold, matchNode_eq_some hinner, bind, Except.bind, hfits, if_true]
  | cons first rest ih =>
    simp only [conditionsHold, bind, Except.bind, List.cons_append] at hbefore ⊢
    generalize m.matchNode span.stop first { position := span.start, anchor := .free } captures = outcome
      at hbefore ⊢
    rcases outcome with fault | ⟨_ | next, written⟩
    · cases hbefore
    · cases hbefore
    · dsimp only at hbefore ⊢
      split at hbefore
      · rename_i hholds
        rw [if_pos hholds]
        exact ih hbefore
      · cases hbefore

/-- Conditions are tried one after the other inside a candidate of their label. -/
theorem accounts_conditions {term : LabelTerm} {seek exact : Bool} {frozen : FrozenKind} {span : Span}
    {position : Nat} (hfrozen : m.index term.slot = .ok frozen)
    (hcandidate : .ok (span, position) ∈ m.candidates (m.searchFor term seek limit state) frozen.kind captures
      none (frozen.index.lowerBound state.position) (frozen.index.following state.position))
    (before : List Node) {later : List Node} (hlater : ∀ node ∈ later, m.AccountsFor span.stop node)
    {between written : Captures} (hbefore : m.conditionsHold span exact before captures = .ok (true, between))
    (haccounts : Task.Accounts m ⟨limit, .pinned term seek exact (before ++ later), state, captures⟩ between)
    (h : m.evaluateConditions span exact later between = .ok (some written)) :
    Task.Accounts m ⟨limit, .pinned term seek exact (before ++ later), state, captures⟩ written := by
  induction later generalizing before between with
  | nil =>
    cases h
    exact haccounts
  | cons condition rest ih =>
    obtain ⟨hcondition, hrest⟩ := List.forall_mem_cons.1 hlater
    simp only [evaluateConditions] at h
    obtain ⟨inner, hinner, h⟩ := Attempt.andThen_eq_some_iff.1 h
    split at h
    · rename_i hfits
      have hcall : m.Calls ⟨limit, .pinned term seek exact (before ++ condition :: rest), state, captures⟩
          ⟨span.stop, condition, { position := span.start, anchor := .free }, between⟩ :=
        .condition hfrozen hcandidate hbefore
      have hinnerAccounts := hcall.accounts haccounts (hcondition _ _ _ hinner)
      have hsplit : before ++ condition :: rest = (before ++ [condition]) ++ rest := by simp
      rw [hsplit] at hinnerAccounts ⊢
      exact ih _ hrest (conditionsHold_append hbefore hinner hfits) hinnerAccounts h
    · cases h

end

/-- What captures hold after a match, tasks of the match have made. -/
theorem accounts_evaluate (m : Matcher) (limit : Nat) (node : Node) : m.AccountsFor limit node := by
  induction node generalizing limit with
  | sequence elements ih =>
    intro state captures found h
    simp only [evaluate] at h
    exact accounts_sequence (fun node hmem => ih node hmem limit) h
  | alternation alternatives ih =>
    intro state captures found h
    simp only [evaluate] at h
    exact accounts_alternation (fun node hmem => ih node hmem limit) h
  | adjacent =>
    intro state captures found h
    cases h
    exact accounts_refl _
  | repetition body minimum maximum? ih =>
    intro state captures found h
    obtain ⟨count, _, hrepeats⟩ := repeats_of_evaluate h
    refine accounts_repetition (ih limit) minimum (fun maximum heq => ?_) hrepeats
    rw [heq]
    rfl
  | capture slot body ih =>
    intro state captures found h
    exact accounts_capture (ih limit) h
  | lookahead body negated ih =>
    intro state captures found h
    exact accounts_lookahead (ih limit) h
  | label term =>
    intro state captures found h
    simp only [evaluate] at h
    obtain ⟨_, _, _, written, _, _, hwritten, rfl⟩ := evaluateLabel_eq_some h
    cases hwritten
    exact accounts_refl _
  | pinned term seek exact conditions ih =>
    intro state captures found h
    simp only [evaluate] at h
    obtain ⟨_, span, _, written, hfrozen, hcandidate, hwritten, rfl⟩ := evaluateLabel_eq_some h
    exact accounts_conditions hfrozen hcandidate [] (fun node hmem => ih node hmem span.stop) rfl
      (accounts_refl _) hwritten
  | literal literal =>
    intro state captures found h
    simp only [evaluate] at h
    obtain ⟨next, _, heq⟩ := Attempt.andThen_eq_some_iff.1 h
    cases heq
    exact accounts_refl _

end Matcher

/-- The label consumed last ends at the position, and begins where some label consumed did or after it. -/
def MatchState.Arrived (m : Matcher) (state : MatchState) : Prop :=
  ∀ ref, state.last? = some ref → ∃ start span, state.begin? = some start ∧ m.labelSpan? ref = some span ∧
    start ≤ span.start ∧ span.stop = state.position

/-- A capture within bounds, with a label that ends where the capture does. -/
structure Captured.Lies (m : Matcher) (bounds : Span) (captured : Captured) : Prop where
  within : bounds.contains captured.span
  label : ∃ ref span, captured.label? = some ref ∧ m.labelSpan? ref = some span ∧
    captured.span.contains span ∧ span.stop = captured.span.stop

namespace Matcher

variable {m : Matcher}

theorem arrived_fresh (state : MatchState) : MatchState.Arrived m { state with begin? := none, last? := none } :=
  nofun

/-- Without a label of its own, a capture leaves off where it began. -/
theorem arrived_joinCapture {limit : Nat} {state inner : MatchState} {spans : List Span}
    (hadvance : Advance limit { state with begin? := none, last? := none } spans inner)
    (hsound : inner.begin?.isSome = inner.last?.isSome) (hstate : state.Arrived m) (hinner : inner.Arrived m) :
    (joinCapture state inner).Arrived m := by
  intro ref href
  rcases Option.or_eq_some_iff.1 href with hlast | ⟨hlast, hearlier⟩
  · obtain ⟨start, span, hbegin, hspan, hle, hstop⟩ := hinner ref hlast
    simp only [joinCapture, hbegin]
    cases state.begin? with
    | none => exact ⟨start, span, rfl, hspan, hle, hstop⟩
    | some first => exact ⟨min first start, span, rfl, hspan, Nat.le_trans (Nat.min_le_right _ _) hle, hstop⟩
  · obtain ⟨start, span, hbegin, hspan, hle, hstop⟩ := hstate ref hearlier
    have hnone : inner.begin? = none := by
      rw [hlast] at hsound
      exact Option.isSome_eq_false_iff.1 hsound |> Option.isNone_iff_eq_none.1
    have hspans : spans = [] := by
      have hhead := hadvance.begin?
      rw [hnone] at hhead
      cases spans with
      | nil => rfl
      | cons => cases hhead
    have hposition : inner.position = state.position := by
      rw [hadvance.position, hspans]
      rfl
    simp only [joinCapture, hbegin, hnone, hposition]
    exact ⟨start, span, rfl, hspan, hle, hstop⟩

theorem Path.arrived (hm : m.Proper) {limit : Nat} {state next : MatchState} {captures written : Captures}
    {pieces : List Piece} (h : m.Path limit state captures next written pieces) (hstate : state.Arrived m) :
    next.Arrived m := by
  induction h with
  | still => exact hstate
  | append _ _ ih ih' => exact ih' (ih hstate)
  | adjacent => exact hstate
  | @piece limit slot first last state frozen a b captures hfrozen hfirst hlast hle =>
    intro ref href
    cases href
    have hspan : m.labelSpan? ⟨slot, last⟩ = some b.span := labelSpan?_eq_some_iff.2 ⟨_, b, hfrozen, hlast, rfl⟩
    have hab : a.span.start ≤ b.span.start := LabelIndex.start_le_start hfirst hlast hle
    cases hbegin : state.begin? with
    | none => exact ⟨a.span.start, b.span, by simp [MatchState.consume, hbegin], hspan, hab, rfl⟩
    | some start =>
      exact ⟨min start a.span.start, b.span, by simp [MatchState.consume, hbegin], hspan, by omega, rfl⟩
  | condition _ _ ih => exact ih hstate
  | unbound hinner _ ih =>
    obtain ⟨_, _, hadvance⟩ := hinner.advance hm
    have hsound := (hinner.sound (MatchState.sound_fresh m _)).last
    exact arrived_joinCapture hadvance hsound hstate (ih (arrived_fresh _))
  | bound hinner _ _ _ ih =>
    obtain ⟨_, _, hadvance⟩ := hinner.advance hm
    have hsound := (hinner.sound (MatchState.sound_fresh m _)).last
    exact arrived_joinCapture hadvance hsound hstate (ih (arrived_fresh _))
  | lookahead => exact hstate

theorem lies_of_makes (hm : m.Proper) {task : Task} {slot : Nat} {captured : Captured}
    (h : task.Makes m slot captured) : captured.Lies m task.bounds := by
  obtain ⟨body, inner, written, start, _, hbody, hbegin, rfl⟩ := h
  obtain ⟨found, hfound, rfl, rfl⟩ := evaluate_eq_some hbody
  have hpath := path_of_evaluate hfound
  obtain ⟨spans, _, hadvance⟩ := hpath.advance hm
  have hhead := hadvance.begin?
  rw [hbegin] at hhead
  obtain ⟨first, rest, rfl⟩ : ∃ first rest, spans = first :: rest := by
    cases spans with
    | nil => cases hhead
    | cons first rest => exact ⟨first, rest, rfl⟩
  cases hhead
  have hlimit : found.state.position ≤ task.limit := by
    obtain ⟨last, hmem, hlast⟩ := reach_mem (List.cons_ne_nil first rest)
    rw [hadvance.position, ← hlast]
    exact hadvance.within last hmem
  refine ⟨Span.contains_iff.2 ⟨hadvance.ascending.1, hlimit⟩, ?_⟩
  have hsome : found.state.last?.isSome := by
    rw [← (hpath.sound (MatchState.sound_fresh m _)).last, hbegin]
    rfl
  obtain ⟨ref, href⟩ := Option.isSome_iff_exists.1 hsome
  obtain ⟨start, span, hstart, hspan, hle, hstop⟩ := hpath.arrived hm (arrived_fresh task.state) ref href
  rw [hbegin] at hstart
  cases hstart
  exact ⟨ref, span, href, hspan, Span.contains_iff.2 ⟨hle, Nat.le_of_eq hstop⟩, hstop⟩

theorem position_le_of_matchNode (hm : m.Proper) {limit : Nat} {node : Node} {state next : MatchState}
    {captures written : Captures} (h : m.matchNode limit node state captures = .ok (some next, written)) :
    state.position ≤ next.position := by
  obtain ⟨found, hfound, rfl, _⟩ := evaluate_eq_some h
  obtain ⟨spans, _, hadvance⟩ := (path_of_evaluate hfound).advance hm
  rw [hadvance.position]
  exact hadvance.ascending.le_reach

theorem Calls.within (hm : m.Proper) {task next : Task} (h : m.Calls task next) :
    task.bounds.contains next.bounds := by
  rw [Span.contains_iff]
  cases h with
  | goOn h =>
    cases h with
    | rest h => exact ⟨position_le_of_matchNode hm h, Nat.le_refl _⟩
    | again _ h => exact ⟨position_le_of_matchNode hm h, Nat.le_refl _⟩
    | _ => exact ⟨Nat.le_refl _, Nat.le_refl _⟩
  | lookahead => exact ⟨Nat.le_refl _, Nat.le_refl _⟩
  | condition _ hcandidate =>
    obtain ⟨label, hlabel, _, rfl, hstop⟩ := mem_candidates (LabelIndex.following_eq_drop _) hcandidate
    exact ⟨LabelIndex.le_start_of_mem_following hlabel, hstop⟩

theorem Reaches.within (hm : m.Proper) {task next : Task} (h : m.Reaches task next) :
    task.bounds.contains next.bounds := by
  induction h with
  | refl => exact Span.contains_iff.2 ⟨Nat.le_refl _, Nat.le_refl _⟩
  | tail _ hlast ih => exact Span.contains_trans ih (hlast.within hm)

/-- All that is made on the way of a task lies within its bounds. -/
theorem Reaches.lies (hm : m.Proper) {task maker : Task} (h : m.Reaches task maker) {slot : Nat}
    {captured : Captured} (hmakes : maker.Makes m slot captured) : captured.Lies m task.bounds := by
  obtain ⟨hwithin, hlabel⟩ := lies_of_makes hm hmakes
  exact ⟨Span.contains_trans (h.within hm) hwithin, hlabel⟩

/-- A pinned label comes to its conditions only, each of them between the ends of a label of its kind. -/
theorem bounds_of_calls_pinned {host condition : Task} {term : LabelTerm} {seek exact : Bool}
    {conditions : List Node} (hnode : host.node = .pinned term seek exact conditions)
    (h : m.Calls host condition) :
    condition.node ∈ conditions ∧ ∃ position, m.labelSpan? ⟨term.slot, position⟩ = some condition.bounds := by
  cases h with
  | goOn h => cases h <;> cases hnode
  | lookahead => cases hnode
  | @condition limit position _ _ _ before later node state captures written frozen span hfrozen hcandidate =>
    cases hnode
    obtain ⟨label, _, hget, rfl, _⟩ := mem_candidates (LabelIndex.following_eq_drop _) hcandidate
    refine ⟨List.mem_append_right _ List.mem_cons_self, position, ?_⟩
    exact labelSpan?_eq_some_iff.2 ⟨frozen, label, index_eq_ok_iff.1 hfrozen, hget, rfl⟩

end Matcher

namespace Searcher

section
variable {s : Searcher}

/-- A capture that is held after a hit was made by a task that the hit came to. -/
theorem makes_of_attempt {candidate : Nat} {hit : Hit} (h : s.attempt candidate = .ok (some hit)) {slot : Nat}
    {captured : Captured} (hslot : hit.found.captures[slot]? = some (some captured)) :
    ∃ maker, s.matcher.Reaches (s.task candidate) maker ∧ maker.Makes s.matcher slot captured := by
  obtain ⟨found, hfound, heq⟩ := Attempt.andThen_eq_some_iff.1 h
  simp only [Except.ok.injEq, Option.map_eq_some_iff] at heq
  obtain ⟨start, _, rfl⟩ := heq
  have haccounts : (s.task candidate).Accounts s.matcher found.captures :=
    Matcher.accounts_evaluate s.matcher s.range.stop s.pattern.root _ _ _ hfound
  rcases haccounts slot captured hslot with hnone | hmakes
  · simp [task, noCaptures, Array.getElem?_replicate] at hnone
  · exact hmakes

theorem capture?_eq_some_iff {name : String} {captured : Captured} :
    s.capture? name = some captured ↔
      ∃ slot, s.pattern.captureSlot? name = some slot ∧ s.captures[slot]? = some (some captured) := by
  simp [capture?, Option.bind_eq_some_iff, Option.join_eq_some_iff]

theorem boundLabel?_of_labelSpan? {name : String} {captured : Captured} {ref : LabelRef} {span : Span}
    (hcaptured : s.capture? name = some captured) (href : captured.label? = some ref)
    (hspan : s.matcher.labelSpan? ref = some span) :
    ∃ kind label, s.boundLabel? name = some (kind, label) ∧ label.span = span := by
  obtain ⟨frozen, label, hfrozen, hget, rfl⟩ := Matcher.labelSpan?_eq_some_iff.1 hspan
  have hlabel : s.matcher.label ref = .ok (frozen.kind, label) :=
    Matcher.label_eq_ok_iff.2 ⟨frozen, hfrozen, rfl, hget⟩
  exact ⟨frozen.kind, label, boundLabel?_of_label hcaptured href hlabel, rfl⟩

end

/-- After a match, every capture that holds something lies inside the range, and its label inside the capture,
where both end together. It was made by a task that the match came to, whichever lookaheads, conditions and
iterations led there; a task inside the conditions of a pinned label makes captures inside that label. Of the
labels no more is asked than what `Span.between` sees to when their spans are built: that they start before they
end, or where they end. -/
theorem captures_lie_in_range {view : View} (hview : view.Proper) (pattern : Pattern) (range : Span)
    (calls : List Call) {s next : Searcher} (hs : s = (view.searcherIn pattern range).1.after calls)
    (h : s.search = (.ok true, next)) :
    (∀ name span, next.span? name = some span → s.range.contains span ∧
      ∃ kind label, next.boundLabel? name = some (kind, label) ∧ span.contains label.span ∧
        label.span.stop = span.stop) ∧
    ∃ hit, s.firstHit s.remaining = .ok (some hit) ∧ next.captures = hit.found.captures ∧
      (∀ (slot : Nat) (captured : Captured), next.captures[slot]? = some (some captured) →
        ∃ maker, s.matcher.Reaches (s.task hit.candidate) maker ∧ maker.Makes s.matcher slot captured) ∧
      ∀ host condition term seek exact conditions, s.matcher.Reaches (s.task hit.candidate) host →
        host.node = .pinned term seek exact conditions → s.matcher.Calls host condition →
        condition.node ∈ conditions ∧
        ∃ position, s.matcher.labelSpan? ⟨term.slot, position⟩ = some condition.bounds ∧
          ∀ maker slot captured, s.matcher.Reaches condition maker → maker.Makes s.matcher slot captured →
            condition.bounds.contains captured.span := by
  have hregular : s.Regular := hs ▸ (regular_searcherIn hview pattern range).after calls
  obtain ⟨hit, _, hhit, _, rfl⟩ := search_eq_true h
  obtain ⟨_, hattempt⟩ := of_firstHit_eq_some hhit
  obtain ⟨_, _, hstart⟩ := hregular.bounds hhit
  have hrange : s.range.contains (s.task hit.candidate).bounds := Span.contains_iff.2 ⟨hstart, Nat.le_refl _⟩
  refine ⟨fun name span hspan => ?_, hit, hhit, rfl, fun slot captured => makes_of_attempt hattempt, ?_⟩
  · obtain ⟨captured, hcaptured, rfl⟩ := Option.map_eq_some_iff.1 hspan
    obtain ⟨slot, _, hslot⟩ := capture?_eq_some_iff.1 hcaptured
    obtain ⟨maker, hreach, hmakes⟩ := makes_of_attempt hattempt hslot
    obtain ⟨hwithin, ref, span, href, hspan, hinside, hstop⟩ := hreach.lies hregular.matcher hmakes
    obtain ⟨kind, label, hlabel, rfl⟩ := boundLabel?_of_labelSpan? hcaptured href hspan
    exact ⟨Span.contains_trans hrange hwithin, kind, label, hlabel, hinside, hstop⟩
  · intro host condition term seek exact conditions _ hnode hcall
    obtain ⟨hmem, position, hspan⟩ := Matcher.bounds_of_calls_pinned hnode hcall
    refine ⟨hmem, position, hspan, fun maker slot captured hreach hmakes => ?_⟩
    exact (hreach.lies hregular.matcher hmakes).within

def lineAliases : AliasTable :=
  (AliasTable.register ⟨.empty, none⟩ "Line" { name := "Line" } []).registerToken "Word" { name := "Word" } []

/-- A line and each word of it, where the first word is looked at before. -/
def linePattern : Pattern where
  source := "(?=a:Word) [l:Line (w:Word)+]"
  root := .sequence [
    .lookahead (.capture 0 (.label ⟨"Word", 0, []⟩)) false,
    .capture 1 (.pinned ⟨"Line", 1, []⟩ false false [
      .repetition (.capture 2 (.label ⟨"Word", 0, []⟩)) 1 none])]
  kinds := [{ name := "Word" }, { name := "Line" }]
  captureNames := ["a", "l", "w"]

def lineTree : Grammar.Alternation :=
  let word (name : String) : Grammar.Alternation := .last (.last (.item (some name) (.label ⟨"Word", none⟩) none))
  .last (.next (.item none (.lookahead false (word "a")) none) (.last (.item none (.pinned [] (some "l") ⟨"Line", none⟩
    (some (.last (.last (.last (.item none (.group (word "w")) (some ⟨.some, false⟩))))))) none)))

def lineView : View where
  name := "lines"
  text := "go on go"
  labelers := [({ name := "Line" }, .collecting #[⟨⟨0, 5⟩, .ofList []⟩]),
    ({ name := "Word" }, .collecting #[⟨⟨0, 2⟩, .ofList []⟩, ⟨⟨3, 5⟩, .ofList []⟩, ⟨⟨6, 8⟩, .ofList []⟩])]

def lineSearcher : Searcher := (lineView.searcherIn linePattern ⟨0, 8⟩).1

def lineCaptures : Captures :=
  #[some ⟨⟨0, 2⟩, some ⟨0, 0⟩⟩, some ⟨⟨0, 5⟩, some ⟨1, 0⟩⟩, some ⟨⟨3, 5⟩, some ⟨0, 1⟩⟩]

def lineMatch : Searcher :=
  { lineSearcher with matched? := some ⟨0, 5⟩, captures := lineCaptures, cursor := 5 }

theorem lineView_proper : lineView.Proper := by
  simp [View.Proper, View.All, lineView, Labeler.All, Label.Proper]

theorem firstHit_lines : lineSearcher.firstHit lineSearcher.remaining =
    .ok (some ⟨0, 0, ⟨⟨5, .free, some 0, some ⟨1, 0⟩⟩, lineCaptures, [⟨1, 0, 0⟩]⟩⟩) := by
  rw [lineSearcher, searcherIn_eq_byInsertion]
  decide +kernel

theorem search_lines : lineSearcher.search = (.ok true, lineMatch) := by
  rw [search_of_firstHit rfl firstHit_lines]
  rfl

/-- The last word of the line is what is left of its iterations. -/
theorem captures_lie_in_range_lines :
    parse lineAliases "(?=a:Word) [l:Line (w:Word)+]" = .ok linePattern ∧ lineView.Proper ∧
      lineSearcher = (lineView.searcherIn linePattern ⟨0, 8⟩).1.after [] ∧
      lineSearcher.search = (.ok true, lineMatch) ∧ lineMatch.span? "w" = some ⟨3, 5⟩ ∧
      (∃ kind label, lineMatch.boundLabel? "w" = some (kind, label) ∧ label.span.stop = 5) ∧
      ∃ maker, lineSearcher.matcher.Reaches (lineSearcher.task 0) maker ∧
        maker.Makes lineSearcher.matcher 2 ⟨⟨3, 5⟩, some ⟨0, 1⟩⟩ := by
  obtain ⟨hspans, hit, hhit, _, hmakes, _⟩ :=
    captures_lie_in_range lineView_proper linePattern ⟨0, 8⟩ [] rfl search_lines
  have hparse : parse lineAliases "(?=a:Word) [l:Line (w:Word)+]" = .ok linePattern :=
    parse_of_meaning lineTree (by decide +kernel) rfl
  have hspan : lineMatch.span? "w" = some ⟨3, 5⟩ := rfl
  cases firstHit_lines.symm.trans hhit
  obtain ⟨_, kind, label, hlabel, _, hstop⟩ := hspans "w" _ hspan
  exact ⟨hparse, lineView_proper, rfl, search_lines, hspan, ⟨kind, label, hlabel, hstop⟩,
    hmakes 2 ⟨⟨3, 5⟩, some ⟨0, 1⟩⟩ rfl⟩

end Searcher

end TextAnnotation.Pattern
