import Mathlib.Order.WellFounded
import TextAnnotation.Proofs.Pattern.Advance
import TextAnnotation.Proofs.Pattern.Endless

/-!
What makes a match endless. The iterations of a repetition without upper bound may swing for ever at one
place: one of them leaves the next label free, the other one makes it adjacent again, so that none of them
leads nowhere. Nothing else keeps a match from ending.
-/

namespace TextAnnotation.Pattern.Matcher

open Attempt

def Leads (m : Matcher) (limit : Nat) (body : Node) (current next : MatchState × Captures) : Prop :=
  ∃ found, Yields (m.attempts limit body current.1 current.2) (.ok (some found)) ∧
    stalled current.1 found.state = false ∧ next = (found.state, found.captures)

/-- States at one place, of which one leaves the next label free and the other one makes it adjacent. -/
def Opposed (state next : MatchState) : Prop :=
  next.position = state.position ∧ next.begin? = state.begin? ∧
    (state.anchor = .free ∧ next.anchor = .adjacent ∨ state.anchor = .adjacent ∧ next.anchor = .free)

/-- A bound on the moves that a state has left before it can only swing. -/
def moves (limit : Nat) (state : MatchState) : Nat :=
  4 * (limit - state.position) + (if state.begin?.any (· ≤ state.position) then 0 else 2) +
    (if state.anchor = .start then 1 else 0)

/-- Iterations of a body lead on for ever, to and fro at one place. -/
def Swings (m : Matcher) (limit : Nat) (body : Node) (start : MatchState × Captures) : Prop :=
  ∃ run : Nat → MatchState × Captures, run 0 = start ∧
    ∀ i, m.Leads limit body (run i) (run (i + 1)) ∧ Opposed (run i).1 (run (i + 1)).1

/-- A match comes to a repetition that swings for ever. -/
inductive Hangs (m : Matcher) : Nat → Node → MatchState → Captures → Prop
  | swings {limit : Nat} {body : Node} {state : MatchState} {captures : Captures} (minimum : Nat)
    (h : m.Swings limit body (state, captures)) : Hangs m limit (.repetition body minimum none) state captures
  | body {limit : Nat} {body : Node} {maximum? : Option Nat} {state : MatchState} {captures : Captures}
    (minimum : Nat) (hmaximum : maximum? ≠ some 0) (h : Hangs m limit body state captures) :
    Hangs m limit (.repetition body minimum maximum?) state captures
  | iteration {limit minimum : Nat} {body : Node} {maximum? : Option Nat} {state next : MatchState}
    {captures written : Captures} (hmaximum : maximum? ≠ some 0)
    (hleads : m.Leads limit body (state, captures) (next, written))
    (h : Hangs m limit (.repetition body minimum (maximum?.map (· - 1))) next written) :
    Hangs m limit (.repetition body minimum maximum?) state captures
  | sequence {limit : Nat} {earlier : List Node} {node : Node} {state : MatchState} {captures : Captures}
    {found : Accepted} (later : List Node)
    (hearlier : Yields (m.attemptsAll limit earlier state captures) (.ok (some found)))
    (h : Hangs m limit node found.state found.captures) :
    Hangs m limit (.sequence (earlier ++ node :: later)) state captures
  | alternation {limit : Nat} {earlier : List Node} {node : Node} {state : MatchState}
    {captures : Captures} (later : List Node)
    (hearlier : Yields (m.attemptsFirst limit earlier state captures) (.ok none))
    (h : Hangs m limit node state captures) :
    Hangs m limit (.alternation (earlier ++ node :: later)) state captures
  | capture {limit : Nat} {body : Node} {state : MatchState} {captures : Captures} (slot : Nat)
    (h : Hangs m limit body { state with begin? := none, last? := none } captures) :
    Hangs m limit (.capture slot body) state captures
  | lookahead {limit : Nat} {body : Node} {state : MatchState} {captures : Captures} (negated : Bool)
    (h : Hangs m limit body state captures) : Hangs m limit (.lookahead body negated) state captures
  /-- A condition hangs inside a label that comes after labels that were not accepted. -/
  | pinned {limit position : Nat} {term : LabelTerm} {seek exact : Bool} {condition : Node}
    {before : List Node} {state : MatchState} {captures written : Captures} {frozen : FrozenKind}
    {rejected rest : List (Except MatchFault (Span × Nat))} {span : Span} (after : List Node)
    (hfrozen : m.index term.slot = .ok frozen)
    (hcandidates : m.candidates (m.searchFor term seek limit state) frozen.kind captures none
      (frozen.index.lowerBound state.position) (frozen.index.following state.position) =
      rejected ++ .ok (span, position) :: rest)
    (hrejected : Yields (fun n => firstAccepted (fun span =>
      m.attemptsConditions exact (before ++ condition :: after) captures span n) rejected) (.ok none))
    (hbefore : Yields (m.attemptsConditions exact before captures span) (.ok (some written)))
    (h : Hangs m span.stop condition { position := span.start, anchor := .free } written) :
    Hangs m limit (.pinned term seek exact (before ++ condition :: after)) state captures

theorem Opposed.moves_eq {state next : MatchState} (h : Opposed state next) (limit : Nat) :
    moves limit next = moves limit state := by
  obtain ⟨hposition, hbegin, hanchor⟩ := h
  have hstart : next.anchor ≠ .start ∧ state.anchor ≠ .start := by
    rcases hanchor with ⟨h, h'⟩ | ⟨h, h'⟩
    · simp [h, h']
    · simp [h, h']
  simp only [moves, hposition, hbegin, hstart.1, hstart.2]

theorem anchors_opposed {current next : Anchor} (hcurrent : current ≠ .start) (hnext : next ≠ .start)
    (hne : next ≠ current) : current = .free ∧ next = .adjacent ∨ current = .adjacent ∧ next = .free := by
  cases current <;> cases next <;> simp_all

theorem opposed_or_moves_lt_of_nil {limit : Nat} {state next : MatchState}
    (h : Advance limit state [] next) (hstalled : stalled state next = false) :
    Opposed state next ∨ moves limit next < moves limit state := by
  have hposition : next.position = state.position := h.position
  have hbegin : next.begin? = state.begin? := by simpa using h.begin?
  simp only [stalled, hposition, hbegin, beq_self_eq_true, Bool.true_and, beq_eq_false_iff_ne] at hstalled
  have hadjacent := (h.anchor_of_nil rfl).resolve_left hstalled
  cases hanchor : state.anchor with
  | start => simp [moves, hposition, hbegin, hadjacent, hanchor]
  | adjacent => exact absurd (hadjacent.trans hanchor.symm) hstalled
  | free => exact .inl ⟨hposition, hbegin, .inl ⟨hanchor, hadjacent⟩⟩

/-- Whatever consumes a label without a swing moves on, sets its begin, or leaves the start. -/
theorem opposed_or_moves_lt_of_cons {limit : Nat} {state next : MatchState} {span : Span}
    {rest : List Span} (h : Advance limit state (span :: rest) next)
    (hstalled : stalled state next = false) :
    Opposed state next ∨ moves limit next < moves limit state := by
  obtain ⟨hstart, hle, hrest⟩ := h.ascending
  have hreach : span.stop ≤ next.position := h.position ▸ hrest.le_reach
  have hlimit : next.position ≤ limit := by
    obtain ⟨last, hlast, hstop⟩ := @reach_mem state.position _ (List.cons_ne_nil span rest)
    rw [h.position, ← hstop]
    exact h.within last hlast
  have hanchor : next.anchor ≠ .start := h.anchor_of_ne_nil (List.cons_ne_nil span rest)
  have hbegin : next.begin? = state.begin?.merge min (some span.start) := h.begin?
  have hnext : moves limit next = 4 * (limit - next.position) := by
    have hbegun : next.begin?.any (· ≤ next.position) = true := by
      rw [hbegin]
      cases state.begin? with
      | none => simpa using Nat.le_trans hle hreach
      | some first =>
        simp only [Option.merge_some_some, Option.any_some, decide_eq_true_eq]
        omega
    simp [moves, hbegun, hanchor]
  by_cases hplace : state.begin?.any (· ≤ state.position) = true ∧ state.anchor ≠ .start ∧
      next.position = state.position
  · obtain ⟨hbegun, hstate, hposition⟩ := hplace
    have hsame : next.begin? = state.begin? := by
      rw [hbegin]
      cases hfirst : state.begin? with
      | none => simp [hfirst] at hbegun
      | some first =>
        simp only [hfirst, Option.any_some, decide_eq_true_eq] at hbegun
        simp only [Option.merge_some_some, Option.some.injEq]
        omega
    simp only [stalled, hposition, hsame, beq_self_eq_true, Bool.true_and, beq_eq_false_iff_ne] at hstalled
    exact .inl ⟨hposition, hsame, anchors_opposed hstate hanchor hstalled⟩
  · right
    rw [hnext]
    simp only [moves]
    split
    · rename_i hbegun
      split
      · omega
      · rename_i hstate
        have hmoved : next.position ≠ state.position := fun heq => hplace ⟨hbegun, hstate, heq⟩
        omega
    · omega

theorem opposed_or_moves_lt {limit : Nat} {state next : MatchState} {spans : List Span}
    (h : Advance limit state spans next) (hstalled : stalled state next = false) :
    Opposed state next ∨ moves limit next < moves limit state := by
  cases spans with
  | nil => exact opposed_or_moves_lt_of_nil h hstalled
  | cons span rest => exact opposed_or_moves_lt_of_cons h hstalled

section
variable {m : Matcher} {limit : Nat} {body : Node}

theorem Leads.opposed_or_moves_lt (hm : m.Proper) {current next : MatchState × Captures}
    (h : m.Leads limit body current next) :
    Opposed current.1 next.1 ∨ moves limit next.1 < moves limit current.1 := by
  obtain ⟨found, ⟨_, n, hfound⟩, hstalled, rfl⟩ := h
  have hproper : (m.withLimit n).Proper := hm
  obtain ⟨spans, _, hadvance⟩ := (path_of_evaluate hfound).advance hproper
  exact Matcher.opposed_or_moves_lt hadvance hstalled

variable {run : Nat → MatchState × Captures}

theorem moves_le_of_run (hm : m.Proper) (hrun : ∀ i, m.Leads limit body (run i) (run (i + 1))) (i : Nat) :
    moves limit (run i).1 ≤ moves limit (run 0).1 := by
  induction i with
  | zero => exact Nat.le_refl _
  | succ i ih =>
    rcases (hrun i).opposed_or_moves_lt hm with h | h
    · rw [h.moves_eq]
      exact ih
    · exact Nat.le_trans (Nat.le_of_lt h) ih

theorem hangs_of_later (hrun : ∀ i, m.Leads limit body (run i) (run (i + 1))) {minimum i : Nat}
    (h : m.Hangs limit (.repetition body minimum none) (run i).1 (run i).2) :
    m.Hangs limit (.repetition body minimum none) (run 0).1 (run 0).2 := by
  induction i with
  | zero => exact h
  | succ i ih => exact ih (.iteration nofun (hrun i) h)

/-- Iterations that never end come to one place and swing there. -/
theorem hangs_of_run (hm : m.Proper) (hrun : ∀ i, m.Leads limit body (run i) (run (i + 1)))
    (minimum : Nat) : m.Hangs limit (.repetition body minimum none) (run 0).1 (run 0).2 := by
  -- Moves are left for finitely many iterations that do not swing; all those after the last of these do.
  induction hmoves : moves limit (run 0).1 using Nat.strongRecOn generalizing run with
  | ind left ih =>
    rcases Classical.em (∀ i, Opposed (run i).1 (run (i + 1)).1) with hopposed | hopposed
    · exact .swings minimum ⟨run, rfl, fun i => ⟨hrun i, hopposed i⟩⟩
    obtain ⟨i, hi⟩ := Classical.not_forall.1 hopposed
    have hlt := ((hrun i).opposed_or_moves_lt hm).resolve_left hi
    have hle := moves_le_of_run hm hrun i
    have hlater := ih (moves limit (run (i + 1)).1) (by omega) (fun j => hrun (i + 1 + j)) rfl
    exact hangs_of_later hrun hlater

end

theorem hangs_of_endless_none {m : Matcher} (hm : m.Proper) {limit minimum : Nat} {body : Node}
    (hbody : ∀ state captures, Endless (m.attempts limit body state captures) →
      m.Hangs limit body state captures) {state : MatchState} {captures : Captures}
    (h : Endless (m.attempts limit (.repetition body minimum none) state captures)) :
    m.Hangs limit (.repetition body minimum none) state captures := by
  have hrising := m.rising_evaluate limit body
  -- Iterations either end, and one of them is endless by itself, or lead on for ever.
  rcases Classical.em (Acc (fun next current => m.Leads limit body current next) (state, captures)) with
    hacc | hacc
  · generalize hcurrent : (state, captures) = current at hacc
    induction hacc generalizing state captures with
    | intro current _ ih =>
      subst hcurrent
      have hmaximum : (none : Option Nat) ≠ some 0 := nofun
      rcases (endless_repeated_iff hrising hmaximum).1 (endless_repetition_iff.1 h) with
        hendless | ⟨next, hyields, hstalled, hnext⟩
      · exact .body minimum hmaximum (hbody _ _ hendless)
      · have hleads : m.Leads limit body (state, captures) (next.state, next.captures) :=
          ⟨next, hyields, hstalled, rfl⟩
        exact .iteration hmaximum hleads (ih _ hleads (endless_repetition_iff.2 hnext) rfl)
  · obtain ⟨run, hstart, hrun⟩ := not_acc_iff_exists_descending_chain.1 hacc
    have hhangs := hangs_of_run hm hrun minimum
    rwa [hstart] at hhangs

theorem hangs_of_endless_some {m : Matcher} {limit minimum maximum : Nat} {body : Node}
    (hbody : ∀ state captures, Endless (m.attempts limit body state captures) →
      m.Hangs limit body state captures) {state : MatchState} {captures : Captures}
    (h : Endless (m.attempts limit (.repetition body minimum (some maximum)) state captures)) :
    m.Hangs limit (.repetition body minimum (some maximum)) state captures := by
  have hrising := m.rising_evaluate limit body
  induction maximum generalizing state captures with
  | zero => cases endless_repetition_iff.1 h 0
  | succ maximum ih =>
    have hmaximum : some (maximum + 1) ≠ some 0 := by simp
    rcases (endless_repeated_iff hrising hmaximum).1 (endless_repetition_iff.1 h) with
      hendless | ⟨next, hyields, hstalled, hnext⟩
    · exact .body minimum hmaximum (hbody _ _ hendless)
    · exact .iteration hmaximum ⟨next, hyields, hstalled, rfl⟩ (ih (endless_repetition_iff.2 hnext))

theorem hangs_of_endless {m : Matcher} (hm : m.Proper) {limit : Nat} {node : Node} {state : MatchState}
    {captures : Captures} (h : Endless (m.attempts limit node state captures)) :
    m.Hangs limit node state captures := by
  induction node generalizing limit state captures with
  | sequence elements ih =>
    obtain ⟨earlier, node, later, found, rfl, hearlier, hnode⟩ := endless_evaluateAll_iff.1 h
    exact .sequence later hearlier (ih node (by simp) hnode)
  | alternation alternatives ih =>
    obtain ⟨earlier, node, later, rfl, hearlier, hnode⟩ := endless_evaluateFirst_iff.1 h
    exact .alternation later hearlier (ih node (by simp) hnode)
  | adjacent => cases h 0
  | repetition body minimum maximum? ih =>
    cases maximum? with
    | none => exact hangs_of_endless_none hm (fun _ _ => ih) h
    | some maximum => exact hangs_of_endless_some (fun _ _ => ih) h
  | capture slot body ih => exact .capture slot (ih (endless_capture_iff.1 h))
  | lookahead body negated ih => exact .lookahead negated (ih (endless_lookahead_iff.1 h))
  | label term => exact absurd h not_endless_label
  | pinned term seek exact conditions ih =>
    obtain ⟨frozen, rejected, span, position, rest, hfrozen, hcandidates, hrejected, hspan⟩ :=
      endless_pinned_iff.1 h
    obtain ⟨before, condition, after, written, rfl, hbefore, hcondition⟩ :=
      endless_evaluateConditions_iff.1 hspan
    exact .pinned after hfrozen hcandidates hrejected hbefore (ih condition (by simp) hcondition)
  | literal literal => exact absurd h not_endless_literal

theorem Swings.endless {m : Matcher} {limit : Nat} {body : Node} {state : MatchState}
    {captures : Captures} (h : m.Swings limit body (state, captures)) :
    Endless (repeated (fun n state captures => m.attempts limit body state captures n) none state
      captures) := by
  obtain ⟨run, hstart, hrun⟩ := h
  have hiterate (n more i : Nat) :
      iterate (fun state captures => m.attempts limit body state captures n) false more (run i).1 (run i).2 =
        .error .endless := by
    induction more generalizing i with
    | zero =>
      obtain ⟨⟨found, hyields, _, _⟩, _⟩ := hrun i
      simp only [iterate]
      rcases (m.rising_evaluate limit body _ _).endless_or_eq hyields n with hn | hn
      · rw [hn]
        rfl
      · rw [hn]
        rfl
    | succ more ih =>
      obtain ⟨⟨found, hyields, hstalled, hnext⟩, _⟩ := hrun i
      simp only [iterate]
      rcases (m.rising_evaluate limit body _ _).endless_or_eq hyields n with hn | hn
      · rw [hn]
        rfl
      · have hrest := ih (i + 1)
        rw [hnext] at hrest
        simp only [hn, afterIteration, hstalled, Bool.false_eq_true, if_false, hrest, andThen_error]
  intro n
  have hfirst := hiterate n n 0
  rwa [hstart] at hfirst

theorem Hangs.endless {m : Matcher} {limit : Nat} {node : Node} {state : MatchState} {captures : Captures}
    (h : m.Hangs limit node state captures) : Endless (m.attempts limit node state captures) := by
  induction h with
  | swings minimum h => exact endless_repetition_iff.2 h.endless
  | @body limit body _ _ _ minimum hmaximum _ ih =>
    exact endless_repetition_iff.2 ((endless_repeated_iff (m.rising_evaluate limit body) hmaximum).2 (.inl ih))
  | @iteration limit minimum body maximum? state next captures written hmaximum hleads _ ih =>
    obtain ⟨found, hyields, hstalled, heq⟩ := hleads
    cases heq
    exact endless_repetition_iff.2 ((endless_repeated_iff (m.rising_evaluate limit body) hmaximum).2
      (.inr ⟨found, hyields, hstalled, endless_repetition_iff.1 ih⟩))
  | sequence later hearlier _ ih => exact endless_evaluateAll_iff.2 ⟨_, _, later, _, rfl, hearlier, ih⟩
  | alternation later hearlier _ ih => exact endless_evaluateFirst_iff.2 ⟨_, _, later, rfl, hearlier, ih⟩
  | capture slot _ ih => exact endless_capture_iff.2 ih
  | lookahead negated _ ih => exact endless_lookahead_iff.2 ih
  | pinned after hfrozen hcandidates hrejected hbefore _ ih =>
    exact endless_pinned_iff.2 ⟨_, _, _, _, _, hfrozen, hcandidates, hrejected,
      endless_evaluateConditions_iff.2 ⟨_, _, after, _, rfl, hbefore, ih⟩⟩

section
variable {m : Matcher} (hlabels : ∀ frozen ∈ m.indices, frozen.index.All Label.Nonempty)
include hlabels

theorem pieceSpan?_nonempty {piece : Piece} {span : Span} (hle : piece.first ≤ piece.last)
    (h : m.pieceSpan? piece = some span) : span.start < span.stop := by
  simp only [pieceSpan?, Option.bind_eq_bind, Option.bind_eq_some_iff, Option.pure_def] at h
  obtain ⟨frozen, hfrozen, a, ha, b, hb, hspan⟩ := h
  cases hspan
  have hstart : a.span.start ≤ b.span.start := LabelIndex.start_le_start ha hb hle
  have hnonempty : b.Nonempty := by
    rw [LabelIndex.get?_eq_ascending] at hb
    exact hlabels frozen (Array.mem_of_getElem? hfrozen) b (List.mem_of_getElem? hb)
  exact Nat.lt_of_le_of_lt hstart hnonempty

theorem proper_of_nonempty : m.Proper :=
  fun frozen hfrozen label hlabel => Nat.le_of_lt (hlabels frozen hfrozen label hlabel)

/-- Whatever turns from adjacent to free consumes a label, and with it moves on. -/
theorem Leads.position_lt {limit : Nat} {body : Node} {current next : MatchState × Captures}
    (h : m.Leads limit body current next) (hcurrent : current.1.anchor = .adjacent)
    (hnext : next.1.anchor = .free) : current.1.position < next.1.position := by
  obtain ⟨found, ⟨_, n, hfound⟩, _, rfl⟩ := h
  have hproper : (m.withLimit n).Proper := proper_of_nonempty hlabels
  have hpath := path_of_evaluate hfound
  obtain ⟨spans, hspans, hadvance⟩ := hpath.advance hproper
  rcases spans with _ | ⟨span, rest⟩
  · rcases hadvance.anchor_of_nil rfl with hanchor | hanchor
    · cases hnext.symm.trans (hanchor.trans hcurrent)
    · cases hnext.symm.trans hanchor
  obtain ⟨piece, pieces, hconsumed, hpiece, _⟩ := List.map_eq_cons_iff.1 hspans
  have hle : piece.first ≤ piece.last := hpath.first_le_last piece (hconsumed ▸ List.mem_cons_self)
  have hlt := @pieceSpan?_nonempty (m.withLimit n) hlabels piece span hle hpiece
  obtain ⟨hstart, _, hrest⟩ := hadvance.ascending
  have hreach : span.stop ≤ found.state.position := hadvance.position ▸ hrest.le_reach
  exact Nat.lt_of_le_of_lt hstart (Nat.lt_of_lt_of_le hlt hreach)

theorem not_swings_of_nonempty {limit : Nat} {body : Node} {start : MatchState × Captures} :
    ¬ m.Swings limit body start := by
  intro h
  obtain ⟨run, _, hrun⟩ := h
  have hfree (i : Nat) : (run i).1.anchor ≠ .adjacent := by
    intro hadjacent
    obtain ⟨hleads, hposition, _, ⟨hanchor, _⟩ | ⟨hanchor, hanchor'⟩⟩ := hrun i
    · cases hadjacent.symm.trans hanchor
    · have hlt := hleads.position_lt hlabels hanchor hanchor'
      omega
  obtain ⟨_, _, _, ⟨_, hanchor⟩ | ⟨hanchor, _⟩⟩ := hrun 0
  · exact hfree 1 hanchor
  · exact hfree 0 hanchor

theorem not_hangs_of_nonempty {limit : Nat} {node : Node} {state : MatchState} {captures : Captures} :
    ¬ m.Hangs limit node state captures := by
  intro h
  induction h with
  | swings _ h => exact not_swings_of_nonempty hlabels h
  | body _ _ _ ih => exact ih
  | iteration _ _ _ ih => exact ih
  | sequence _ _ _ ih => exact ih
  | alternation _ _ _ ih => exact ih
  | capture _ _ ih => exact ih
  | lookahead _ _ ih => exact ih
  | pinned _ _ _ _ _ _ ih => exact ih

end

end TextAnnotation.Pattern.Matcher
