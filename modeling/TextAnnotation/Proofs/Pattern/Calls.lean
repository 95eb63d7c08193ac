import TextAnnotation.Proofs.Pattern.Agreement
import TextAnnotation.Proofs.Pattern.Soundness

/-!
What a match comes to on its way. One match calls for others; what is left of a sequence, an alternation or a
repetition counts as a node of its own.
-/

namespace TextAnnotation.Pattern

/-- A node to be matched, by labels that end within a limit. -/
structure Task where
  limit : Nat
  node : Node
  state : MatchState
  captures : Captures

namespace Matcher

/-- A match goes on with another one whose labels may become its own. -/
inductive Continues (m : Matcher) : Task → Task → Prop where
  | first (limit : Nat) (node : Node) (rest : List Node) (state : MatchState) (captures : Captures) :
    Continues m ⟨limit, .sequence (node :: rest), state, captures⟩ ⟨limit, node, state, captures⟩
  | rest {limit : Nat} {node : Node} {rest : List Node} {state next : MatchState}
    {captures written : Captures} (h : m.matchNode limit node state captures = .ok (some next, written)) :
    Continues m ⟨limit, .sequence (node :: rest), state, captures⟩ ⟨limit, .sequence rest, next, written⟩
  | alternative (limit : Nat) (node : Node) (rest : List Node) (state : MatchState) (captures : Captures) :
    Continues m ⟨limit, .alternation (node :: rest), state, captures⟩ ⟨limit, node, state, captures⟩
  | otherwise {limit : Nat} {node : Node} {rest : List Node} {state : MatchState} {captures left : Captures}
    (h : m.matchNode limit node state captures = .ok (none, left)) :
    Continues m ⟨limit, .alternation (node :: rest), state, captures⟩
      ⟨limit, .alternation rest, state, captures⟩
  | body (limit : Nat) (body : Node) (minimum : Nat) {maximum? : Option Nat} (hmaximum : maximum? ≠ some 0)
    (state : MatchState) (captures : Captures) :
    Continues m ⟨limit, .repetition body minimum maximum?, state, captures⟩ ⟨limit, body, state, captures⟩
  | again {limit : Nat} {body : Node} {minimum : Nat} {maximum? : Option Nat} {state next : MatchState}
    {captures written : Captures} (hmaximum : maximum? ≠ some 0)
    (h : m.matchNode limit body state captures = .ok (some next, written))
    (hstalled : stalled state next = false) :
    Continues m ⟨limit, .repetition body minimum maximum?, state, captures⟩
      ⟨limit, .repetition body minimum (maximum?.map (· - 1)), next, written⟩
  | capture (limit slot : Nat) (body : Node) (state : MatchState) (captures : Captures) :
    Continues m ⟨limit, .capture slot body, state, captures⟩
      ⟨limit, body, { state with begin? := none, last? := none }, captures⟩

/-- A match comes to another one, of whichever purpose. -/
inductive Calls (m : Matcher) : Task → Task → Prop where
  | goOn {task next : Task} (h : m.Continues task next) : Calls m task next
  | lookahead (limit : Nat) (body : Node) (negated : Bool) (state : MatchState) (captures : Captures) :
    Calls m ⟨limit, .lookahead body negated, state, captures⟩ ⟨limit, body, state, captures⟩
  /-- A condition is tried inside a label that has its predicates, after other conditions that hold. -/
  | condition {limit position : Nat} {term : LabelTerm} {seek exact : Bool} {before later : List Node}
    {condition : Node} {state : MatchState} {captures written : Captures} {frozen : FrozenKind} {span : Span}
    (hfrozen : m.index term.slot = .ok frozen)
    (hcandidate : .ok (span, position) ∈ m.candidates (m.searchFor term seek limit state) frozen.kind captures
      none (frozen.index.lowerBound state.position) (frozen.index.following state.position))
    (hbefore : m.conditionsHold span exact before captures = .ok (true, written)) :
    Calls m ⟨limit, .pinned term seek exact (before ++ condition :: later), state, captures⟩
      ⟨span.stop, condition, { position := span.start, anchor := .free }, written⟩

/-- What a match comes to in the end, by way of others. -/
abbrev Reaches (m : Matcher) : Task → Task → Prop := Relation.ReflTransGen m.Calls

end Matcher

/-- A task of a resolved node, with captures that hold labels of the kinds known for them. -/
structure Task.Sound (table : AliasTable) (scope : Scope) (m : Matcher) (task : Task) : Prop where
  node : task.node.All (Node.Resolved table scope)
  captures : CapturesSound table m scope.captures task.captures

namespace Matcher

section
variable {m : Matcher} {limit : Nat} {node : Node} {state next : MatchState} {captures written : Captures}
  {found : Accepted}

theorem evaluate_eq_some (h : m.matchNode limit node state captures = .ok (some next, written)) :
    ∃ found, m.evaluate limit node state captures = .ok (some found) ∧ found.state = next ∧
      found.captures = written := by
  have hagrees := m.matchNode_agrees limit node state captures
  rw [h] at hagrees
  generalize m.evaluate limit node state captures = attempt at hagrees
  cases hagrees with
  | success found => exact ⟨found, rfl, rfl, rfl⟩

theorem matchNode_eq_some (h : m.evaluate limit node state captures = .ok (some found)) :
    m.matchNode limit node state captures = .ok (some found.state, found.captures) := by
  have hagrees := m.matchNode_agrees limit node state captures
  rw [h] at hagrees
  generalize m.matchNode limit node state captures = outcome at hagrees
  cases hagrees with
  | success => rfl

theorem matchNode_eq_none (h : m.evaluate limit node state captures = .ok none) :
    ∃ left, m.matchNode limit node state captures = .ok (none, left) := by
  have hagrees := m.matchNode_agrees limit node state captures
  rw [h] at hagrees
  generalize m.matchNode limit node state captures = outcome at hagrees
  cases hagrees with
  | failure left => exact ⟨left, rfl⟩

theorem evaluateConditions_eq_some {span : Span} {exact : Bool} {conditions : List Node}
    (h : m.conditionsHold span exact conditions captures = .ok (true, written)) :
    m.evaluateConditions span exact conditions captures = .ok (some written) := by
  have hagrees : AcceptanceAgrees (m.conditionsHold span exact conditions captures)
      (m.evaluateConditions span exact conditions captures) :=
    conditionsHold_agrees exact (fun node _ => m.matchNode_agrees span.stop node) captures
  rw [h] at hagrees
  generalize m.evaluateConditions span exact conditions captures = attempt at hagrees
  cases hagrees with
  | success => rfl

end

variable {table : AliasTable} {scope : Scope} {m : Matcher}

theorem sound_of_matchNode (hm : m.Indexes scope.kinds) {limit : Nat} {node : Node} {state next : MatchState}
    {captures written : Captures} (hnode : node.All (Node.Resolved table scope))
    (hcaptures : CapturesSound table m scope.captures captures)
    (h : m.matchNode limit node state captures = .ok (some next, written)) :
    CapturesSound table m scope.captures written := by
  obtain ⟨found, hfound, _, rfl⟩ := evaluate_eq_some h
  have hends := ends_evaluate hm hnode limit state hcaptures
  rw [hfound] at hends
  exact hends

/-- A task of a sound pattern over proper labels breaks off for one reason only. -/
theorem eq_endless_of_matchNode (hm : m.Indexes scope.kinds) (hproper : m.Proper) {task : Task}
    (htask : task.Sound table scope m) {fault : MatchFault}
    (h : m.matchNode task.limit task.node task.state task.captures = .error fault) : fault = .endless := by
  have hagrees := m.matchNode_agrees task.limit task.node task.state task.captures
  rw [h] at hagrees
  generalize hattempt : m.evaluate task.limit task.node task.state task.captures = attempt at hagrees
  cases hagrees
  exact (ends_evaluate hm htask.node task.limit task.state htask.captures).eq_endless hproper hattempt

theorem sound_of_conditionsHold (hm : m.Indexes scope.kinds) {span : Span} {exact : Bool}
    {conditions : List Node} {captures written : Captures}
    (hconditions : ∀ condition ∈ conditions, condition.All (Node.Resolved table scope))
    (hcaptures : CapturesSound table m scope.captures captures)
    (h : m.conditionsHold span exact conditions captures = .ok (true, written)) :
    CapturesSound table m scope.captures written := by
  have hends : (m.evaluateConditions span exact conditions captures).Ends m
      (CapturesSound table m scope.captures) :=
    ends_evaluateConditions
      (fun node hmem state _ hcaptures => ends_evaluate hm (hconditions node hmem) span.stop state hcaptures)
      hcaptures
  rw [evaluateConditions_eq_some h] at hends
  exact hends

theorem Continues.sound (hm : m.Indexes scope.kinds) {task next : Task} (h : m.Continues task next)
    (htask : task.Sound table scope m) : next.Sound table scope m := by
  obtain ⟨hnode, hcaptures⟩ := htask
  obtain ⟨_, hchildren⟩ := Node.all_iff.1 hnode
  cases h with
  | first => exact ⟨hchildren _ List.mem_cons_self, hcaptures⟩
  | rest h =>
    obtain ⟨hfirst, hrest⟩ := List.forall_mem_cons.1 hchildren
    exact ⟨Node.all_iff.2 ⟨trivial, hrest⟩, sound_of_matchNode hm hfirst hcaptures h⟩
  | alternative => exact ⟨hchildren _ List.mem_cons_self, hcaptures⟩
  | otherwise h =>
    obtain ⟨_, hrest⟩ := List.forall_mem_cons.1 hchildren
    exact ⟨Node.all_iff.2 ⟨trivial, hrest⟩, hcaptures⟩
  | body => exact ⟨hchildren _ List.mem_cons_self, hcaptures⟩
  | again _ h =>
    have hbody := hchildren _ List.mem_cons_self
    exact ⟨Node.all_iff.2 ⟨trivial, hchildren⟩, sound_of_matchNode hm hbody hcaptures h⟩
  | capture => exact ⟨hchildren _ List.mem_cons_self, hcaptures⟩

theorem Calls.sound (hm : m.Indexes scope.kinds) {task next : Task} (h : m.Calls task next)
    (htask : task.Sound table scope m) : next.Sound table scope m := by
  cases h with
  | goOn h => exact h.sound hm htask
  | lookahead => exact ⟨(Node.all_iff.1 htask.node).2 _ List.mem_cons_self, htask.captures⟩
  | condition _ _ hbefore =>
    have hconditions := (Node.all_iff.1 htask.node).2
    refine ⟨hconditions _ (by simp [Node.children]), ?_⟩
    refine sound_of_conditionsHold hm (fun condition hmem => ?_) htask.captures hbefore
    exact hconditions condition (by simp [Node.children, hmem])

theorem Reaches.sound (hm : m.Indexes scope.kinds) {task next : Task} (h : m.Reaches task next)
    (htask : task.Sound table scope m) : next.Sound table scope m := by
  induction h with
  | refl => exact htask
  | tail _ hlast ih => exact hlast.sound hm ih

end Matcher

/-- The match that a candidate is tried with. -/
def Searcher.task (s : Searcher) (candidate : Nat) : Task where
  limit := s.range.stop
  node := s.pattern.root
  state := { position := candidate, anchor := .start }
  captures := noCaptures s.pattern

end TextAnnotation.Pattern
