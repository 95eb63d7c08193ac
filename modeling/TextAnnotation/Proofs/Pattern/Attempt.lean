import TextAnnotation.Pattern.Searcher

/-!
Matching by attempts that have copies of the captures to themselves. An attempt that succeeds gives its
captures back, with the labels that it has consumed; one that fails gives nothing back.
-/

namespace TextAnnotation.Pattern

/-- Labels consumed together: those of one kind from a first position to a last one. -/
structure Piece where
  slot : Nat
  first : Nat
  last : Nat
deriving DecidableEq, Repr

def Piece.labels (piece : Piece) : List LabelRef :=
  (List.range' piece.first (piece.last + 1 - piece.first)).map fun position => ⟨piece.slot, position⟩

structure Accepted where
  state : MatchState
  captures : Captures
  /-- What it consumed, in order, inside lookaheads and pinned conditions apart. -/
  consumed : List Piece
deriving DecidableEq, Repr

/-- An attempt that leads nowhere and succeeds. -/
def Accepted.still (state : MatchState) (captures : Captures) : Accepted := ⟨state, captures, []⟩

def Accepted.followedBy (earlier later : Accepted) : Accepted :=
  ⟨later.state, later.captures, earlier.consumed ++ later.consumed⟩

abbrev Attempt (α : Type) := Except MatchFault (Option α)

namespace Attempt

def andThen (attempt : Attempt α) (next : α → Attempt β) : Attempt β :=
  match attempt with
  | .error fault => .error fault
  | .ok none => .ok none
  | .ok (some found) => next found

def orElse (attempt other : Attempt α) : Attempt α :=
  match attempt with
  | .error fault => .error fault
  | .ok none => other
  | .ok (some found) => .ok (some found)

@[simp] theorem andThen_error (next : α → Attempt β) (fault : MatchFault) :
    andThen (.error fault) next = .error fault := rfl

@[simp] theorem andThen_none (next : α → Attempt β) : andThen (.ok none) next = .ok none := rfl

@[simp] theorem andThen_some (next : α → Attempt β) (found : α) :
    andThen (.ok (some found)) next = next found := rfl

@[simp] theorem orElse_error (other : Attempt α) (fault : MatchFault) :
    orElse (.error fault) other = .error fault := rfl

@[simp] theorem orElse_none (other : Attempt α) : orElse (.ok none) other = other := rfl

@[simp] theorem orElse_some (other : Attempt α) (found : α) :
    orElse (.ok (some found)) other = .ok (some found) := rfl

theorem andThen_eq_some_iff {attempt : Attempt α} {next : α → Attempt β} {b : β} :
    attempt.andThen next = .ok (some b) ↔ ∃ a, attempt = .ok (some a) ∧ next a = .ok (some b) := by
  rcases attempt with fault | _ | a <;> simp

theorem map_eq_none_iff {attempt : Attempt α} {g : α → β} :
    (attempt.andThen fun a => .ok (some (g a))) = .ok none ↔ attempt = .ok none := by
  rcases attempt with fault | _ | a <;> simp

theorem orElse_eq_some_iff {attempt other : Attempt α} {a : α} :
    attempt.orElse other = .ok (some a) ↔
      attempt = .ok (some a) ∨ (attempt = .ok none ∧ other = .ok (some a)) := by
  rcases attempt with fault | _ | a <;> simp

theorem orElse_eq_none_iff {attempt other : Attempt α} :
    attempt.orElse other = .ok none ↔ attempt = .ok none ∧ other = .ok none := by
  rcases attempt with fault | _ | a <;> simp

end Attempt

namespace Matcher

/-- The labels that a term takes into account, in the order in which it does. Which ones these are is
decided before any of them is tried. -/
def candidates (m : Matcher) (search : Search) (kind : LabelKind) (captures : Captures)
    (nearest? : Option Nat) (position : Nat) : List Label → List (Except MatchFault (Span × Nat))
  | [] => []
  | label :: rest =>
    let span := label.span
    if search.limit < span.start || search.windowEnd?.any (· < span.start) ||
        nearest?.any (· < span.start) then []
    else if search.limit < span.stop then
      m.candidates search kind captures nearest? (position + 1) rest
    else
      match m.predicatesHold captures kind label search.term.predicates with
      | .error fault => [.error fault]
      | .ok true =>
        let nearest? := if search.seek then none else nearest?.or (some span.start)
        .ok (span, position) :: m.candidates search kind captures nearest? (position + 1) rest
      | .ok false => m.candidates search kind captures nearest? (position + 1) rest

/-- The first candidate that is accepted, with the captures that accepting it wrote. -/
def firstAccepted (accepts : Span → Attempt Captures) :
    List (Except MatchFault (Span × Nat)) → Attempt ((Span × Nat) × Captures)
  | [] => .ok none
  | .error fault :: _ => .error fault
  | .ok (span, position) :: rest =>
    ((accepts span).andThen fun written => .ok (some ((span, position), written))).orElse
      (firstAccepted accepts rest)

def searchFor (m : Matcher) (term : LabelTerm) (seek : Bool) (limit : Nat) (state : MatchState) :
    Search where
  term := term
  limit := limit
  seek := seek || state.anchor != .free
  windowEnd? := m.windowEnd? state limit

def evaluateLabel (m : Matcher) (term : LabelTerm) (seek : Bool) (accepts : Span → Attempt Captures)
    (limit : Nat) (state : MatchState) (captures : Captures) : Attempt Accepted :=
  match m.index term.slot with
  | .error fault => .error fault
  | .ok frozen =>
    (firstAccepted accepts
      (m.candidates (m.searchFor term seek limit state) frozen.kind captures none
        (frozen.index.lowerBound state.position) (frozen.index.following state.position))).andThen
      fun ((span, position), written) =>
        .ok (some ⟨state.consume span ⟨term.slot, position⟩, written, [⟨term.slot, position, position⟩]⟩)

def evaluateLiteral (m : Matcher) (literal : Literal) (limit : Nat) (state : MatchState)
    (captures : Captures) : Attempt Accepted :=
  Attempt.andThen (m.matchLiteral literal limit state) fun next =>
    .ok (some ⟨next, captures,
      next.last?.toList.map fun last => ⟨last.slot, last.position + 1 - literal.wordCount, last.position⟩⟩)

/-- What becomes of a repetition after an attempt of its body. The rest of it follows an iteration that has
led somewhere. -/
def afterIteration (state : MatchState) (captures : Captures)
    (rest : MatchState → Captures → Attempt (Nat × Accepted)) : Attempt Accepted → Attempt (Nat × Accepted)
  | .error fault => .error fault
  | .ok none => .ok (some (0, .still state captures))
  | .ok (some next) =>
    if stalled state next.state then .ok (some (1, next))
    else
      (rest next.state next.captures).andThen fun (count, last) =>
        .ok (some (count + 1, next.followedBy last))

/-- A body as often as it matches, up to `more` times, and how often it did. -/
def iterate (body : MatchState → Captures → Attempt Accepted) (bounded : Bool) :
    Nat → MatchState → Captures → Attempt (Nat × Accepted)
  | 0, state, captures =>
    if bounded then .ok (some (0, .still state captures))
    else
      ((body state captures).andThen fun _ => .error .endless).orElse
        (.ok (some (0, .still state captures)))
  | more + 1, state, captures =>
    afterIteration state captures (iterate body bounded more) (body state captures)

/-- The capture that a body has matched, written into its slot. A body that consumed nothing binds
nothing. -/
def writeCapture (slot : Nat) (state : MatchState) (inner : Accepted) : Attempt Accepted :=
  match inner.state.begin? with
  | none => .ok (some { inner with state := joinCapture state inner.state })
  | some start =>
    match Span.between start inner.state.position with
    | .error bounds => .error (.inverted bounds)
    | .ok span =>
      if slot < inner.captures.size then
        .ok (some ⟨joinCapture state inner.state,
          inner.captures.set! slot (some ⟨span, inner.state.last?⟩), inner.consumed⟩)
      else .error (.missingCapture slot)

def lookAround (negated : Bool) (state : MatchState) (captures : Captures) :
    Attempt Accepted → Attempt Accepted
  | .error fault => .error fault
  | .ok none => .ok (if negated then some (.still state captures) else none)
  | .ok (some found) => .ok (if negated then none else some (.still state found.captures))

/-- Whether a condition that was matched inside a span is enough. -/
def fits (span : Span) (exact : Bool) (inner : Accepted) : Bool :=
  !exact || (inner.state.begin? == some span.start && inner.state.position == span.stop)

mutual

/-- An attempt to match a node from a state, by labels that end within `limit`. -/
def evaluate (m : Matcher) (limit : Nat) : Node → MatchState → Captures → Attempt Accepted
  | .sequence elements, state, captures => m.evaluateAll limit elements state captures
  | .alternation alternatives, state, captures => m.evaluateFirst limit alternatives state captures
  | .adjacent, state, captures => .ok (some (.still { state with anchor := .adjacent } captures))
  | .repetition body minimum maximum?, state, captures =>
    (iterate (fun state captures => m.evaluate limit body state captures) maximum?.isSome
      (maximum?.getD m.repetitionLimit) state captures).andThen fun (count, final) =>
        .ok (if minimum ≤ count then some final else none)
  | .capture slot body, state, captures =>
    (m.evaluate limit body { state with begin? := none, last? := none } captures).andThen fun inner =>
      writeCapture slot state inner
  | .lookahead body negated, state, captures =>
    lookAround negated state captures (m.evaluate limit body state captures)
  | .label term, state, captures =>
    m.evaluateLabel term false (fun _ => .ok (some captures)) limit state captures
  | .pinned term seek exact conditions, state, captures =>
    m.evaluateLabel term seek (fun span => m.evaluateConditions span exact conditions captures) limit
      state captures
  | .literal literal, state, captures => m.evaluateLiteral literal limit state captures

def evaluateAll (m : Matcher) (limit : Nat) : List Node → MatchState → Captures → Attempt Accepted
  | [], state, captures => .ok (some (.still state captures))
  | node :: rest, state, captures =>
    (m.evaluate limit node state captures).andThen fun found =>
      (m.evaluateAll limit rest found.state found.captures).andThen fun last =>
        .ok (some (found.followedBy last))

def evaluateFirst (m : Matcher) (limit : Nat) : List Node → MatchState → Captures → Attempt Accepted
  | [], _, _ => .ok none
  | node :: rest, state, captures =>
    (m.evaluate limit node state captures).orElse (m.evaluateFirst limit rest state captures)

def evaluateConditions (m : Matcher) (span : Span) (exact : Bool) : List Node → Captures → Attempt Captures
  | [], captures => .ok (some captures)
  | condition :: rest, captures =>
    (m.evaluate span.stop condition { position := span.start, anchor := .free } captures).andThen
      fun inner =>
        if fits span exact inner then m.evaluateConditions span exact rest inner.captures else .ok none

end

end Matcher

/-- Induction over nodes, where what holds of all members of a list may be used for the node. -/
@[induction_eliminator]
theorem Node.induct {P : Node → Prop}
    (sequence : ∀ elements, (∀ node ∈ elements, P node) → P (.sequence elements))
    (alternation : ∀ alternatives, (∀ node ∈ alternatives, P node) → P (.alternation alternatives))
    (adjacent : P .adjacent)
    (repetition : ∀ body minimum maximum?, P body → P (.repetition body minimum maximum?))
    (capture : ∀ slot body, P body → P (.capture slot body))
    (lookahead : ∀ body negated, P body → P (.lookahead body negated))
    (label : ∀ term, P (.label term))
    (pinned : ∀ term seek exact conditions, (∀ node ∈ conditions, P node) →
      P (.pinned term seek exact conditions))
    (literal : ∀ literal, P (.literal literal)) (node : Node) : P node :=
  @Node.rec P (fun nodes => ∀ node ∈ nodes, P node) sequence alternation adjacent
    repetition capture lookahead label pinned literal (fun _ h => absurd h List.not_mem_nil)
    (fun _ _ hnode hrest => List.forall_mem_cons.2 ⟨hnode, hrest⟩) node

end TextAnnotation.Pattern
