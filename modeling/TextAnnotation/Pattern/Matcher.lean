import TextAnnotation.Label.Index
import TextAnnotation.Pattern.Node
import TextAnnotation.Text.Blank
import TextAnnotation.Text.Offset

/-!
Matching a pattern against the frozen labels of a text. A match goes from left to right and never takes
back what a repetition has consumed. Captures are written into one table on the way; whoever tries
something that may fail puts the table back as it was before.
-/

namespace TextAnnotation.Pattern

/-- The frozen labels of one kind. -/
structure FrozenKind where
  kind : LabelKind
  index : LabelIndex Label

/-- Where the next label may start. -/
inductive Anchor where
  /-- Exactly at the position: for the first label of a match. -/
  | start
  /-- At the position or after the blanks that follow it. -/
  | adjacent
  /-- At the position or anywhere after it. -/
  | free
deriving DecidableEq, Repr

/-- A label, by the slot of its kind and its position in the index. -/
structure LabelRef where
  slot : Nat
  position : Nat
deriving DecidableEq, Repr

/-- How far a match has come. -/
structure MatchState where
  position : Nat
  anchor : Anchor
  /-- The least start of the labels consumed so far. -/
  begin? : Option Nat := none
  /-- The label consumed last. -/
  last? : Option LabelRef := none
deriving DecidableEq, Repr

/-- The state after one label more, which occupies `span`. -/
def MatchState.consume (state : MatchState) (span : Span) (label : LabelRef) : MatchState where
  position := span.stop
  anchor := .free
  begin? := some (state.begin?.elim span.start (min · span.start))
  last? := some label

/-- The span that a capture has matched, and the label that it consumed last. -/
structure Captured where
  span : Span
  label? : Option LabelRef
deriving DecidableEq, Repr

/-- What each capture holds, by slot. -/
abbrev Captures := Array (Option Captured)

/-- A state in which no match may ever be: no pattern that was parsed leads there, but for the last two. -/
inductive MatchFault where
  | inverted (bounds : InvertedBounds)
  | missingIndex (slot : Nat)
  | missingLabel (label : LabelRef)
  | missingCapture (slot : Nat)
  | emptyLiteral
  /-- A repetition without upper bound that counts further than it can. -/
  | endless
  /-- An offset beyond the largest one. -/
  | offsetOverflow
deriving DecidableEq, Repr

/-- What an attempt gives: the state it leads to, if it matches, and the captures as it leaves them. -/
abbrev Outcome := Except MatchFault (Option MatchState × Captures)

/-- The largest number of repetitions that is counted. -/
def maxRepetitions : Nat := 4294967295

/-- A text with the frozen labels that a pattern refers to, by slot. -/
structure Matcher where
  text : List Char
  indices : Array FrozenKind
  /-- How often a repetition without upper bound may match. -/
  repetitionLimit : Nat := maxRepetitions

namespace Matcher

def index (m : Matcher) (slot : Nat) : Except MatchFault FrozenKind :=
  match m.indices[slot]? with
  | some frozen => .ok frozen
  | none => .error (.missingIndex slot)

/-- The label that a reference means, with its kind. -/
def label (m : Matcher) (ref : LabelRef) : Except MatchFault (LabelKind × Label) := do
  let frozen ← m.index ref.slot
  match frozen.index.get? ref.position with
  | some label => return (frozen.kind, label)
  | none => .error (.missingLabel ref)

/-- The offset after the blanks that stand at `position` and before `limit`. -/
def skipBlanks (m : Matcher) (position limit : Nat) : Nat :=
  let rest := (Text.slice? m.text ⟨position, min limit (Text.byteLength m.text)⟩).getD []
  position + Text.byteLength (rest.takeWhile Text.isBlank)

/-- The last offset at which the anchor lets a label start, if there is one. -/
def windowEnd? (m : Matcher) (state : MatchState) (limit : Nat) : Option Nat :=
  match state.anchor with
  | .start => some state.position
  | .adjacent => some (m.skipBlanks state.position limit)
  | .free => none

/-- What a capture holds. -/
def captured? (captures : Captures) (slot : Nat) : Except MatchFault (Option Captured) :=
  match captures[slot]? with
  | some captured => .ok captured
  | none => .error (.missingCapture slot)

/-- Whether a label has what a predicate expects. A reference to a capture that holds nothing never
holds. -/
def predicateHolds (m : Matcher) (captures : Captures) (kind : LabelKind) (label : Label)
    (predicate : Predicate) : Except MatchFault Bool := do
  let actual? := predicate.read.valueFor? kind label
  match predicate.expected with
  | .value expected => return actual? == some expected
  | .spanOf _ slot =>
    match actual?, ← captured? captures slot with
    | some (.span span), some captured => return span == captured.span
    | _, _ => return false
  | .readingOf _ slot _ read =>
    let bound? ← match (← captured? captures slot).bind (·.label?) with
      | some ref =>
        let (kind, label) ← m.label ref
        pure (read.valueFor? kind label)
      | none => pure none
    return actual?.isSome && actual? == bound?

/-- Whether a label has what all predicates expect. -/
def predicatesHold (m : Matcher) (captures : Captures) (kind : LabelKind) (label : Label) :
    List Predicate → Except MatchFault Bool
  | [] => .ok true
  | predicate :: rest => do
    if ← m.predicateHolds captures kind label predicate then
      m.predicatesHold captures kind label rest
    else return false

/-- What a term asks of the labels it may take. -/
structure Search where
  term : LabelTerm
  /-- Whether labels after the nearest ones are tried too. -/
  seek : Bool
  /-- The last offset at which a label may start, given by the anchor. -/
  windowEnd? : Option Nat
  /-- The last offset at which a label may end. -/
  limit : Nat

/-- The first acceptable label among those from `position` on. Unless the term seeks, only labels that
start where the first one with its predicates starts are tried. A label that is not accepted leaves no
trace in the captures. -/
def pick (m : Matcher) (search : Search) (kind : LabelKind)
    (accepts : Span → Captures → Except MatchFault (Bool × Captures)) (nearest? : Option Nat)
    (position : Nat) : List Label → Captures → Except MatchFault (Option (Span × Nat) × Captures)
  | [], captures => .ok (none, captures)
  | label :: rest, captures => do
    let span := label.span
    if search.limit < span.start || search.windowEnd?.any (· < span.start) ||
        nearest?.any (· < span.start) then
      return (none, captures)
    else if search.limit < span.stop then
      m.pick search kind accepts nearest? (position + 1) rest captures
    else if ← m.predicatesHold captures kind label search.term.predicates then
      let nearest? := if search.seek then none else nearest?.or (some span.start)
      let (accepted, written) ← accepts span captures
      if accepted then return (some (span, position), written)
      else m.pick search kind accepts nearest? (position + 1) rest captures
    else m.pick search kind accepts nearest? (position + 1) rest captures

/-- A match of one label whose span is acceptable. -/
def matchLabel (m : Matcher) (term : LabelTerm) (seek : Bool)
    (accepts : Span → Captures → Except MatchFault (Bool × Captures)) (limit : Nat)
    (state : MatchState) (captures : Captures) : Outcome := do
  let frozen ← m.index term.slot
  let search : Search :=
    { term, limit
      seek := seek || state.anchor != .free
      windowEnd? := m.windowEnd? state limit }
  let (picked?, captures) ← m.pick search frozen.kind accepts none
    (frozen.index.lowerBound state.position) (frozen.index.following state.position) captures
  return (picked?.map fun (span, position) => state.consume span ⟨term.slot, position⟩, captures)

/-- The texts of labels, unless one has none. -/
def texts? (read : Reading String) (kind : LabelKind) (labels : List Label) : Option (List String) :=
  labels.mapM fun label => read.valueFor? kind label

/-- The first place among the labels from `position` on where the words of a literal stand: its span,
and the position of its last label. -/
def pickWords (literal : Literal) (windowEnd? : Option Nat) (limit more : Nat) (kind : LabelKind)
    (position : Nat) : List Label → Except MatchFault (Option (Span × Nat))
  | [] => .ok none
  | first :: rest =>
    if limit < first.span.start || windowEnd?.any (· < first.span.start) then .ok none
    else
      match (first :: rest)[more]? with
      | none => .ok none
      | some last =>
        let found :=
          last.span.stop ≤ limit &&
            (texts? literal.read kind ((first :: rest).take (more + 1))).any fun texts =>
              literal.words.longestMatchAt texts 0 == some more
        if found then
          match Span.between first.span.start last.span.stop with
          | .ok span => .ok (some (span, position + more))
          | .error bounds => .error (.inverted bounds)
        else pickWords literal windowEnd? limit more kind (position + 1) rest

/-- A match of the words of a literal by consecutive labels. -/
def matchLiteral (m : Matcher) (literal : Literal) (limit : Nat) (state : MatchState) :
    Except MatchFault (Option MatchState) := do
  let frozen ← m.index literal.slot
  match literal.wordCount with
  | 0 => .error .emptyLiteral
  | more + 1 =>
    let picked? ← pickWords literal (m.windowEnd? state limit) limit more frozen.kind
      (frozen.index.lowerBound state.position) (frozen.index.following state.position)
    return picked?.map fun (span, position) => state.consume span ⟨literal.slot, position⟩

/-- Whether an iteration has led nowhere. -/
def stalled (state next : MatchState) : Bool :=
  next.position == state.position && next.begin? == state.begin? && next.anchor == state.anchor

/-- A body as often as it matches, up to `more` times after the first `count`, and how often it did in
all. An iteration that led nowhere is the last one, and one that fails leaves no trace. Without bound, the
body is tried once more after the last iteration that can be counted. -/
def repeatUpTo (body : MatchState → Captures → Outcome) (bounded : Bool) (count : Nat) :
    Nat → MatchState → Captures → Except MatchFault (Nat × MatchState × Captures)
  | 0, state, captures =>
    if bounded then .ok (count, state, captures)
    else do
      let (next?, _) ← body state captures
      if next?.isSome then .error .endless else return (count, state, captures)
  | more + 1, state, captures => do
    let (next?, written) ← body state captures
    match next? with
    | none => return (count, state, captures)
    | some next =>
      if stalled state next then return (count + 1, next, written)
      else repeatUpTo body bounded (count + 1) more next written

/-- The state after a capture whose body led from `state` to `inner`, its own begin and last label
apart. -/
def joinCapture (state inner : MatchState) : MatchState :=
  { inner with
    begin? := state.begin?.merge min inner.begin?
    last? := inner.last?.or state.last? }

mutual

/-- A match of a node from a state, by labels that end within `limit`. -/
def matchNode (m : Matcher) (limit : Nat) : Node → MatchState → Captures → Outcome
  | .sequence elements, state, captures => m.matchAll limit elements state captures
  | .alternation alternatives, state, captures => m.matchFirst limit alternatives state captures
  | .adjacent, state, captures => .ok (some { state with anchor := .adjacent }, captures)
  | .repetition body minimum maximum?, state, captures => do
    let (count, final, captures) ←
      repeatUpTo (fun state captures => m.matchNode limit body state captures) maximum?.isSome 0
        (maximum?.getD m.repetitionLimit) state captures
    return (if minimum ≤ count then some final else none, captures)
  | .capture slot body, state, captures => do
    let (inner?, captures) ← m.matchNode limit body { state with begin? := none, last? := none } captures
    match inner? with
    | none => return (none, captures)
    | some inner =>
      match inner.begin? with
      | none => return (some (joinCapture state inner), captures)
      | some start =>
        match Span.between start inner.position with
        | .error bounds => .error (.inverted bounds)
        | .ok span =>
          if slot < captures.size then
            return (some (joinCapture state inner), captures.set! slot (some ⟨span, inner.last?⟩))
          else .error (.missingCapture slot)
  | .lookahead body negated, state, captures => do
    let (found?, tentative) ← m.matchNode limit body state captures
    if found?.isSome == negated then return (none, captures)
    else return (some state, if found?.isSome then tentative else captures)
  | .label term, state, captures =>
    m.matchLabel term false (fun _ captures => .ok (true, captures)) limit state captures
  | .pinned term seek exact conditions, state, captures =>
    m.matchLabel term seek (fun span captures => m.conditionsHold span exact conditions captures) limit
      state captures
  | .literal literal, state, captures => do return (← m.matchLiteral literal limit state, captures)

/-- A match of nodes one after the other. -/
def matchAll (m : Matcher) (limit : Nat) : List Node → MatchState → Captures → Outcome
  | [], state, captures => .ok (some state, captures)
  | node :: rest, state, captures => do
    let (next?, captures) ← m.matchNode limit node state captures
    match next? with
    | some next => m.matchAll limit rest next captures
    | none => return (none, captures)

/-- A match of the first of several nodes that matches. One that fails leaves no trace. -/
def matchFirst (m : Matcher) (limit : Nat) : List Node → MatchState → Captures → Outcome
  | [], _, captures => .ok (none, captures)
  | node :: rest, state, captures => do
    let (next?, written) ← m.matchNode limit node state captures
    match next? with
    | some next => return (some next, written)
    | none => m.matchFirst limit rest state captures

/-- Whether all conditions match inside a span, each of them from end to end if they must be exact. -/
def conditionsHold (m : Matcher) (span : Span) (exact : Bool) :
    List Node → Captures → Except MatchFault (Bool × Captures)
  | [], captures => .ok (true, captures)
  | condition :: rest, captures => do
    let (inner?, captures) ←
      m.matchNode span.stop condition { position := span.start, anchor := .free } captures
    match inner? with
    | none => return (false, captures)
    | some inner =>
      if !exact || (inner.begin? == some span.start && inner.position == span.stop) then
        m.conditionsHold span exact rest captures
      else return (false, captures)

end

end Matcher

end TextAnnotation.Pattern
