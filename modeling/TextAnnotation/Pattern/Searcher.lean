import TextAnnotation.Pattern.Matcher
import TextAnnotation.Text.Description
import TextAnnotation.View

/-!
Searching a range for the matches of a pattern, one after the other. A match can start only where a label
of the pattern does, so only those offsets are tried.
-/

namespace TextAnnotation.Pattern

/-- A search for a pattern: what it searches, how far it has come, and its last match. -/
structure Searcher where
  pattern : Pattern
  text : String
  indices : Array FrozenKind
  range : Span
  /-- The starts of the labels inside the range, in ascending order. -/
  candidates : Array Nat
  /-- The least offset at which the next match may start. -/
  cursor : Nat
  exhausted : Bool := false
  matched? : Option Span := none
  captures : Captures
  /-- How often a repetition without upper bound may match. -/
  repetitionLimit : Nat := maxRepetitions

namespace Searcher

/-- The largest offset into a text. -/
def maxOffset : Nat := 18446744073709551615

/-- The starts of the labels that lie inside a range, once each, in ascending order. -/
def candidateStarts (indices : Array FrozenKind) (range : Span) : List Nat :=
  let starts := indices.toList.flatMap fun frozen =>
    (frozen.index.insideSpan range).map (·.span.start)
  (starts.mergeSort fun a b => decide (a ≤ b)).eraseReps

/-- The captures of a pattern before it has matched. -/
def noCaptures (pattern : Pattern) : Captures := Array.replicate pattern.captureNames.length none

/-- A search of `range` from its beginning. -/
def start (pattern : Pattern) (text : String) (indices : Array FrozenKind) (range : Span) : Searcher where
  pattern := pattern
  text := text
  indices := indices
  range := range
  candidates := (candidateStarts indices range).toArray
  cursor := range.start
  captures := noCaptures pattern

/-- The search of another range from its beginning. The last match is forgotten. -/
def reset (s : Searcher) (range : Span) : Searcher :=
  { start s.pattern s.text s.indices range with repetitionLimit := s.repetitionLimit }

def matcher (s : Searcher) : Matcher where
  text := s.text.toList
  indices := s.indices
  repetitionLimit := s.repetitionLimit

/-- The outcome of one call: a match, no more matches, or a fault. A cursor that cannot move past its match
is a fault too. -/
def searchFrom (s : Searcher) : List Nat → Except MatchFault Bool × Searcher
  | [] => (.ok false, { s with exhausted := true, matched? := none, captures := noCaptures s.pattern })
  | candidate :: rest =>
    match s.matcher.matchNode s.range.stop s.pattern.root { position := candidate, anchor := .start }
        (noCaptures s.pattern) with
    | .error fault => (.error fault, s)
    | .ok (none, _) => s.searchFrom rest
    | .ok (some state, captures) =>
      match state.begin? with
      | none => s.searchFrom rest
      | some first =>
        match Span.between first state.position with
        | .error bounds => (.error (.inverted bounds), s)
        | .ok span =>
          let found := { s with matched? := some span, captures }
          if candidate < maxOffset then
            (.ok true, { found with cursor := max state.position (candidate + 1) })
          else (.error .offsetOverflow, found)

/-- The next match at the cursor or after it. After the last one, there are none until a reset. -/
def search (s : Searcher) : Except MatchFault Bool × Searcher :=
  if s.exhausted then (.ok false, s)
  else
    s.searchFrom
      (s.candidates.toList.drop (partitionPoint (fun start => decide (start < s.cursor)) s.candidates))

/-- What a reader gives for each of the next matches, at most `most` of them. -/
def drainUpTo (read : Searcher → α) : Nat → Searcher → Except MatchFault (List α) × Searcher
  | 0, s => (.ok [], s)
  | most + 1, s =>
    match s.search with
    | (.error fault, s) => (.error fault, s)
    | (.ok false, s) => (.ok [], s)
    | (.ok true, s) =>
      let (more, final) := drainUpTo read most s
      (more.map (read s :: ·), final)

/-- What a reader gives for each of the matches left. Every match takes a candidate. -/
def drain (s : Searcher) (read : Searcher → α) : Except MatchFault (List α) × Searcher :=
  drainUpTo read (s.candidates.size + 1) s

/-- The text of the last match, if it has one. -/
def matchedText? (s : Searcher) : Option String := s.matched?.bind (·.coveredText? s.text)

/-- What a capture holds since the last match. -/
def capture? (s : Searcher) (name : String) : Option Captured :=
  (s.pattern.captureSlot? name).bind fun slot => s.captures[slot]?.join

/-- The span of a capture. -/
def span? (s : Searcher) (name : String) : Option Span := (s.capture? name).map (·.span)

/-- The label of a capture, with its kind. -/
def boundLabel? (s : Searcher) (name : String) : Option (LabelKind × Label) := do
  let ref ← (← s.capture? name).label?
  let frozen ← s.indices[ref.slot]?
  let label ← frozen.index.get? ref.position
  return (frozen.kind, label)

/-- The label of a capture, if it is of the given kind. -/
def label? (s : Searcher) (name : String) (kind : LabelKind) : Option Label :=
  (s.boundLabel? name).bind fun (found, label) => if found = kind then some label else none

/-- The search as a record. -/
def describe (s : Searcher) : String :=
  Text.Description.record "Searcher" [
    ("expr", Text.quoted s.pattern.source),
    ("range", s.range.describe),
    ("cursor", toString s.cursor),
    ("exhausted", Text.Description.truth s.exhausted),
    ("matched", Text.Description.optional (s.matched?.map Span.describe))]

end Searcher

end TextAnnotation.Pattern

namespace TextAnnotation.View

/-- A search for a pattern in a range of a view. The kinds that the pattern refers to are frozen. -/
def searcherIn (view : View) (pattern : Pattern) (range : Span) : Pattern.Searcher × View :=
  let (indices, view) := view.freezeAll pattern.kinds
  let frozen := (pattern.kinds.zip indices).map fun (kind, index) => Pattern.FrozenKind.mk kind index
  (.start pattern view.text frozen.toArray range, view)

/-- A search for a pattern in the whole of a view. -/
def searcher (view : View) (pattern : Pattern) : Pattern.Searcher × View :=
  view.searcherIn pattern (.ofText view.text)

end TextAnnotation.View
