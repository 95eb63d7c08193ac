import TextAnnotation.Proofs.Pattern.Agreement

/-!
Searchers in use. A call of the search finds the first candidate from which the pattern consumes a label
when each candidate is attempted with empty captures, and a whole session of calls goes as if matching never
wrote in place.
-/

namespace TextAnnotation.Pattern

/-- A candidate from which the pattern consumes labels, the least start of these, and what the attempt gave
back. -/
structure Hit where
  candidate : Nat
  start : Nat
  found : Accepted
deriving DecidableEq, Repr

inductive Call where
  | search
  | reset (range : Span)

namespace Searcher

def attempt (s : Searcher) (candidate : Nat) : Attempt Hit :=
  (s.matcher.evaluate s.range.stop s.pattern.root { position := candidate, anchor := .start }
    (noCaptures s.pattern)).andThen fun found =>
      .ok (found.state.begin?.map fun start => ⟨candidate, start, found⟩)

def firstHit (s : Searcher) : List Nat → Attempt Hit
  | [] => .ok none
  | candidate :: rest => (s.attempt candidate).orElse (s.firstHit rest)

/-- The candidates that the cursor has not passed. -/
def remaining (s : Searcher) : List Nat :=
  s.candidates.toList.drop (partitionPoint (fun start => decide (start < s.cursor)) s.candidates)

/-- The answer to a call, and the searcher after it. -/
def report (s : Searcher) : Attempt Hit → Except MatchFault Bool × Searcher
  | .error fault => (.error fault, s)
  | .ok none => (.ok false, { s with exhausted := true, matched? := none, captures := noCaptures s.pattern })
  | .ok (some hit) =>
    match Span.between hit.start hit.found.state.position with
    | .error bounds => (.error (.inverted bounds), s)
    | .ok span =>
      let found := { s with matched? := some span, captures := hit.found.captures }
      if hit.candidate < maxOffset then
        (.ok true, { found with cursor := max hit.found.state.position (hit.candidate + 1) })
      else (.error .offsetOverflow, found)

def searchByAttempts (s : Searcher) : Except MatchFault Bool × Searcher :=
  if s.exhausted then (.ok false, s) else s.report (s.firstHit s.remaining)

def perform (search : Searcher → Except MatchFault Bool × Searcher) (s : Searcher) :
    Call → Except MatchFault Bool × Searcher
  | .search => search s
  | .reset range => (.ok false, s.reset range)

/-- The answers to calls one after the other, each with the searcher after it. -/
def session (search : Searcher → Except MatchFault Bool × Searcher) :
    List Call → Searcher → List (Except MatchFault Bool × Searcher)
  | [], _ => []
  | call :: calls, s => s.perform search call :: session search calls (s.perform search call).2

def after (calls : List Call) (s : Searcher) : Searcher :=
  calls.foldl (fun s call => (s.perform search call).2) s

theorem searchFrom_eq (s : Searcher) (candidates : List Nat) :
    s.searchFrom candidates = s.report (s.firstHit candidates) := by
  induction candidates with
  | nil => rfl
  | cons candidate rest ih =>
    have h := s.matcher.matchNode_agrees s.range.stop s.pattern.root
      { position := candidate, anchor := .start } (noCaptures s.pattern)
    simp only [searchFrom, firstHit, attempt]
    generalize s.matcher.matchNode _ _ _ _ = outcome at h ⊢
    generalize s.matcher.evaluate _ _ _ _ = tried at h ⊢
    cases h with
    | fault fault => rfl
    | failure left => exact ih
    | success found =>
      simp only [Attempt.andThen_some]
      cases found.state.begin? with
      | none => exact ih
      | some start => rfl

theorem search_eq (s : Searcher) : s.search = s.searchByAttempts := by
  simp only [search, searchByAttempts, searchFrom_eq, remaining]

theorem search_of_firstHit {s : Searcher} (hsearching : s.exhausted = false) {hit? : Option Hit}
    (h : s.firstHit s.remaining = .ok hit?) : s.search = s.report (.ok hit?) := by
  rw [search_eq, searchByAttempts, hsearching, h]
  rfl

/-- Writing captures in place and putting them back leads to the states, captures and answers that attempts
with captures of their own lead to, at every node and over every session. -/
theorem in_place_agrees_with_attempts :
    (∀ (m : Matcher) (limit : Nat) (node : Node) (state : MatchState) (captures : Captures),
      Agrees Accepted.result (m.matchNode limit node state captures)
        (m.evaluate limit node state captures)) ∧
    ∀ (view : View) (pattern : Pattern) (range : Span) (calls : List Call),
      session search calls (view.searcherIn pattern range).1 =
        session searchByAttempts calls (view.searcherIn pattern range).1 := by
  refine ⟨Matcher.matchNode_agrees, fun view pattern range calls => ?_⟩
  rw [show search = searchByAttempts from funext search_eq]

end Searcher

end TextAnnotation.Pattern
