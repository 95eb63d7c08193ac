import TextAnnotation.Proofs.Pattern.Alike
import TextAnnotation.Proofs.Pattern.Exhaustive
import TextAnnotation.Proofs.Pattern.Reading

/-!
A search of a range depends on the labels inside the range only. Two views that hold the same ones there are
told apart by no call, whatever they hold elsewhere.
-/

namespace TextAnnotation

namespace Pattern

namespace Searcher

/-- What a caller sees of a call: the answer, and what can be asked of the last match after it. -/
structure Sighting where
  answer : Except MatchFault Bool
  matched? : Option Span
  span? : String → Option Span
  boundLabel? : String → Option (LabelKind × Label)

def sighting (answer : Except MatchFault Bool × Searcher) : Sighting :=
  ⟨answer.1, answer.2.matched?, answer.2.span?, answer.2.boundLabel?⟩

/-- Searchers in the same part of a range in which their labels are the same. -/
structure Alike (range : Span) (s t : Searcher) : Prop where
  pattern : s.pattern = t.pattern
  matcher : s.matcher.Alike range t.matcher
  root : s.pattern.root.All (Node.LiteralAscends s.matcher)
  root' : s.pattern.root.All (Node.LiteralAscends t.matcher)
  part : s.range = t.range
  inside : range.contains s.range = true
  candidates : s.candidates = t.candidates
  start_le : ∀ candidate ∈ s.candidates, range.start ≤ candidate
  cursor : s.cursor = t.cursor
  exhausted : s.exhausted = t.exhausted
  matched : s.matched? = t.matched?
  captures : CapturesAlike s.matcher t.matcher s.captures t.captures

/-- The hits of two searchers from the same candidate. -/
structure AlikeHit (range : Span) (m n : Matcher) (hit other : Hit) : Prop where
  candidate : hit.candidate = other.candidate
  start : hit.start = other.start
  found : hit.found.Alike range m n other.found

section
variable {range : Span} {s t : Searcher}

theorem Alike.attempt (h : s.Alike range t) {candidate : Nat} (hcandidate : range.start ≤ candidate) :
    Attempt.Alike (AlikeHit range s.matcher t.matcher) (s.attempt candidate) (t.attempt candidate) := by
  have hinside := h.inside
  simp only [Span.contains_iff] at hinside
  have hevaluate := h.matcher.alikeAt h.root h.root' s.range.stop hinside.2 _ _ _ _
    (.fresh s.matcher t.matcher hcandidate .start) (.replicate s.matcher t.matcher s.pattern.captureNames.length)
  unfold Searcher.attempt
  rw [← h.pattern, ← h.part]
  apply hevaluate.andThen
  intro found found' hfound
  rw [← hfound.state.begin]
  cases found.state.begin? with
  | none => exact .failure
  | some start => exact .success ⟨rfl, rfl, hfound⟩

theorem Alike.firstHit (h : s.Alike range t) {candidates : List Nat}
    (hcandidates : ∀ candidate ∈ candidates, range.start ≤ candidate) :
    Attempt.Alike (AlikeHit range s.matcher t.matcher) (s.firstHit candidates) (t.firstHit candidates) := by
  induction candidates with
  | nil => exact .failure
  | cons candidate rest ih =>
    obtain ⟨hcandidate, hrest⟩ := List.forall_mem_cons.1 hcandidates
    exact (h.attempt hcandidate).orElse (ih hrest)

theorem Alike.report (h : s.Alike range t) {hit? other? : Attempt Hit}
    (hhit : Attempt.Alike (AlikeHit range s.matcher t.matcher) hit? other?) :
    (s.report hit?).1 = (t.report other?).1 ∧ (s.report hit?).2.Alike range (t.report other?).2 := by
  cases hhit with
  | fault fault => exact ⟨rfl, h⟩
  | failure =>
    refine ⟨rfl, { h with exhausted := rfl, matched := rfl, captures := ?_ }⟩
    simp only [Searcher.report, ← h.pattern]
    exact .replicate s.matcher t.matcher _
  | @success hit other hhit =>
    simp only [Searcher.report, ← hhit.candidate, ← hhit.start, ← hhit.found.state.position]
    split
    · exact ⟨rfl, h⟩
    split
    · exact ⟨rfl, { h with cursor := rfl, matched := rfl, captures := hhit.found.captures }⟩
    · exact ⟨rfl, { h with matched := rfl, captures := hhit.found.captures }⟩

theorem Alike.search (h : s.Alike range t) :
    s.search.1 = t.search.1 ∧ s.search.2.Alike range t.search.2 := by
  rw [search_eq, search_eq]
  unfold searchByAttempts
  rw [← h.exhausted]
  split
  · exact ⟨rfl, h⟩
  · have hremaining : s.remaining = t.remaining := by
      simp only [remaining, h.candidates, h.cursor]
    rw [← hremaining]
    apply h.report (h.firstHit _)
    intro candidate hmem
    exact h.start_le candidate (Array.mem_toList_iff.1 (List.mem_of_mem_drop hmem))

theorem candidateStarts_eq {m n : Matcher} (h : m.Alike range n) {part : Span}
    (hpart : range.contains part = true) :
    candidateStarts m.indices part = candidateStarts n.indices part := by
  let starts (frozen : FrozenKind) : List Nat := (frozen.index.insideSpan part).map (·.span.start)
  have hstarts : m.indices.toList.map starts = n.indices.toList.map starts := by
    apply List.ext_getElem?
    intro slot
    simp only [List.getElem?_map, Array.getElem?_toList]
    rcases eq_none_or_eq_some_of_rel (h.indices slot) with
      ⟨hnone, hnone'⟩ | ⟨frozen, other, hfrozen, hother, hrel⟩
    · rw [hnone, hnone']
    · rw [hfrozen, hother, Option.map_some, Option.map_some]
      simp only [starts, hrel.inside.insideSpan_eq hpart]
  simp only [candidateStarts, List.flatMap_def]
  rw [hstarts]

theorem alike_reset (hpattern : s.pattern = t.pattern) (hm : s.matcher.Alike range t.matcher)
    (hroot : s.pattern.root.All (Node.LiteralAscends s.matcher))
    (hroot' : s.pattern.root.All (Node.LiteralAscends t.matcher)) {part : Span}
    (hpart : range.contains part = true) : (s.reset part).Alike range (t.reset part) where
  pattern := hpattern
  matcher := hm
  root := hroot
  root' := hroot'
  part := rfl
  inside := hpart
  candidates := congrArg List.toArray (candidateStarts_eq hm hpart)
  start_le := by
    intro candidate hmem
    have hstart := le_of_mem_candidateStarts (List.mem_toArray.1 hmem)
    simp only [Span.contains_iff] at hpart
    exact Nat.le_trans hpart.1 hstart
  cursor := rfl
  exhausted := rfl
  matched := rfl
  captures := by
    simp only [Searcher.reset, start, ← hpattern]
    exact .replicate s.matcher t.matcher s.pattern.captureNames.length

theorem Alike.capture? (h : s.Alike range t) (name : String) :
    Option.Rel (Captured.Alike s.matcher t.matcher) (s.capture? name) (t.capture? name) := by
  unfold Searcher.capture?
  rw [← h.pattern]
  cases s.pattern.captureSlot? name with
  | none => exact .none
  | some slot =>
    rcases eq_none_or_eq_some_of_rel (h.captures slot) with ⟨hnone, hnone'⟩ | ⟨held?, other?, hheld, hother, hrel⟩
    · simp only [Option.bind_some, hnone, hnone']
      exact .none
    · simp only [Option.bind_some, hheld, hother]
      exact hrel

theorem Alike.span?_eq (h : s.Alike range t) (name : String) : s.span? name = t.span? name := by
  unfold Searcher.span?
  rcases eq_none_or_eq_some_of_rel (h.capture? name) with ⟨hnone, hnone'⟩ | ⟨held, other, hheld, hother, hrel⟩
  · rw [hnone, hnone']
  · rw [hheld, hother, Option.map_some, Option.map_some, hrel.span]

theorem Alike.boundLabel?_eq (h : s.Alike range t) (name : String) : s.boundLabel? name = t.boundLabel? name := by
  rcases eq_none_or_eq_some_of_rel (h.capture? name) with ⟨hnone, hnone'⟩ | ⟨held, other, hheld, hother, hrel⟩
  · simp only [Searcher.boundLabel?, hnone, hnone']
    rfl
  rcases eq_none_or_eq_some_of_rel hrel.label with
    ⟨hnone, hnone'⟩ | ⟨ref, ref', href, href', ⟨kind, label⟩, hlabel, hlabel'⟩
  · simp only [Searcher.boundLabel?, hheld, hother, hnone, hnone', Option.bind_eq_bind, Option.bind_some]
    rfl
  · rw [boundLabel?_of_label hheld href hlabel, boundLabel?_of_label hother href' hlabel']

theorem Alike.perform (h : s.Alike range t) {call : Call}
    (hcall : ∀ part, call = .reset part → range.contains part = true) :
    (s.perform Searcher.search call).1 = (t.perform Searcher.search call).1 ∧
      (s.perform Searcher.search call).2.Alike range (t.perform Searcher.search call).2 := by
  cases call with
  | search => exact h.search
  | reset part => exact ⟨rfl, alike_reset h.pattern h.matcher h.root h.root' (hcall part rfl)⟩

/-- Calls that stay inside the range are answered alike. -/
theorem Alike.sightings_eq (h : s.Alike range t) {calls : List Call}
    (hcalls : ∀ part, .reset part ∈ calls → range.contains part = true) :
    (session Searcher.search calls s).map sighting = (session Searcher.search calls t).map sighting := by
  induction calls generalizing s t with
  | nil => rfl
  | cons call calls ih =>
    obtain ⟨hcall, hrest⟩ : (∀ part, call = .reset part → range.contains part = true) ∧
        ∀ part, .reset part ∈ calls → range.contains part = true :=
      ⟨fun part heq => hcalls part (heq ▸ List.mem_cons_self), fun part hmem =>
        hcalls part (List.mem_cons_of_mem _ hmem)⟩
    obtain ⟨hanswer, hnext⟩ := h.perform hcall
    have hsighting : sighting (s.perform Searcher.search call) = sighting (t.perform Searcher.search call) := by
      simp only [sighting, hanswer, hnext.matched, funext hnext.span?_eq, funext hnext.boundLabel?_eq]
    simp only [session, List.map_cons, hsighting]
    rw [ih hnext hrest]

end

theorem alike_searcherIn {pattern : Pattern} {range : Span} {view other : View} (htext : view.text = other.text)
    (hinside : ∀ kind ∈ pattern.kinds, (view.freeze kind).1.SameInside range (other.freeze kind).1)
    (hproper : ∀ kind ∈ pattern.kinds, ∀ label ∈ (view.freeze kind).1.ascending,
      range.contains label.span = true → label.Proper) (repetitions : Nat) :
    ((view.searcherIn pattern range).1.withLimit repetitions).matcher.Alike range
      ((other.searcherIn pattern range).1.withLimit repetitions).matcher where
  text := by
    simp only [matcher, withLimit, View.searcherIn, start, View.text_freezeAll, htext]
  repetitionLimit := rfl
  indices slot := by
    simp only [matcher, withLimit, ← Array.getElem?_toList, indices_searcherIn, List.getElem?_map]
    cases hkind : pattern.kinds[slot]? with
    | none => exact .none
    | some kind =>
      have hmem := List.mem_of_getElem? hkind
      exact .some ⟨rfl, hinside kind hmem, hproper kind hmem⟩

/-- A search of a range sees no label outside of it, and none across its borders: two views of one text with
the same labels inside the range are searched alike, call by call. The labels inside the range are proper, as all
are whose spans come from `Span.between`; of those outside of it not even that is asked. -/
theorem sightings_eq_of_sameInside {table : AliasTable} {source : String} {pattern : Pattern}
    (hparse : parse table source = .ok pattern) {range : Span} {view other : View}
    (htext : view.text = other.text)
    (hinside : ∀ kind ∈ pattern.kinds, (view.freeze kind).1.SameInside range (other.freeze kind).1)
    (hproper : ∀ kind ∈ pattern.kinds, ∀ label ∈ (view.freeze kind).1.ascending,
      range.contains label.span = true → label.Proper)
    (hstops : ∀ words, pattern.root.Part (.literal words) → (view.freeze words.read.kind).1.StopsAscend)
    (hstops' : ∀ words, pattern.root.Part (.literal words) → (other.freeze words.read.kind).1.StopsAscend)
    (repetitions : Nat) {calls : List Call}
    (hcalls : ∀ part, .reset part ∈ calls → range.contains part = true) :
    (session search calls ((view.searcherIn pattern range).1.withLimit repetitions)).map sighting =
      (session search calls ((other.searcherIn pattern range).1.withLimit repetitions)).map sighting := by
  obtain ⟨scope, _, hkinds, _, hroot⟩ := resolved_of_parse hparse
  have hm := alike_searcherIn htext hinside hproper repetitions
  have hrange : range.contains range = true := by simp [Span.contains]
  let s := (view.searcherIn pattern range).1.withLimit repetitions
  let t := (other.searcherIn pattern range).1.withLimit repetitions
  have hroots : pattern.root.All (Node.LiteralAscends s.matcher) :=
    literalAscends_of_view hkinds hroot (indices_searcherIn view pattern range) hstops
  have hroots' : pattern.root.All (Node.LiteralAscends t.matcher) :=
    literalAscends_of_view hkinds hroot (indices_searcherIn other pattern range) hstops'
  have halike : (s.reset range).Alike range (t.reset range) :=
    alike_reset (s := s) (t := t) rfl hm hroots hroots' hrange
  exact halike.sightings_eq hcalls

/-- Four words, of which the first and the last are labelled in a way of their own. -/
def chantView (first last : Span) : View where
  name := "chant"
  text := "go go go go"
  labelers := [(echoKind, .collecting (#[first, ⟨3, 5⟩, ⟨6, 8⟩, last].map fun span =>
    ⟨span, .ofList [("text", .text "go")]⟩))]

def chantSearcher (first last : Span) : Searcher :=
  ((chantView first last).searcherIn cheerPattern ⟨3, 8⟩).1.withLimit maxRepetitions

/-- Of the labels that are not of the two words in the middle, those of one view lie apart from these, and
those of the other reach into them. -/
theorem sightings_eq_of_sameInside_chants :
    (chantSearcher ⟨0, 2⟩ ⟨9, 11⟩).search.2.matched? = some ⟨3, 8⟩ ∧
      (session search [.search, .search, .reset ⟨3, 5⟩, .search] (chantSearcher ⟨0, 2⟩ ⟨9, 11⟩)).map sighting =
        (session search [.search, .search, .reset ⟨3, 5⟩, .search] (chantSearcher ⟨1, 4⟩ ⟨7, 9⟩)).map
          sighting := by
  have hinside : ((chantView ⟨0, 2⟩ ⟨9, 11⟩).freeze echoKind).1.SameInside ⟨3, 8⟩
      ((chantView ⟨1, 4⟩ ⟨7, 9⟩).freeze echoKind).1 := by
    unfold LabelIndex.SameInside
    rw [View.freeze_eq_indexByInsertion, View.freeze_eq_indexByInsertion]
    decide +kernel
  have hview : (chantView ⟨0, 2⟩ ⟨9, 11⟩).Proper := by
    simp [View.Proper, View.All, chantView, Labeler.All, Label.Proper]
  have hstops : ((chantView ⟨0, 2⟩ ⟨9, 11⟩).freeze echoKind).1.StopsAscend := by
    have heq : ((chantView ⟨0, 2⟩ ⟨9, 11⟩).freeze echoKind).1.ascending.map (·.span.stop) = [2, 5, 8, 11] := by
      rw [View.freeze_eq_indexByInsertion]
      decide +kernel
    rw [LabelIndex.stopsAscend_iff, heq]
    decide
  have hstops' : ((chantView ⟨1, 4⟩ ⟨7, 9⟩).freeze echoKind).1.StopsAscend := by
    have heq : ((chantView ⟨1, 4⟩ ⟨7, 9⟩).freeze echoKind).1.ascending.map (·.span.stop) = [4, 5, 8, 9] := by
      rw [View.freeze_eq_indexByInsertion]
      decide +kernel
    rw [LabelIndex.stopsAscend_iff, heq]
    decide
  have htext : (chantView ⟨0, 2⟩ ⟨9, 11⟩).text = (chantView ⟨1, 4⟩ ⟨7, 9⟩).text := rfl
  have hmatched : (chantSearcher ⟨0, 2⟩ ⟨9, 11⟩).search.2.matched? = some ⟨3, 8⟩ := by
    rw [chantSearcher, searcherIn_eq_byInsertion]
    decide +kernel
  refine ⟨hmatched, ?_⟩
  apply sightings_eq_of_sameInside parse_cheers htext
  · exact List.forall_mem_singleton.2 hinside
  · exact fun kind _ label hmem _ => (hview.freeze kind).1 label hmem
  · exact fun words hpart => (kind_of_part_cheers hpart).symm ▸ hstops
  · exact fun words hpart => (kind_of_part_cheers hpart).symm ▸ hstops'
  · intro part hmem
    simp only [List.mem_cons, Call.reset.injEq, reduceCtorEq, List.not_mem_nil, false_or, or_false] at hmem
    subst hmem
    decide

end Searcher

end Pattern

end TextAnnotation
