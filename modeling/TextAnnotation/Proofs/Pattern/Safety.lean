import TextAnnotation.Proofs.Pattern.Parsing
import TextAnnotation.Proofs.Pattern.Soundness
import TextAnnotation.Proofs.Pattern.Termination

/-!
A search of a parsed pattern does not fail, whatever range it is asked for. It may go on without end, and it
may come to a candidate that is so large that the cursor cannot move past it.
-/

namespace TextAnnotation

namespace Pattern

open Attempt

namespace Searcher

theorem indexes_searcherIn (view : View) (pattern : Pattern) (range : Span) :
    (view.searcherIn pattern range).1.matcher.Indexes pattern.kinds := by
  simp only [Matcher.Indexes, matcher, indices_searcherIn, List.map_map]
  exact List.map_id _

/-- A searcher with an index for every kind of its resolved pattern, and with captures that hold labels of
the kinds known for them. -/
structure Sound (table : AliasTable) (scope : Scope) (s : Searcher) : Prop where
  indexes : s.matcher.Indexes scope.kinds
  names : scope.captures.map (·.name) = s.pattern.captureNames
  root : s.pattern.root.All (Node.Resolved table scope)
  captures : CapturesSound table s.matcher scope.captures s.captures

section
variable {table : AliasTable} {scope : Scope} {s : Searcher}

theorem sound_noCaptures {pattern : Pattern} (hnames : scope.captures.map (·.name) = pattern.captureNames)
    (m : Matcher) : CapturesSound table m scope.captures (noCaptures pattern) := by
  rw [noCaptures, ← hnames, List.length_map]
  exact .none table m scope.captures

theorem sound_searcherIn {pattern : Pattern} (hkinds : scope.kinds = pattern.kinds)
    (hnames : scope.captures.map (·.name) = pattern.captureNames)
    (hroot : pattern.root.All (Node.Resolved table scope)) (view : View) (range : Span) :
    (view.searcherIn pattern range).1.Sound table scope where
  indexes := hkinds ▸ indexes_searcherIn view pattern range
  names := hnames
  root := hroot
  captures := sound_noCaptures hnames _

theorem Sound.withLimit (h : s.Sound table scope) (repetitions : Nat) :
    (s.withLimit repetitions).Sound table scope :=
  ⟨h.indexes, h.names, h.root, h.captures.size, h.captures.held⟩

theorem Sound.reset (h : s.Sound table scope) (range : Span) : (s.reset range).Sound table scope :=
  ⟨h.indexes, h.names, h.root, sound_noCaptures h.names _⟩

/-- What is known of every hit. -/
structure SoundHit (table : AliasTable) (scope : Scope) (s : Searcher) (hit : Hit) : Prop where
  captures : CapturesSound table s.matcher scope.captures hit.found.captures
  ordered : s.matcher.Proper → hit.start ≤ hit.found.state.position

theorem Sound.attempt (h : s.Sound table scope) (candidate : Nat) :
    (s.attempt candidate).Ends s.matcher (s.SoundHit table scope) := by
  have hends := Matcher.ends_evaluate h.indexes h.root s.range.stop { position := candidate, anchor := .start }
    (sound_noCaptures h.names s.matcher)
  apply hends.andThen
  intro found hfound hcaptures
  cases hbegin : found.state.begin? with
  | none => trivial
  | some start =>
    refine ⟨hcaptures, fun hproper => ?_⟩
    exact (Matcher.path_of_evaluate hfound).begin_le_position hproper rfl hbegin

theorem Sound.firstHit (h : s.Sound table scope) (candidates : List Nat) :
    (s.firstHit candidates).Ends s.matcher (s.SoundHit table scope) := by
  induction candidates with
  | nil => trivial
  | cons candidate rest ih => exact (h.attempt candidate).orElse ih

theorem Sound.report (h : s.Sound table scope) {hit? : Attempt Hit}
    (hhit : hit?.Ends s.matcher (s.SoundHit table scope)) : (s.report hit?).2.Sound table scope := by
  rcases hit? with fault | _ | hit
  · exact h
  · exact ⟨h.indexes, h.names, h.root, sound_noCaptures h.names _⟩
  simp only [Searcher.report]
  split
  · exact h
  split
  · exact ⟨h.indexes, h.names, h.root, hhit.captures⟩
  · exact ⟨h.indexes, h.names, h.root, hhit.captures⟩

theorem Sound.after (h : s.Sound table scope) (calls : List Call) : (s.after calls).Sound table scope := by
  induction calls generalizing s with
  | nil => exact h
  | cons call calls ih =>
    cases call with
    | search =>
      apply ih
      change s.search.2.Sound table scope
      rw [search_eq, searchByAttempts]
      split
      · exact h
      · exact h.report (h.firstHit s.remaining)
    | reset range => exact ih (h.reset range)

/-- An offset beyond the largest one comes from a candidate that large, and nothing else fails at last. -/
theorem Sound.fault (h : s.Sound table scope) (hproper : s.matcher.Proper) {fault : MatchFault}
    (hfault : s.search.1 = .error fault) :
    fault = .endless ∨ fault = .offsetOverflow ∧ ∃ candidate ∈ s.candidates, maxOffset ≤ candidate := by
  rw [search_eq, searchByAttempts] at hfault
  split at hfault
  · cases hfault
  have hends := h.firstHit s.remaining
  rcases hhit : s.firstHit s.remaining with found | _ | hit
  · rw [hhit] at hfault
    cases hfault
    exact .inl (hends.eq_endless hproper hhit)
  · rw [hhit] at hfault
    cases hfault
  rw [hhit] at hends hfault
  rw [Searcher.report, Span.between_eq_ok_iff.2 ⟨hends.ordered hproper, rfl⟩] at hfault
  dsimp only at hfault
  split at hfault
  · cases hfault
  · rename_i hlarge
    cases hfault
    have hmem := List.mem_of_mem_drop (of_firstHit_eq_some hhit).1
    exact .inr ⟨rfl, hit.candidate, Array.mem_toList_iff.1 hmem, Nat.le_of_not_lt hlarge⟩

/-- Whatever the last match left in a capture is there to be asked for. -/
theorem Sound.captured? (h : s.Sound table scope) {name : String} {slot : Nat}
    (hslot : s.pattern.captureSlot? name = some slot) :
    ∃ held?, Matcher.captured? s.captures slot = .ok held? ∧
      ∀ captured, held? = some captured → ∃ ref kind label, captured.label? = some ref ∧
        s.matcher.label ref = .ok (kind, label) := by
  obtain ⟨hlt, _⟩ := List.findIdx?_eq_some_iff_getElem.1 hslot
  rw [← h.names, List.length_map] at hlt
  obtain ⟨held?, hheld, hsound⟩ := h.captures.captured? (List.getElem?_eq_getElem hlt)
  refine ⟨held?, hheld, fun captured heq => ?_⟩
  obtain ⟨ref, kind, href, ⟨label, hlabel⟩, _⟩ := hsound captured heq
  exact ⟨ref, kind, label, href, hlabel⟩

end

theorem Regular.withLimit {s : Searcher} (h : s.Regular) (repetitions : Nat) :
    (s.withLimit repetitions).Regular := ⟨h.proper, h.candidates⟩

/-- A call of the search goes on without end, answers, or is stopped by an offset beyond the largest one; as
far as it goes, it fails in no other way. Whatever a capture holds after it is there. -/
theorem search_fails_only_at_limits {table : AliasTable} {source : String} {pattern : Pattern}
    (hparse : parse table source = .ok pattern) {view : View} (hview : view.Proper) (range : Span)
    (repetitions : Nat) (calls : List Call) {s : Searcher}
    (hs : s = ((view.searcherIn pattern range).1.withLimit repetitions).after calls) :
    (∀ n fault, (s.withLimit n).search.1 = .error fault →
      fault = .endless ∨ fault = .offsetOverflow ∧ ∃ candidate ∈ s.candidates, maxOffset ≤ candidate) ∧
    (¬ s.Hangs → ∃ n, ∀ k, n ≤ k → (s.withLimit k).search.1 ≠ .error .endless) ∧
    ∀ name slot, s.pattern.captureSlot? name = some slot →
      ∃ held?, Matcher.captured? s.captures slot = .ok held? ∧
        ∀ captured, held? = some captured → ∃ ref kind label, captured.label? = some ref ∧
          s.matcher.label ref = .ok (kind, label) := by
  obtain ⟨scope, _, hkinds, hnames, hroot⟩ := resolved_of_parse hparse
  have hsound : s.Sound table scope :=
    hs ▸ ((sound_searcherIn hkinds hnames hroot view range).withLimit repetitions).after calls
  have hregular : s.Regular :=
    hs ▸ ((regular_searcherIn hview pattern range).withLimit repetitions).after calls
  refine ⟨fun n fault hfault => ?_, fun hhangs => ?_, fun name slot hslot => hsound.captured? hslot⟩
  · exact (hsound.withLimit n).fault (hregular.withLimit n).matcher hfault
  · obtain ⟨answer, next, n, hanswer, hn⟩ := (returns_iff hregular).2 hhangs
    refine ⟨n, fun k hle => ?_⟩
    rw [hn k hle]
    exact hanswer

def echoView : View where
  name := "echoes"
  text := "go go"
  labelers := [(echoKind, .collecting #[
    ⟨⟨0, 2⟩, .ofList [("text", .text "go")]⟩, ⟨⟨3, 5⟩, .ofList [("text", .text "go")]⟩])]

/-- A search of an inverted range, after which the whole text was searched. -/
def echoSearcher : Searcher :=
  ((echoView.searcherIn echoPattern ⟨5, 0⟩).1.withLimit maxRepetitions).after [
    .search, .reset ⟨0, 5⟩, .search]

theorem echoView_proper : echoView.Proper := by
  simp [View.Proper, View.All, echoView, Labeler.All, Label.Proper]

theorem search_fails_only_at_limits_echoes :
    echoView.Proper ∧ echoPattern.captureSlot? "a" = some 0 ∧
      (∀ n fault, (echoSearcher.withLimit n).search.1 = .error fault →
        fault = .endless ∨
          fault = .offsetOverflow ∧ ∃ candidate ∈ echoSearcher.candidates, maxOffset ≤ candidate) ∧
      ∃ held?, Matcher.captured? echoSearcher.captures 0 = .ok held? := by
  obtain ⟨hfaults, _, hcaptures⟩ := search_fails_only_at_limits parse_echoes echoView_proper ⟨5, 0⟩ maxRepetitions
    [.search, .reset ⟨0, 5⟩, .search] (s := echoSearcher) rfl
  have hslot : echoSearcher.pattern.captureSlot? "a" = some 0 := by
    rw [echoSearcher, pattern_after]
    rfl
  obtain ⟨held?, hheld, _⟩ := hcaptures "a" 0 hslot
  exact ⟨echoView_proper, rfl, hfaults, held?, hheld⟩

/-- A repetition that never ends is stopped in the end, when it has counted as far as it can. -/
theorem not_only_offsetOverflow :
    ¬ ∀ (table : AliasTable) (source : String) (pattern : Pattern) (view : View) (range : Span)
        (calls : List Call) (fault : MatchFault),
      parse table source = .ok pattern → view.Proper →
        ((view.searcherIn pattern range).1.after calls).search.1 = .error fault → fault = .offsetOverflow := by
  intro h
  have hregular := regular_searcherIn cueView_proper cuePattern ⟨0, 2⟩
  have hlimit : cueSearcher = cueSearcher.withLimit maxRepetitions := rfl
  have hsearch : cueSearcher.search.1 = .error .endless := by
    rw [hlimit]
    exact cueSearcher_hangs.search hregular maxRepetitions
  cases h _ _ _ _ ⟨0, 2⟩ [] .endless parse_cues cueView_proper hsearch

end Searcher

end Pattern

end TextAnnotation
