import Mathlib.Data.Finset.Card
import TextAnnotation.Proofs.Pattern.Exhaustive

/-!
How a searcher is drained. Every match uses up a candidate, so there are no more matches than starts of labels;
after the last one nothing is held, and nothing is found until a reset. A reset forgets all that has happened.
-/

namespace TextAnnotation

namespace View

/-- The starts of the labels of some kinds that lie inside a range. -/
def startsWithin (view : View) (kinds : List LabelKind) (range : Span) : Finset Nat :=
  (kinds.flatMap fun kind =>
    ((view.freeze kind).1.ascending.filter fun label => range.contains label.span).map (·.span.start)).toFinset

theorem mem_startsWithin {view : View} {kinds : List LabelKind} {range : Span} {offset : Nat} :
    offset ∈ view.startsWithin kinds range ↔ ∃ kind ∈ kinds, ∃ label ∈ (view.freeze kind).1.ascending,
      range.contains label.span ∧ label.span.start = offset := by
  simp only [startsWithin, List.mem_toFinset, List.mem_flatMap, List.mem_map, List.mem_filter, and_assoc]

theorem freeze_freezeAll (view : View) (kinds : List LabelKind) (kind : LabelKind) :
    ((view.freezeAll kinds).2.freeze kind).1 = (view.freeze kind).1 := by
  induction kinds generalizing view with
  | nil => rfl
  | cons first kinds ih => exact (ih (view.freeze first).2).trans (view.freeze_freeze first kind)

theorem searcherIn_searcherIn (view : View) (pattern : Pattern) (range part : Span) :
    ((view.searcherIn pattern range).2.searcherIn pattern part).1 = (view.searcherIn pattern part).1 := by
  have hindices : ((view.freezeAll pattern.kinds).2.freezeAll pattern.kinds).1 =
      (view.freezeAll pattern.kinds).1 := by
    rw [freezeAll_eq_map, freezeAll_eq_map]
    exact List.map_congr_left fun kind _ => view.freeze_freezeAll pattern.kinds kind
  simp only [searcherIn, hindices, text_freezeAll]

end View

namespace Pattern.Searcher

/-- A call that has found a match. -/
def isMatch : Except MatchFault Bool × Searcher → Bool
  | (.ok found, _) => found
  | (.error _, _) => false

/-- How many of the next `count` calls find a match. -/
def matchCount (count : Nat) (s : Searcher) : Nat :=
  (session search (List.replicate count .search) s).countP isMatch

/-- What a call of the search can do. -/
inductive SearchStep (s : Searcher) : Except MatchFault Bool × Searcher → Prop where
  | exhausted (h : s.exhausted = true) : SearchStep s (.ok false, s)
  | fault (h : s.exhausted = false) (fault : MatchFault) : SearchStep s (.error fault, s)
  | overflow (h : s.exhausted = false) (span : Span) (captures : Captures) :
    SearchStep s (.error .offsetOverflow, { s with matched? := some span, captures })
  | last (h : s.exhausted = false) :
    SearchStep s (.ok false, { s with exhausted := true, matched? := none, captures := noCaptures s.pattern })
  | found (h : s.exhausted = false) {hit : Hit} (hhit : s.firstHit s.remaining = .ok (some hit)) (span : Span) :
    SearchStep s (.ok true,
      { s with
        matched? := some span
        captures := hit.found.captures
        cursor := max hit.found.state.position (hit.candidate + 1) })

/-- Nothing is held once there are no more matches. -/
def Spent (s : Searcher) : Prop :=
  s.exhausted = true → s.matched? = none ∧ s.captures = noCaptures s.pattern

theorem searchStep (s : Searcher) : s.SearchStep s.search := by
  rw [search_eq, searchByAttempts]
  split
  · rename_i h
    exact .exhausted h
  rename_i h
  have h : s.exhausted = false := Bool.eq_false_iff.2 h
  rcases hhit : s.firstHit s.remaining with fault | _ | hit
  · exact .fault h fault
  · exact .last h
  simp only [report]
  split
  · exact .fault h _
  rename_i span _
  split
  · exact .found h hhit span
  · exact .overflow h span _

section
variable {s : Searcher} {result : Except MatchFault Bool × Searcher}

theorem SearchStep.spent (h : s.SearchStep result) (hs : s.Spent) : result.2.Spent := by
  cases h with
  | exhausted => exact hs
  | last => exact fun _ => ⟨rfl, rfl⟩
  | fault h => exact hs
  | overflow h => exact fun hexhausted => absurd hexhausted (Bool.eq_false_iff.1 h)
  | found h => exact fun hexhausted => absurd hexhausted (Bool.eq_false_iff.1 h)

theorem SearchStep.reset_eq (h : s.SearchStep result) (range : Span) : result.2.reset range = s.reset range := by
  cases h <;> rfl

theorem SearchStep.exhausted_of_false (h : s.SearchStep result) (hfalse : result.1 = .ok false) :
    result.2.exhausted = true := by
  cases h with
  | exhausted h => exact h
  | last => rfl
  | fault => cases hfalse
  | overflow => cases hfalse
  | found => cases hfalse

theorem SearchStep.remaining_eq (h : s.SearchStep result) (hnothing : result.1 ≠ .ok true) :
    result.2.remaining = s.remaining := by
  cases h with
  | found => exact absurd rfl hnothing
  | _ => rfl

theorem SearchStep.remaining_ssubset (h : s.SearchStep result) (hs : s.Regular) (hnext : result.2.Regular)
    (hfound : result.1 = .ok true) : result.2.remaining.toFinset ⊂ s.remaining.toFinset := by
  cases h with
  | @found _ hit hhit =>
    have hle : s.cursor ≤ hit.candidate := (hs.bounds hhit).1
    have hlt : hit.candidate < max hit.found.state.position (hit.candidate + 1) :=
      Nat.lt_of_lt_of_le (Nat.lt_succ_self _) (Nat.le_max_right _ _)
    rw [Finset.ssubset_iff_of_subset]
    · refine ⟨hit.candidate, List.mem_toFinset.2 (of_firstHit_eq_some hhit).1, fun hmem => ?_⟩
      have hpassed := (hnext.mem_remaining.1 (List.mem_toFinset.1 hmem)).1
      exact absurd hpassed (Nat.not_le_of_lt hlt)
    · intro offset hmem
      obtain ⟨hcursor, hstart⟩ := hnext.mem_remaining.1 (List.mem_toFinset.1 hmem)
      have hcursor : s.cursor ≤ offset := Nat.le_trans hle (Nat.le_trans (Nat.le_of_lt hlt) hcursor)
      exact List.mem_toFinset.2 (hs.mem_remaining.2 ⟨hcursor, hstart⟩)
  | _ => cases hfound

theorem Spent.after (h : s.Spent) (calls : List Call) : (s.after calls).Spent := by
  induction calls generalizing s with
  | nil => exact h
  | cons call calls ih =>
    cases call with
    | search => exact ih (s.searchStep.spent h)
    | reset range => exact ih nofun

theorem reset_after (s : Searcher) (calls : List Call) (range : Span) :
    (s.after calls).reset range = s.reset range := by
  induction calls generalizing s with
  | nil => rfl
  | cons call calls ih =>
    cases call with
    | search => exact (ih _).trans (s.searchStep.reset_eq range)
    | reset part => exact ih _

theorem session_of_exhausted (h : s.exhausted = true) (count : Nat) :
    session search (List.replicate count .search) s = List.replicate count (.ok false, s) := by
  have hsearch : s.search = (.ok false, s) := by rw [search_eq, searchByAttempts, if_pos h]
  induction count with
  | zero => rfl
  | succ count ih =>
    rw [List.replicate_succ, List.replicate_succ, session]
    simp only [perform, hsearch, ih]

theorem capture?_of_noCaptures (h : s.captures = noCaptures s.pattern) (name : String) :
    s.capture? name = none := by
  rw [capture?, h, Option.bind_eq_none_iff]
  intro slot _
  simp only [noCaptures, Array.getElem?_replicate]
  split <;> rfl

theorem matchCount_succ (s : Searcher) (count : Nat) :
    s.matchCount (count + 1) = s.search.2.matchCount count + if isMatch s.search then 1 else 0 := by
  rw [matchCount, List.replicate_succ, session, List.countP_cons]
  rfl

theorem isMatch_iff : isMatch result = true ↔ result.1 = .ok true := by
  rcases result with ⟨fault | found, next⟩ <;> simp [isMatch]

theorem Regular.matchCount_le (hs : s.Regular) (count : Nat) :
    s.matchCount count ≤ s.remaining.toFinset.card := by
  induction count generalizing s with
  | zero => exact Nat.zero_le _
  | succ count ih =>
    have hlater : s.search.2.matchCount count ≤ s.search.2.remaining.toFinset.card := ih hs.search
    rw [matchCount_succ]
    split
    · rename_i hfound
      have hused := s.searchStep.remaining_ssubset hs hs.search (isMatch_iff.1 hfound)
      exact Nat.lt_of_le_of_lt hlater (Finset.card_lt_card hused)
    · rename_i hnothing
      rw [s.searchStep.remaining_eq fun hfound => hnothing (isMatch_iff.2 hfound)] at hlater
      exact hlater

/-- More calls than there are candidates left add nothing to what is read. -/
theorem Regular.drainUpTo_succ (hs : s.Regular) (read : Searcher → α) {most : Nat}
    (h : s.remaining.toFinset.card < most) : drainUpTo read (most + 1) s = drainUpTo read most s := by
  induction most generalizing s with
  | zero => cases h
  | succ most ih =>
    rw [drainUpTo, drainUpTo]
    have hstep := s.searchStep
    have hnext := hs.search
    rcases hsearch : s.search with ⟨fault | _ | _, next⟩
    · rfl
    · rfl
    rw [hsearch] at hstep hnext
    have hused := Finset.card_lt_card (hstep.remaining_ssubset hs hnext rfl)
    have hlater : drainUpTo read (most + 1) next = drainUpTo read most next :=
      ih hnext (Nat.lt_of_lt_of_le hused (Nat.le_of_lt_succ h))
    simp only [hlater]

theorem Regular.drainUpTo_eq_drain (hs : s.Regular) (read : Searcher → α) {most : Nat}
    (h : s.candidates.size < most) : drainUpTo read most s = s.drain read := by
  have hcard : s.remaining.toFinset.card ≤ s.candidates.size := by
    apply Nat.le_trans (List.toFinset_card_le _)
    rw [remaining, List.length_drop]
    exact Nat.sub_le _ _
  induction most, h using Nat.le_induction with
  | base => rfl
  | succ most hle ih => rw [hs.drainUpTo_succ read (Nat.lt_of_le_of_lt hcard hle), ih]

/-- Calls that return find matches until there are none. -/
theorem Regular.drains {table : AliasTable} {scope : Scope} (hs : s.Regular) (hsound : s.Sound table scope)
    (hoffsets : ∀ frozen ∈ s.indices, frozen.index.All fun label => label.span.start < maxOffset)
    (hreturns : ∀ count, (s.after (List.replicate count .search)).search.1 ≠ .error .endless) :
    ∃ count ≤ s.remaining.toFinset.card,
      (∀ earlier < count, (s.after (List.replicate earlier .search)).search.1 = .ok true) ∧
      (s.after (List.replicate count .search)).search.1 = .ok false := by
  induction hcard : s.remaining.toFinset.card using Nat.strong_induction_on generalizing s with
  | h card ih =>
    rcases hanswer : s.search.1 with fault | _ | _
    · rcases hsound.fault hs.matcher hanswer with rfl | ⟨_, candidate, hmem, hle⟩
      · exact absurd hanswer (hreturns 0)
      · rw [← Array.mem_toList_iff, hs.candidates] at hmem
        obtain ⟨frozen, hfrozen, label, hlabel, _, rfl⟩ := mem_candidateStarts.1 hmem
        exact absurd (hoffsets frozen hfrozen label hlabel) (Nat.not_lt_of_le hle)
    · exact ⟨0, Nat.zero_le _, nofun, hanswer⟩
    · have hused := Finset.card_lt_card (s.searchStep.remaining_ssubset hs hs.search hanswer)
      rw [hcard] at hused
      obtain ⟨count, hle, hfound, hlast⟩ := ih _ hused hs.search (hsound.after [.search])
        (s.indices_search ▸ hoffsets) (fun count => hreturns (count + 1)) rfl
      refine ⟨count + 1, Nat.lt_of_le_of_lt hle hused, fun earlier hlt => ?_, hlast⟩
      cases earlier with
      | zero => exact hanswer
      | succ earlier => exact hfound earlier (Nat.lt_of_succ_lt_succ hlt)

end

theorem remaining_subset_startsWithin {view : View} (hview : view.Proper) (pattern : Pattern) (range : Span)
    (repetitions : Nat) (calls : List Call) {s : Searcher}
    (hs : s = ((view.searcherIn pattern range).1.withLimit repetitions).after calls) :
    s.remaining.toFinset ⊆ view.startsWithin pattern.kinds s.range := by
  have hregular : s.Regular :=
    hs ▸ ((regular_searcherIn hview pattern range).withLimit repetitions).after calls
  have hindices : s.indices.toList = pattern.kinds.map fun kind => ⟨kind, (view.freeze kind).1⟩ := by
    rw [hs, indices_after]
    exact indices_searcherIn view pattern range
  intro offset hmem
  have hstart := (hregular.mem_remaining.1 (List.mem_toFinset.1 hmem)).2
  obtain ⟨frozen, hfrozen, label, hlabel, hinside, hoffset⟩ := mem_candidateStarts.1 hstart
  rw [← Array.mem_toList_iff, hindices] at hfrozen
  obtain ⟨kind, hkind, rfl⟩ := List.mem_map.1 hfrozen
  refine View.mem_startsWithin.2 ⟨kind, hkind, label, hlabel, Span.contains_iff.2 ?_, hoffset⟩
  simp only [LabelIndex.inside, Bool.and_eq_true, decide_eq_true_eq] at hinside
  exact ⟨hinside.1.1, hinside.2⟩

/-- A searcher in any state finds at most as many matches up to the next reset as there are starts of labels of
the pattern in its range. If its calls return and no label is out of reach, it comes to an end; from then on it
holds nothing and finds nothing. What follows a reset is what a new searcher would do, in the view as it was and
in the frozen one. The labels are proper, which is an invariant of the spans that `Span.between` builds. -/
theorem drains_and_forgets {table : AliasTable} {source : String} {pattern : Pattern}
    (hparse : parse table source = .ok pattern) {view : View} (hview : view.Proper) (range : Span)
    (repetitions : Nat) (calls : List Call) {s : Searcher}
    (hs : s = ((view.searcherIn pattern range).1.withLimit repetitions).after calls) :
    (∀ count, s.matchCount count ≤ (view.startsWithin pattern.kinds s.range).card) ∧
    ((view.All fun label => label.span.start < maxOffset) →
      (∀ count, (s.after (List.replicate count .search)).search.1 ≠ .error .endless) →
      ∃ count ≤ (view.startsWithin pattern.kinds s.range).card,
        (∀ earlier < count, (s.after (List.replicate earlier .search)).search.1 = .ok true) ∧
        (s.after (List.replicate count .search)).search.1 = .ok false) ∧
    (∀ next, s.search = (.ok false, next) → next.matched? = none ∧ (∀ name, next.capture? name = none) ∧
      ∀ count, session search (List.replicate count .search) next = List.replicate count (.ok false, next)) ∧
    ∀ part later, (s.reset part).range = part ∧
      session search later (s.reset part) =
        session search later ((view.searcherIn pattern part).1.withLimit repetitions) ∧
      session search later (s.reset part) =
        session search later
          (((view.searcherIn pattern range).2.searcherIn pattern part).1.withLimit repetitions) := by
  obtain ⟨scope, _, hkinds, hnames, hroot⟩ := resolved_of_parse hparse
  have hsound : s.Sound table scope :=
    hs ▸ ((sound_searcherIn hkinds hnames hroot view range).withLimit repetitions).after calls
  have hregular : s.Regular :=
    hs ▸ ((regular_searcherIn hview pattern range).withLimit repetitions).after calls
  have hspent : s.Spent := by
    rw [hs]
    apply Spent.after
    intro hexhausted
    cases hexhausted
  have hcard := Finset.card_le_card (remaining_subset_startsWithin hview pattern range repetitions calls hs)
  refine ⟨fun count => ?_, fun hoffsets hreturns => ?_, fun next hnext => ?_, fun part later => ?_⟩
  · exact Nat.le_trans (hregular.matchCount_le count) hcard
  · have hindices : ∀ frozen ∈ s.indices, frozen.index.All fun label => label.span.start < maxOffset := by
      rw [hs, indices_after]
      exact all_searcherIn hoffsets pattern range
    obtain ⟨count, hle, hdrains⟩ := hregular.drains hsound hindices hreturns
    exact ⟨count, Nat.le_trans hle hcard, hdrains⟩
  · have hstep := s.searchStep
    rw [hnext] at hstep
    have hexhausted := hstep.exhausted_of_false rfl
    obtain ⟨hmatched, hcaptures⟩ := hstep.spent hspent hexhausted
    exact ⟨hmatched, fun name => capture?_of_noCaptures hcaptures name, session_of_exhausted hexhausted⟩
  · have hreset : s.reset part = (view.searcherIn pattern part).1.withLimit repetitions := by
      rw [hs, reset_after]
      rfl
    rw [hreset, View.searcherIn_searcherIn]
    exact ⟨rfl, rfl, rfl⟩

/-- The match found after the reset is the only one, and a new searcher would find it too. -/
theorem drains_and_forgets_echoes :
    parse echoAliases "a:Word -> Word<text=$a.text>" = .ok echoPattern ∧ echoView.Proper ∧
      echoSearcher.matchCount 3 ≤ (echoView.startsWithin echoPattern.kinds ⟨0, 5⟩).card ∧
      echoSearcher.search.1 = .ok false ∧ echoSearcher.search.2.matched? = none ∧
      session search [.search, .search] (echoSearcher.reset ⟨0, 5⟩) =
        session search [.search, .search] ((echoView.searcherIn echoPattern ⟨0, 5⟩).1.withLimit maxRepetitions) ∧
      (echoSearcher.reset ⟨0, 5⟩).matchCount 3 = 1 := by
  obtain ⟨hcount, _, hlast, hreset⟩ := drains_and_forgets parse_echoes echoView_proper ⟨5, 0⟩ maxRepetitions
    [.search, .reset ⟨0, 5⟩, .search] (s := echoSearcher) rfl
  obtain ⟨hrange, hanswer⟩ : echoSearcher.range = ⟨0, 5⟩ ∧ echoSearcher.search.1 = .ok false := by
    simp only [echoSearcher, searcherIn_eq_byInsertion, after, List.foldl, perform, reset, start_eq_startByInsertion]
    decide +kernel
  have hfound : (echoSearcher.reset ⟨0, 5⟩).matchCount 3 = 1 := by
    rw [echoSearcher, reset_after, reset, start_eq_startByInsertion, searcherIn_eq_byInsertion]
    decide +kernel
  obtain ⟨hmatched, _⟩ := hlast echoSearcher.search.2 (Prod.ext hanswer rfl)
  obtain ⟨_, hagain, _⟩ := hreset ⟨0, 5⟩ [.search, .search]
  exact ⟨parse_echoes, echoView_proper, hrange ▸ hcount 3, hanswer, hmatched, hagain, hfound⟩

end Pattern.Searcher

end TextAnnotation
