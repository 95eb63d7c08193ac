import Mathlib.Data.List.Sort
import TextAnnotation.Proofs.Pattern.Opening
import TextAnnotation.Proofs.Pattern.Safety

/-!
Only the starts of labels are tried, and nothing is lost by that: where no label is made adjacent before the
first one, a search finds what it would find if it tried every offset.
-/

namespace TextAnnotation.Pattern

namespace Searcher

open Attempt

/-- The offsets from the cursor to the end of the range. -/
def offsets (s : Searcher) : List Nat := List.range' s.cursor (s.range.stop + 1 - s.cursor)

theorem mem_offsets {s : Searcher} {offset : Nat} :
    offset ∈ s.offsets ↔ s.cursor ≤ offset ∧ offset ≤ s.range.stop := by
  rw [offsets, List.mem_range'_1]
  omega

theorem Regular.mem_remaining {s : Searcher} (h : s.Regular) {offset : Nat} :
    offset ∈ s.remaining ↔ s.cursor ≤ offset ∧ offset ∈ candidateStarts s.indices s.range := by
  constructor
  · intro hmem
    refine ⟨(h.of_mem_remaining hmem).1, ?_⟩
    rw [← h.candidates]
    exact List.mem_of_mem_drop hmem
  · rintro ⟨hcursor, hmem⟩
    rw [← h.candidates, ← List.take_append_drop
      (partitionPoint (fun start => decide (start < s.cursor)) s.candidates) s.candidates.toList] at hmem
    rcases List.mem_append.1 hmem with hbefore | hafter
    · have := h.remaining_spec.1 offset hbefore
      omega
    · exact hafter

/-- The candidates that are tried are those offsets at which a label starts. -/
theorem Regular.remaining_eq_filter {s : Searcher} (h : s.Regular) :
    s.remaining = s.offsets.filter (· ∈ candidateStarts s.indices s.range) := by
  apply List.Pairwise.eq_of_mem_iff (r := (· < ·))
  · rw [remaining, h.candidates]
    exact (pairwise_lt_candidateStarts _ _).drop
  · apply List.Pairwise.filter
    exact List.pairwise_lt_range'
  · intro offset
    rw [h.mem_remaining, List.mem_filter, decide_eq_true_eq, mem_offsets]
    constructor
    · rintro ⟨hcursor, hmem⟩
      obtain ⟨frozen, _, label, _, hinside, rfl⟩ := mem_candidateStarts.1 hmem
      simp only [LabelIndex.inside, Bool.and_eq_true, decide_eq_true_eq] at hinside
      exact ⟨⟨hcursor, hinside.1.2⟩, hmem⟩
    · rintro ⟨⟨hcursor, _⟩, hmem⟩
      exact ⟨hcursor, hmem⟩

/-- A match that consumes a label begins at a candidate. -/
theorem Regular.mem_candidateStarts_of_attempt {s : Searcher} (h : s.Regular)
    (hroot : s.pattern.root.All (Node.LiteralAscends s.matcher)) {offset : Nat}
    (hstart : s.range.start ≤ offset) (hstop : offset ≤ s.range.stop)
    (hanchored : s.matcher.Anchored (s.task offset)) {hit : Hit}
    (hattempt : s.attempt offset = .ok (some hit)) : offset ∈ candidateStarts s.indices s.range := by
  obtain ⟨first, rest, hspans, _, _⟩ := h.hit_advance hattempt
  obtain ⟨found, hfound, heq⟩ := andThen_eq_some_iff.1 hattempt
  simp only [Except.ok.injEq, Option.map_eq_some_iff] at heq
  obtain ⟨start, _, rfl⟩ := heq
  have hopens := Matcher.opens_evaluate hroot hanchored rfl hfound
  cases hopens with
  | nothing hconsumed =>
    rw [hconsumed] at hspans
    cases hspans
  | @label piece frozen label _ hfrozen hlabel hlabelStart hlabelStop =>
    rw [LabelIndex.get?_eq_ascending] at hlabel
    have hinside : LabelIndex.inside s.range label = true := by
      have heq : label.span.start = offset := hlabelStart
      simp only [LabelIndex.inside, Bool.and_eq_true, decide_eq_true_eq]
      exact ⟨⟨heq ▸ hstart, heq ▸ hstop⟩, hlabelStop⟩
    exact mem_candidateStarts.2
      ⟨frozen, Array.mem_of_getElem? hfrozen, label, List.mem_of_getElem? hlabel, hinside, hlabelStart⟩

/-- What a search is to find: the match from the first offset, from the cursor on, from which the pattern
consumes a label. -/
def FindsFirst (s : Searcher) : Option Hit → Prop
  | some hit => s.cursor ≤ hit.candidate ∧ hit.candidate ≤ s.range.stop ∧
    s.attempt hit.candidate = .ok (some hit) ∧
    ∀ offset, s.cursor ≤ offset → offset < hit.candidate → ∀ other, s.attempt offset ≠ .ok (some other)
  | none => ∀ offset, s.cursor ≤ offset → offset ≤ s.range.stop → ∀ other, s.attempt offset ≠ .ok (some other)

section
variable {s : Searcher} {tried : Nat → Bool} {offsets : List Nat}

/-- Offsets from which nothing can be found may be left out, as long as no attempt from them hangs. -/
theorem firstHit_filter
    (hskipped : ∀ offset ∈ offsets, tried offset = false → ∀ hit, s.attempt offset ≠ .ok (some hit))
    (hfaults : ∀ offset fault, s.attempt offset = .error fault → fault = .endless)
    (h : s.firstHit offsets ≠ .error .endless) :
    s.firstHit (offsets.filter tried) = s.firstHit offsets := by
  induction offsets with
  | nil => rfl
  | cons offset rest ih =>
    obtain ⟨hoffset, hrest⟩ := List.forall_mem_cons.1 hskipped
    rw [List.filter_cons]
    rcases hattempt : s.attempt offset with fault | _ | hit
    · rw [firstHit, hattempt, hfaults offset fault hattempt] at h
      exact absurd rfl h
    · have hlater : s.firstHit (offset :: rest) = s.firstHit rest := by rw [firstHit, hattempt, orElse_none]
      rw [hlater] at h ⊢
      split
      · rw [firstHit, hattempt, orElse_none]
        exact ih hrest h
      · exact ih hrest h
    · have htried : tried offset = true := by
        by_contra hnot
        exact hoffset (Bool.eq_false_iff.2 hnot) hit hattempt
      rw [if_pos htried, firstHit, firstHit, hattempt]
      rfl

theorem candidate_of_attempt {offset : Nat} {hit : Hit} (h : s.attempt offset = .ok (some hit)) :
    hit.candidate = offset := by
  obtain ⟨found, _, heq⟩ := andThen_eq_some_iff.1 h
  simp only [Except.ok.injEq, Option.map_eq_some_iff] at heq
  obtain ⟨start, _, rfl⟩ := heq
  rfl

theorem firstHit_eq_none (h : s.firstHit offsets = .ok none) : ∀ offset ∈ offsets, s.attempt offset = .ok none := by
  induction offsets with
  | nil => simp
  | cons offset rest ih =>
    obtain ⟨hoffset, hrest⟩ := orElse_eq_none_iff.1 h
    exact List.forall_mem_cons.2 ⟨hoffset, ih hrest⟩

theorem firstHit_eq_some {hit : Hit} (hsorted : offsets.Pairwise (· < ·))
    (h : s.firstHit offsets = .ok (some hit)) :
    ∀ offset ∈ offsets, offset < hit.candidate → s.attempt offset = .ok none := by
  induction offsets with
  | nil => simp
  | cons first rest ih =>
    obtain ⟨hfirst, hrest⟩ := List.pairwise_cons.1 hsorted
    rcases orElse_eq_some_iff.1 h with hattempt | ⟨hfails, hlater⟩
    · rw [candidate_of_attempt hattempt]
      refine List.forall_mem_cons.2 ⟨fun hlt => absurd hlt (Nat.lt_irrefl _), fun offset hoffset hlt => ?_⟩
      exact absurd hlt (Nat.lt_asymm (hfirst offset hoffset))
    · exact List.forall_mem_cons.2 ⟨fun _ => hfails, ih hrest hlater⟩

/-- Only labels that start at candidates can be the first ones of a match. -/
def Reveals (s : Searcher) : Prop :=
  ∀ offset, s.cursor ≤ offset → offset ≤ s.range.stop → offset ∉ candidateStarts s.indices s.range →
    ∀ hit, s.attempt offset ≠ .ok (some hit)

theorem Regular.findsFirst (h : s.Regular) (hreveals : s.Reveals) {hit? : Option Hit}
    (hfirst : s.firstHit s.remaining = .ok hit?) : s.FindsFirst hit? := by
  rcases hit? with _ | hit
  · intro offset hcursor hstop other hother
    by_cases hmem : offset ∈ candidateStarts s.indices s.range
    · rw [firstHit_eq_none hfirst offset (h.mem_remaining.2 ⟨hcursor, hmem⟩)] at hother
      cases hother
    · exact hreveals offset hcursor hstop hmem other hother
  · obtain ⟨hmem, hattempt⟩ := of_firstHit_eq_some hfirst
    rw [h.remaining_eq_filter, List.mem_filter, mem_offsets] at hmem
    refine ⟨hmem.1.1, hmem.1.2, hattempt, fun offset hcursor hlt other hother => ?_⟩
    have hsorted : s.remaining.Pairwise (· < ·) := by
      rw [remaining, h.candidates]
      exact (pairwise_lt_candidateStarts _ _).drop
    by_cases hoffset : offset ∈ candidateStarts s.indices s.range
    · rw [firstHit_eq_some hsorted hfirst offset (h.mem_remaining.2 ⟨hcursor, hoffset⟩) hlt] at hother
      cases hother
    · exact hreveals offset hcursor (Nat.le_of_lt (Nat.lt_of_lt_of_le hlt hmem.1.2)) hoffset other hother

end

/-- The search from a cursor, whatever has been found before. -/
def resumeAt (s : Searcher) (cursor repetitions : Nat) : Searcher :=
  { s with cursor, exhausted := false, repetitionLimit := repetitions }

theorem Regular.resumeAt {s : Searcher} (h : s.Regular) (cursor repetitions : Nat) :
    (s.resumeAt cursor repetitions).Regular := ⟨h.proper, h.candidates⟩

theorem Sound.resumeAt {table : AliasTable} {scope : Scope} {s : Searcher} (h : s.Sound table scope)
    (cursor repetitions : Nat) : (s.resumeAt cursor repetitions).Sound table scope :=
  ⟨h.indexes, h.names, h.root, h.captures.size, h.captures.held⟩

theorem literalAscends_of_view {table : AliasTable} {scope : Scope} {pattern : Pattern}
    (hkinds : scope.kinds = pattern.kinds) (hroot : pattern.root.All (Node.Resolved table scope))
    {view : View} {m : Matcher}
    (hindices : m.indices.toList = pattern.kinds.map fun kind => ⟨kind, (view.freeze kind).1⟩)
    (hstops : ∀ words, pattern.root.Part (.literal words) → (view.freeze words.read.kind).1.StopsAscend) :
    pattern.root.All (Node.LiteralAscends m) := by
  intro part hpart
  cases part with
  | literal words =>
    intro frozen hfrozen
    have hslot := (hroot _ hpart).slot
    rw [hkinds] at hslot
    rw [Matcher.index_eq_ok_iff, ← Array.getElem?_toList, hindices, List.getElem?_map, hslot] at hfrozen
    cases hfrozen
    exact hstops words hpart
  | _ => trivial

/-- A search from any cursor finds what a search does that tries every offset from there on to the end of the
range, unless that one hangs; in any case it finds the match from the first offset from which there is one. That
the view is proper is an invariant of its labels: `Span.between` builds no span that ends before it starts. -/
theorem search_eq_searchFrom_offsets {table : AliasTable} {source : String} {pattern : Pattern}
    (hparse : parse table source = .ok pattern) {view : View} (hview : view.Proper) (range : Span)
    (calls : List Call) (cursor repetitions : Nat) {s : Searcher}
    (hs : s = ((view.searcherIn pattern range).1.after calls).resumeAt cursor repetitions)
    (hcursor : s.range.start ≤ s.cursor)
    (hstops : ∀ words, pattern.root.Part (.literal words) → (view.freeze words.read.kind).1.StopsAscend)
    (hanchored : ∀ offset, s.cursor ≤ offset → offset ≤ s.range.stop → s.matcher.Anchored (s.task offset)) :
    ((s.searchFrom s.offsets).1 ≠ .error .endless → s.search = s.searchFrom s.offsets) ∧
    (s.search.1 ≠ .error .endless → ∃ hit?, s.FindsFirst hit? ∧ s.search = s.report (.ok hit?)) := by
  obtain ⟨scope, _, hkinds, hnames, hroot⟩ := resolved_of_parse hparse
  have hsound : s.Sound table scope :=
    hs ▸ ((sound_searcherIn hkinds hnames hroot view range).after calls).resumeAt cursor repetitions
  have hregular : s.Regular := hs ▸ ((regular_searcherIn hview pattern range).after calls).resumeAt cursor repetitions
  have hpattern : s.pattern = pattern := hs ▸ pattern_after _ calls
  have hindices : s.matcher.indices.toList = pattern.kinds.map fun kind => ⟨kind, (view.freeze kind).1⟩ := by
    rw [hs]
    change ((view.searcherIn pattern range).1.after calls).indices.toList = _
    rw [indices_after, indices_searcherIn]
  have hascends : s.pattern.root.All (Node.LiteralAscends s.matcher) :=
    hpattern ▸ literalAscends_of_view hkinds hroot hindices hstops
  -- The first label of a match starts at the offset itself, so nothing is found where no label starts.
  have hreveals : s.Reveals := by
    intro offset hle hstop hmem hit hattempt
    have hmem' := hregular.mem_candidateStarts_of_attempt hascends (Nat.le_trans hcursor hle) hstop
      (hanchored offset hle hstop) hattempt
    exact hmem hmem'
  have hsearch : s.search = s.report (s.firstHit s.remaining) := by
    rw [search_eq, searchByAttempts, if_neg]
    rw [hs]
    exact Bool.false_ne_true
  have hfaults : ∀ offset fault, s.attempt offset = .error fault → fault = .endless :=
    fun offset _ => (hsound.attempt offset).eq_endless hregular.matcher
  constructor
  · intro hnaive
    rw [searchFrom_eq] at hnaive
    rw [searchFrom_eq, hsearch, hregular.remaining_eq_filter, firstHit_filter _ hfaults]
    · intro hendless
      rw [hendless] at hnaive
      exact hnaive rfl
    · intro offset hoffset hskipped
      obtain ⟨hle, hstop⟩ := mem_offsets.1 hoffset
      exact hreveals offset hle hstop (of_decide_eq_false hskipped)
  · intro hreturns
    rcases hfirst : s.firstHit s.remaining with fault | hit?
    · rw [hsearch, hfirst, (hsound.firstHit _).eq_endless hregular.matcher hfirst] at hreturns
      exact absurd rfl hreturns
    · exact ⟨hit?, hregular.findsFirst hreveals hfirst, by rw [hsearch, hfirst]⟩

/-- Two words after one another, with a look at the first of them. -/
def cheerPattern : Pattern where
  source := "(?=Word) \"go go\""
  root := .sequence [.lookahead (.label ⟨"Word", 0, []⟩) false, .literal (.ofText "go go" 0 ⟨echoKind, Label.text⟩)]
  kinds := [echoKind]
  captureNames := []

def cheerTree : Grammar.Alternation :=
  .last (.next (.item none (.lookahead false (.last (.last (.ofAlias "Word")))) none)
    (.last (.item none (.literal "go go") none)))

def cheerSearcher : Searcher := ((echoView.searcherIn cheerPattern ⟨0, 5⟩).1.after []).resumeAt 0 maxRepetitions

theorem echoView_stopsAscend : (echoView.freeze echoKind).1.StopsAscend := by
  have heq : (echoView.freeze echoKind).1.ascending.map (·.span.stop) = [2, 5] := by
    rw [View.freeze_eq_indexByInsertion]
    decide +kernel
  rw [LabelIndex.stopsAscend_iff, heq]
  decide

theorem parse_cheers : parse echoAliases "(?=Word) \"go go\"" = .ok cheerPattern :=
  parse_of_meaning cheerTree (by decide +kernel) rfl

theorem kind_of_part_cheers {words : Literal} (h : cheerPattern.root.Part (.literal words)) :
    words.read.kind = echoKind := by
  let reads (part : Node) : Prop := ∀ words, part = .literal words → words.read.kind = echoKind
  have hword : (Node.label ⟨"Word", 0, []⟩).All reads := by
    refine Node.all_iff.2 ⟨?_, by simp [Node.children]⟩
    intro words heq
    cases heq
  have hlook : (Node.lookahead (.label ⟨"Word", 0, []⟩) false).All reads := by
    refine Node.all_iff.2 ⟨?_, List.forall_mem_singleton.2 hword⟩
    intro words heq
    cases heq
  have hwords : (Node.literal (.ofText "go go" 0 ⟨echoKind, Label.text⟩)).All reads := by
    refine Node.all_iff.2 ⟨?_, by simp [Node.children]⟩
    intro words heq
    cases heq
    rfl
  have hroot : cheerPattern.root.All reads := by
    refine Node.all_iff.2 ⟨?_, List.forall_mem_cons.2 ⟨hlook, List.forall_mem_singleton.2 hwords⟩⟩
    intro words heq
    cases heq
  exact hroot _ h words rfl

theorem search_eq_searchFrom_offsets_cheers :
    parse echoAliases "(?=Word) \"go go\"" = .ok cheerPattern ∧
      cheerSearcher.search = cheerSearcher.searchFrom cheerSearcher.offsets := by
  have hstops : ∀ words, cheerPattern.root.Part (.literal words) →
      (echoView.freeze words.read.kind).1.StopsAscend := by
    intro words hpart
    rw [kind_of_part_cheers hpart]
    exact echoView_stopsAscend
  have hanchored (offset : Nat) : cheerSearcher.matcher.Anchored (cheerSearcher.task offset) :=
    Matcher.anchored_of_not_mayAdjoin rfl
  obtain ⟨hnaive, _⟩ := search_eq_searchFrom_offsets parse_cheers echoView_proper ⟨0, 5⟩ [] 0 maxRepetitions
    (s := cheerSearcher) rfl (Nat.le_refl 0) hstops fun offset _ _ => hanchored offset
  refine ⟨parse_cheers, hnaive ?_⟩
  have hfound : (cheerSearcher.searchFrom cheerSearcher.offsets).1 = .ok true := by
    rw [cheerSearcher, searcherIn_eq_byInsertion]
    decide +kernel
  rw [hfound]
  intro heq
  cases heq

end Searcher

end TextAnnotation.Pattern
