import TextAnnotation.Proofs.Pattern.Candidates
import TextAnnotation.Proofs.Pattern.Evaluation
import TextAnnotation.Proofs.Pattern.Recognition

/-!
The order of the matches that successive calls find. A match never begins before the end of an earlier one.
It begins at the very place of the one before it only if that one is empty and began after its candidate, and
this cannot happen twice in a row.
-/

namespace TextAnnotation.Pattern

structure Match where
  candidate : Nat
  span : Span
deriving DecidableEq, Repr

/-- Where the search goes on after a match. -/
def Match.cursor (found : Match) : Nat := max found.span.stop (found.candidate + 1)

/-- A later match that begins after the start of an earlier one, and not before its end. -/
def Match.Precedes (earlier later : Match) : Prop :=
  earlier.span.stop ≤ later.span.start ∧ earlier.span.start < later.span.start

/-- A match at the place of an empty one that began after its candidate. -/
def Match.Repeats (earlier later : Match) : Prop :=
  earlier.candidate < earlier.span.start ∧ earlier.span.start = earlier.span.stop ∧
    later.span.start = earlier.span.start

namespace Searcher

/-- What `count` calls one after the other find, if each of them finds something. -/
def firstMatches : Nat → Searcher → Option (List Match)
  | 0, _ => some []
  | count + 1, s =>
    match s.firstHit s.remaining, s.search with
    | .ok (some hit), (.ok true, next) =>
      next.matched?.bind fun span => (firstMatches count next).map (⟨hit.candidate, span⟩ :: ·)
    | _, _ => none

theorem firstMatches_succ {s : Searcher} {count : Nat} {found : List Match}
    (h : s.firstMatches (count + 1) = some found) :
    ∃ hit next rest, s.firstHit s.remaining = .ok (some hit) ∧ s.search = (.ok true, next) ∧
      next.cursor = max hit.found.state.position (hit.candidate + 1) ∧
      hit.start ≤ hit.found.state.position ∧ next.firstMatches count = some rest ∧
      found = ⟨hit.candidate, ⟨hit.start, hit.found.state.position⟩⟩ :: rest := by
  simp only [firstMatches] at h
  split at h
  · rename_i hit next hhit hsearch
    obtain ⟨hit', _, hhit', hle, hnext⟩ := search_eq_true hsearch
    rw [hhit] at hhit'
    cases hhit'
    rw [hnext] at h
    obtain ⟨rest, hrest, rfl⟩ := Option.map_eq_some_iff.1 h
    exact ⟨hit, next, rest, hhit, hsearch, by rw [hnext], hle, by rw [hnext]; exact hrest, rfl⟩
  · cases h

theorem Regular.firstMatches_bounds {s : Searcher} (hs : s.Regular) {count : Nat} {found : List Match}
    (h : s.firstMatches count = some found) :
    ∀ m ∈ found, s.cursor ≤ m.candidate ∧ m.candidate ≤ m.span.start ∧ m.span.start ≤ m.span.stop := by
  induction count generalizing s found with
  | zero =>
    cases h
    simp
  | succ count ih =>
    obtain ⟨hit, next, rest, hhit, hsearch, hcursor, hle, hrest, rfl⟩ := firstMatches_succ h
    obtain ⟨hfrom, hstart, _⟩ := hs.bounds hhit
    have hnext := hs.next hsearch
    rw [List.forall_mem_cons]
    apply And.intro ⟨hfrom, hstart, hle⟩
    intro m hmem
    obtain ⟨hlater, hm⟩ := ih hnext hrest m hmem
    exact ⟨by omega, hm⟩

theorem Regular.firstMatches_pairwise {s : Searcher} (hs : s.Regular) {count : Nat} {found : List Match}
    (h : s.firstMatches count = some found) :
    found.Pairwise fun m m' => m.cursor ≤ m'.candidate := by
  induction count generalizing s found with
  | zero =>
    cases h
    exact .nil
  | succ count ih =>
    obtain ⟨hit, next, rest, hhit, hsearch, hcursor, hle, hrest, rfl⟩ := firstMatches_succ h
    have hnext := hs.next hsearch
    apply List.Pairwise.cons _ (ih hnext hrest)
    intro m hmem
    have hlater := (hnext.firstMatches_bounds hrest m hmem).1
    rwa [hcursor] at hlater

/-- In a session every match but for a repetition of an empty one comes properly after the one before it,
and two matches that do not follow directly on each other never begin at one place. -/
theorem precedes_iff_not_repeats {view : View} (hview : view.Proper) (pattern : Pattern) (range : Span)
    (calls : List Call) {count : Nat} {found : List Match}
    (h : ((view.searcherIn pattern range).1.after calls).firstMatches count = some found) :
    (found.Pairwise fun m m' => m.span.stop ≤ m'.span.start) ∧
      (found.IsChain fun m m' => m.Precedes m' ↔ ¬ m.Repeats m') ∧
      ∀ i j m m', i + 2 ≤ j → found[i]? = some m → found[j]? = some m' → m.span.start < m'.span.start := by
  have hs := (regular_searcherIn hview pattern range).after calls
  have hbounds := hs.firstMatches_bounds h
  have hpairwise : found.Pairwise fun m m' => m.cursor ≤ m'.candidate ∧
      m.span.start ≤ m.span.stop ∧ m'.candidate ≤ m'.span.start := by
    apply (hs.firstMatches_pairwise h).imp_of_mem
    intro m m' hm hm' hle
    exact ⟨hle, (hbounds _ hm).2.2, (hbounds _ hm').2.1⟩
  have hafter : found.Pairwise fun m m' => m.span.stop ≤ m'.span.start := by
    apply hpairwise.imp
    intro m m' hmm'
    simp only [Match.cursor] at hmm'
    omega
  have hrepeats : found.Pairwise fun m m' => m.Precedes m' ↔ ¬ m.Repeats m' := by
    apply hpairwise.imp
    intro m m' hmm'
    simp only [Match.cursor] at hmm'
    simp only [Match.Precedes, Match.Repeats]
    omega
  refine ⟨hafter, hrepeats.isChain, ?_⟩
  intro i j m m' hij hi hj
  obtain ⟨hilt, rfl⟩ := List.getElem?_eq_some_iff.1 hi
  obtain ⟨hjlt, rfl⟩ := List.getElem?_eq_some_iff.1 hj
  have hfirst := List.pairwise_iff_getElem.1 hpairwise i (i + 1) hilt (by omega) (by omega)
  have hsecond := List.pairwise_iff_getElem.1 hpairwise (i + 1) j (by omega) hjlt (by omega)
  simp only [Match.cursor] at hfirst hsecond
  omega

def markAliases : AliasTable :=
  (AliasTable.register ⟨.empty, none⟩ "Note" { name := "Note" } []).register "Mark" { name := "Mark" } []

/-- Finds the marks that blanks separate from the start of a note or of another mark. -/
def markPattern : Pattern where
  source := "(?=Note | Mark) -> Mark"
  root := .sequence [
    .lookahead (.alternation [.label ⟨"Note", 0, []⟩, .label ⟨"Mark", 1, []⟩]) false,
    .adjacent, .label ⟨"Mark", 1, []⟩]
  kinds := [{ name := "Note" }, { name := "Mark" }]
  captureNames := []

def markTree : Grammar.Alternation :=
  .last (.next
    (.item none (.lookahead false (.next (.last (.ofAlias "Note")) (.last (.last (.ofAlias "Mark"))))) none)
    (.next .arrow (.last (.ofAlias "Mark"))))

def markView : View where
  name := "marks"
  text := "  x y"
  labelers := [
    ({ name := "Note" }, .collecting #[⟨⟨0, 1⟩, .empty⟩]),
    ({ name := "Mark" }, .collecting #[⟨⟨2, 2⟩, .empty⟩, ⟨⟨4, 5⟩, .empty⟩])]

theorem markView_proper : markView.Proper := by
  simp [View.Proper, View.All, markView, Labeler.All, Label.Proper]

theorem firstMatches_marks : (markView.searcherIn markPattern ⟨0, 5⟩).1.firstMatches 3 =
    some [⟨0, ⟨2, 2⟩⟩, ⟨2, ⟨2, 2⟩⟩, ⟨4, ⟨4, 5⟩⟩] := by
  rw [searcherIn_eq_byInsertion]
  decide +kernel

theorem precedes_iff_not_repeats_marks :
    markView.Proper ∧
      ((markView.searcherIn markPattern ⟨0, 5⟩).1.after []).firstMatches 3 =
        some [⟨0, ⟨2, 2⟩⟩, ⟨2, ⟨2, 2⟩⟩, ⟨4, ⟨4, 5⟩⟩] ∧
      [Match.mk 0 ⟨2, 2⟩, ⟨2, ⟨2, 2⟩⟩, ⟨4, ⟨4, 5⟩⟩].IsChain fun m m' => m.Precedes m' ↔ ¬ m.Repeats m' :=
  ⟨markView_proper, firstMatches_marks,
    (precedes_iff_not_repeats markView_proper markPattern ⟨0, 5⟩ [] firstMatches_marks).2.1⟩

/-- An empty match that begins after its candidate is found a second time. -/
theorem not_always_precedes :
    ¬ ∀ (table : AliasTable) (source : String) (pattern : Pattern) (view : View) (range : Span)
      (count : Nat) (found : List Match), parse table source = .ok pattern → view.Proper →
      (view.searcherIn pattern range).1.firstMatches count = some found → found.IsChain Match.Precedes := by
  intro h
  have hparse : parse markAliases "(?=Note | Mark) -> Mark" = .ok markPattern :=
    parse_of_meaning markTree (by decide +kernel) rfl
  have hchain := h _ _ _ _ _ _ _ hparse markView_proper firstMatches_marks
  obtain ⟨hprecedes, _⟩ := List.isChain_cons_cons.1 hchain
  exact absurd hprecedes.2 (Nat.lt_irrefl 2)

end Searcher

end TextAnnotation.Pattern
