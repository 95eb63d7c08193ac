import TextAnnotation.Proofs.Pattern.Candidates
import TextAnnotation.Proofs.Pattern.Evaluation
import TextAnnotation.Proofs.Pattern.Recognition

/-!
What a match spans. It starts where the first of the labels consumed does and stops where the last one does.
Of the labels that a literal takes together, those before the last may stop later than it; only then is the
match less than the hull of its labels.
-/

namespace TextAnnotation.Pattern

/-- The labels consumed, those of a literal all together. -/
def Accepted.labels (found : Accepted) : List LabelRef := found.consumed.flatMap Piece.labels

/-- A span from the least start to a stop of others. -/
structure IsExtent (matched : Span) (spans : List Span) : Prop where
  start_mem : ∃ span ∈ spans, span.start = matched.start
  start_le : ∀ span ∈ spans, matched.start ≤ span.start
  stop_mem : ∃ span ∈ spans, span.stop = matched.stop

/-- A span from the least start to the largest stop of others. -/
structure IsHull (matched : Span) (spans : List Span) : Prop extends IsExtent matched spans where
  le_stop : ∀ span ∈ spans, span.stop ≤ matched.stop

namespace Matcher

def labelSpan? (m : Matcher) (ref : LabelRef) : Option Span := do
  let frozen ← m.indices[ref.slot]?
  let label ← frozen.index.get? ref.position
  return label.span

def consumedSpans (m : Matcher) (found : Accepted) : List Span := found.labels.filterMap m.labelSpan?

theorem labelSpan?_eq_some_iff {m : Matcher} {ref : LabelRef} {span : Span} :
    m.labelSpan? ref = some span ↔ ∃ frozen label, m.indices[ref.slot]? = some frozen ∧
      frozen.index.get? ref.position = some label ∧ label.span = span := by
  simp only [labelSpan?, Option.bind_eq_bind, Option.bind_eq_some_iff, Option.pure_def, Option.some.injEq]
  constructor
  · rintro ⟨frozen, hfrozen, label, hlabel, hspan⟩
    exact ⟨frozen, label, hfrozen, hlabel, hspan⟩
  · rintro ⟨frozen, label, hfrozen, hlabel, hspan⟩
    exact ⟨frozen, hfrozen, label, hlabel, hspan⟩

theorem mem_labels {found : Accepted} {ref : LabelRef} :
    ref ∈ found.labels ↔ ∃ piece ∈ found.consumed, piece.slot = ref.slot ∧ piece.first ≤ ref.position ∧
      ref.position ≤ piece.last := by
  simp only [Accepted.labels, List.mem_flatMap, Piece.labels, List.mem_map, List.mem_range'_1]
  constructor
  · intro h
    obtain ⟨piece, hpiece, position, hposition, rfl⟩ := h
    exact ⟨piece, hpiece, rfl, by simp only; omega⟩
  · intro h
    obtain ⟨piece, hpiece, hslot, hfirst, hlast⟩ := h
    exact ⟨piece, hpiece, ref.position, by omega, by rw [hslot]⟩

theorem mem_consumedSpans {m : Matcher} {found : Accepted} {span : Span} :
    span ∈ m.consumedSpans found ↔ ∃ ref ∈ found.labels, m.labelSpan? ref = some span :=
  List.mem_filterMap

theorem labelSpan?_of_pieceSpan? {m : Matcher} {piece : Piece} {span : Span}
    (h : m.pieceSpan? piece = some span) :
    (∃ first, m.labelSpan? ⟨piece.slot, piece.first⟩ = some first ∧ first.start = span.start) ∧
      ∃ last, m.labelSpan? ⟨piece.slot, piece.last⟩ = some last ∧ last.stop = span.stop := by
  simp only [pieceSpan?, Option.bind_eq_bind, Option.bind_eq_some_iff, Option.pure_def] at h
  obtain ⟨frozen, hfrozen, a, ha, b, hb, hspan⟩ := h
  cases hspan
  exact ⟨⟨a.span, by simp [labelSpan?, hfrozen, ha], rfl⟩, ⟨b.span, by simp [labelSpan?, hfrozen, hb], rfl⟩⟩

theorem labelSpan?_of_mem_piece {m : Matcher} {piece : Piece} {span : Span}
    (h : m.pieceSpan? piece = some span) {position : Nat} (hfirst : piece.first ≤ position)
    (hlast : position ≤ piece.last) :
    ∃ inner, m.labelSpan? ⟨piece.slot, position⟩ = some inner ∧ span.start ≤ inner.start := by
  simp only [pieceSpan?, Option.bind_eq_bind, Option.bind_eq_some_iff, Option.pure_def] at h
  obtain ⟨frozen, hfrozen, a, ha, b, hb, hspan⟩ := h
  cases hspan
  obtain ⟨hsize, _⟩ := Array.getElem?_eq_some_iff.1 hb
  have hposition : position < frozen.index.labels.size := Nat.lt_of_le_of_lt hlast hsize
  have hget : frozen.index.get? position = some frozen.index.labels[position] :=
    Array.getElem?_eq_getElem hposition
  exact ⟨frozen.index.labels[position].span, by simp [labelSpan?, hfrozen, hget],
    LabelIndex.start_le_start ha hget hfirst⟩

/-- The pieces consumed have the given spans. -/
structure Covers (m : Matcher) (found : Accepted) (spans : List Span) : Prop where
  pieces : found.consumed.map m.pieceSpan? = spans.map some
  ordered : ∀ piece ∈ found.consumed, piece.first ≤ piece.last

section
variable {m : Matcher} {found : Accepted} {spans : List Span}

theorem Covers.of_mem_consumed (h : m.Covers found spans) {piece : Piece} (hmem : piece ∈ found.consumed) :
    ∃ span ∈ spans, m.pieceSpan? piece = some span := by
  have hmap : m.pieceSpan? piece ∈ spans.map some := h.pieces ▸ List.mem_map_of_mem hmem
  obtain ⟨span, hspan, heq⟩ := List.mem_map.1 hmap
  exact ⟨span, hspan, heq.symm⟩

theorem Covers.of_mem_spans (h : m.Covers found spans) {span : Span} (hmem : span ∈ spans) :
    ∃ piece ∈ found.consumed, m.pieceSpan? piece = some span := by
  have hmap : some span ∈ found.consumed.map m.pieceSpan? := h.pieces ▸ List.mem_map_of_mem hmem
  exact List.mem_map.1 hmap

theorem Covers.of_mem_labels (h : m.Covers found spans) {ref : LabelRef} (hmem : ref ∈ found.labels) :
    ∃ inner, m.labelSpan? ref = some inner ∧ ∃ span ∈ spans, span.start ≤ inner.start := by
  obtain ⟨piece, hpiece, hslot, hfirst, hlast⟩ := mem_labels.1 hmem
  obtain ⟨span, hspan, heq⟩ := h.of_mem_consumed hpiece
  obtain ⟨inner, hinner, hle⟩ := labelSpan?_of_mem_piece heq hfirst hlast
  rw [hslot] at hinner
  exact ⟨inner, hinner, span, hspan, hle⟩

theorem Covers.start_mem (h : m.Covers found spans) {span : Span} (hmem : span ∈ spans) :
    ∃ label ∈ m.consumedSpans found, label.start = span.start := by
  obtain ⟨piece, hpiece, heq⟩ := h.of_mem_spans hmem
  obtain ⟨⟨label, hlabel, hstart⟩, _⟩ := labelSpan?_of_pieceSpan? heq
  have href : ⟨piece.slot, piece.first⟩ ∈ found.labels :=
    mem_labels.2 ⟨piece, hpiece, rfl, Nat.le_refl _, h.ordered piece hpiece⟩
  exact ⟨label, mem_consumedSpans.2 ⟨_, href, hlabel⟩, hstart⟩

theorem Covers.stop_mem (h : m.Covers found spans) {span : Span} (hmem : span ∈ spans) :
    ∃ label ∈ m.consumedSpans found, label.stop = span.stop := by
  obtain ⟨piece, hpiece, heq⟩ := h.of_mem_spans hmem
  obtain ⟨_, label, hlabel, hstop⟩ := labelSpan?_of_pieceSpan? heq
  have href : ⟨piece.slot, piece.last⟩ ∈ found.labels :=
    mem_labels.2 ⟨piece, hpiece, rfl, h.ordered piece hpiece, Nat.le_refl _⟩
  exact ⟨label, mem_consumedSpans.2 ⟨_, href, hlabel⟩, hstop⟩

theorem Covers.last_mem (h : m.Covers found spans) {piece : Piece} (hmem : piece ∈ found.consumed) :
    ∃ last, m.labelSpan? ⟨piece.slot, piece.last⟩ = some last ∧ ∃ span ∈ spans, last.stop = span.stop := by
  obtain ⟨span, hspan, heq⟩ := h.of_mem_consumed hmem
  obtain ⟨_, last, hlast, hstop⟩ := labelSpan?_of_pieceSpan? heq
  exact ⟨last, hlast, span, hspan, hstop⟩

theorem Covers.isExtent (h : m.Covers found spans) {start stop : Nat}
    (hleast : ∀ span ∈ spans, start ≤ span.start) (hstart : ∃ span ∈ spans, span.start = start)
    (hstop : ∃ span ∈ spans, span.stop = stop) : IsExtent ⟨start, stop⟩ (m.consumedSpans found) where
  start_mem := by
    obtain ⟨span, hspan, heq⟩ := hstart
    obtain ⟨label, hlabel, hlabelStart⟩ := h.start_mem hspan
    exact ⟨label, hlabel, hlabelStart.trans heq⟩
  start_le := by
    intro label hlabel
    obtain ⟨ref, href, heq⟩ := mem_consumedSpans.1 hlabel
    obtain ⟨inner, hinner, span, hspan, hle⟩ := h.of_mem_labels href
    rw [heq] at hinner
    cases hinner
    exact Nat.le_trans (hleast span hspan) hle
  stop_mem := by
    obtain ⟨span, hspan, heq⟩ := hstop
    obtain ⟨label, hlabel, hlabelStop⟩ := h.stop_mem hspan
    exact ⟨label, hlabel, hlabelStop.trans heq⟩

/-- Only labels before the last one of a piece can stop too late. -/
theorem Covers.le_stop_iff (h : m.Covers found spans) {stop : Nat} (hbelow : ∀ span ∈ spans, span.stop ≤ stop) :
    (∀ span ∈ m.consumedSpans found, span.stop ≤ stop) ↔
      ∀ piece ∈ found.consumed, ∀ position span, piece.first ≤ position → position < piece.last →
        m.labelSpan? ⟨piece.slot, position⟩ = some span → span.stop ≤ stop := by
  constructor
  · intro hle piece hpiece position span hfirst hlast heq
    have href : ⟨piece.slot, position⟩ ∈ found.labels :=
      mem_labels.2 ⟨piece, hpiece, rfl, hfirst, Nat.le_of_lt hlast⟩
    exact hle span (mem_consumedSpans.2 ⟨_, href, heq⟩)
  · intro hinner span hspan
    obtain ⟨⟨slot, position⟩, href, heq⟩ := mem_consumedSpans.1 hspan
    obtain ⟨piece, hpiece, rfl, hfirst, hlast⟩ := mem_labels.1 href
    rcases Nat.lt_or_eq_of_le hlast with hlt | rfl
    · exact hinner piece hpiece position span hfirst hlt heq
    · obtain ⟨label, hlabel, last, hmem, hstop⟩ := h.last_mem hpiece
      rw [heq] at hlabel
      cases hlabel
      exact hstop ▸ hbelow last hmem

end

end Matcher

namespace Searcher

/-- Whatever a hit consumed begins with the hit, and the position reached is where the last of it stops. -/
theorem Regular.hit_covers {s : Searcher} (h : s.Regular) {candidate : Nat} {hit : Hit}
    (hattempt : s.attempt candidate = .ok (some hit)) :
    ∃ spans, s.matcher.Covers hit.found spans ∧ (∀ span ∈ spans, hit.start ≤ span.start) ∧
      (∃ span ∈ spans, span.start = hit.start) ∧
      (∃ span ∈ spans, span.stop = hit.found.state.position) ∧
      (∀ span ∈ spans, span.stop ≤ hit.found.state.position) ∧
      hit.found.state.position ≤ s.range.stop := by
  obtain ⟨first, rest, hspans, hadvance, hstart⟩ := h.hit_advance hattempt
  obtain ⟨hcandidate, hle, hrest⟩ := hadvance.ascending
  have hstop := @reach_mem candidate _ (List.cons_ne_nil first rest)
  rw [← hadvance.position] at hstop
  have hbelow := hadvance.ascending.stop_le_reach
  rw [← hadvance.position] at hbelow
  have hordered : ∀ piece ∈ hit.found.consumed, piece.first ≤ piece.last := by
    obtain ⟨found, hfound, heq⟩ := Attempt.andThen_eq_some_iff.1 hattempt
    simp only [Except.ok.injEq, Option.map_eq_some_iff] at heq
    obtain ⟨start, _, rfl⟩ := heq
    exact (Matcher.path_of_evaluate hfound).first_le_last
  have hleast : ∀ span ∈ first :: rest, hit.start ≤ span.start := by
    rw [← hstart, List.forall_mem_cons]
    exact ⟨Nat.le_refl _, fun span hmem => Nat.le_trans hle (hrest.le_start span hmem)⟩
  have hwithin : hit.found.state.position ≤ s.range.stop := by
    obtain ⟨last, hmem, hlast⟩ := hstop
    rw [← hlast]
    exact hadvance.within last hmem
  exact ⟨first :: rest, ⟨hspans, hordered⟩, hleast, ⟨first, List.mem_cons_self, hstart⟩, hstop, hbelow, hwithin⟩

/-- In a session, a match extends within the range from the least start to a stop of the labels consumed. It
is their hull, and the range contains them, if and only if no label that a literal took before its last one
stops after the match. -/
theorem matched_isHull_iff {view : View} (hview : view.Proper) (pattern : Pattern) (range : Span)
    (calls : List Call) {s next : Searcher} (hs : s = (view.searcherIn pattern range).1.after calls)
    (h : s.search = (.ok true, next)) :
    ∃ hit matched, s.firstHit s.remaining = .ok (some hit) ∧ next.matched? = some matched ∧
      (∀ ref ∈ hit.found.labels, (s.matcher.labelSpan? ref).isSome) ∧
      IsExtent matched (s.matcher.consumedSpans hit.found) ∧ s.range.contains matched ∧
      ((IsHull matched (s.matcher.consumedSpans hit.found) ∧
          ∀ span ∈ s.matcher.consumedSpans hit.found, s.range.contains span) ↔
        ∀ piece ∈ hit.found.consumed, ∀ position span, piece.first ≤ position → position < piece.last →
          s.matcher.labelSpan? ⟨piece.slot, position⟩ = some span → span.stop ≤ matched.stop) := by
  have hregular : s.Regular := hs ▸ (regular_searcherIn hview pattern range).after calls
  obtain ⟨hit, _, hhit, _, rfl⟩ := search_eq_true h
  obtain ⟨_, hattempt⟩ := of_firstHit_eq_some hhit
  obtain ⟨_, hbegin, hrange⟩ := hregular.bounds hhit
  obtain ⟨spans, hcovers, hleast, hstart, hstop, hbelow, hwithin⟩ := hregular.hit_covers hattempt
  have hextent := hcovers.isExtent hleast hstart hstop
  have hcontains : s.range.contains ⟨hit.start, hit.found.state.position⟩ := by
    simp only [Span.contains_iff]
    omega
  have hlabels : ∀ ref ∈ hit.found.labels, (s.matcher.labelSpan? ref).isSome := by
    intro ref href
    obtain ⟨inner, hinner, _⟩ := hcovers.of_mem_labels href
    simp [hinner]
  refine ⟨hit, _, hhit, rfl, hlabels, hextent, hcontains, ?_⟩
  rw [← hcovers.le_stop_iff hbelow]
  constructor
  · intro hhull
    exact hhull.1.le_stop
  · intro hle
    apply And.intro ⟨hextent, hle⟩
    intro span hspan
    have hbefore : hit.start ≤ span.start := hextent.start_le span hspan
    have hafter := hle span hspan
    simp only [Span.contains_iff]
    omega

def wordAliases : AliasTable := AliasTable.registerToken ⟨.empty, none⟩ "Word" { name := "Word" } []

def wordPattern : Pattern where
  source := "\"a b\""
  root := .literal (.ofText "a b" 0 ⟨{ name := "Word" }, Label.text⟩)
  kinds := [{ name := "Word" }]
  captureNames := []

/-- Two words, the second of which lies inside the first. -/
def wordView : View where
  name := "words"
  text := "abcdefghijkl"
  labelers := [({ name := "Word" }, .collecting #[
    ⟨⟨0, 10⟩, .ofList [("text", .text "a")]⟩, ⟨⟨2, 4⟩, .ofList [("text", .text "b")]⟩])]

def wordSearcher : Searcher := (wordView.searcherIn wordPattern ⟨0, 12⟩).1

theorem wordView_proper : wordView.Proper := by
  simp [View.Proper, View.All, wordView, Labeler.All, Label.Proper]

theorem firstHit_words : wordSearcher.firstHit wordSearcher.remaining =
    .ok (some ⟨0, 0, ⟨⟨4, .free, some 0, some ⟨0, 1⟩⟩, #[], [⟨0, 0, 1⟩]⟩⟩) := by
  rw [wordSearcher, searcherIn_eq_byInsertion]
  decide +kernel

theorem search_words :
    wordSearcher.search = (.ok true, { wordSearcher with matched? := some ⟨0, 4⟩, cursor := 4 }) := by
  rw [search_of_firstHit rfl firstHit_words]
  rfl

theorem matched_isHull_iff_words :
    wordView.Proper ∧ wordSearcher = (wordView.searcherIn wordPattern ⟨0, 12⟩).1.after [] ∧
      wordSearcher.search = (.ok true, { wordSearcher with matched? := some ⟨0, 4⟩, cursor := 4 }) ∧
      ∃ hit, wordSearcher.firstHit wordSearcher.remaining = .ok (some hit) ∧
        IsExtent ⟨0, 4⟩ (wordSearcher.matcher.consumedSpans hit.found) := by
  obtain ⟨hit, matched, hhit, hmatched, _, hextent, _⟩ :=
    matched_isHull_iff wordView_proper wordPattern ⟨0, 12⟩ [] rfl search_words
  cases hmatched
  exact ⟨wordView_proper, rfl, search_words, hit, hhit, hextent⟩

/-- A word that contains the one after it stops after the match of both. -/
theorem not_always_isHull :
    ¬ ∀ (table : AliasTable) (source : String) (pattern : Pattern) (view : View) (range : Span)
      (next : Searcher), parse table source = .ok pattern → view.Proper →
      (view.searcherIn pattern range).1.search = (.ok true, next) →
      ∃ hit matched, (view.searcherIn pattern range).1.firstHit
          (view.searcherIn pattern range).1.remaining = .ok (some hit) ∧ next.matched? = some matched ∧
        IsHull matched ((view.searcherIn pattern range).1.matcher.consumedSpans hit.found) := by
  intro h
  have hparse : parse wordAliases "\"a b\"" = .ok wordPattern :=
    parse_of_meaning (.last (.last (.item none (.literal "a b") none))) (by decide +kernel) rfl
  obtain ⟨hit, matched, hhit, hmatched, hhull⟩ := h _ _ _ _ _ _ hparse wordView_proper search_words
  cases hmatched
  cases firstHit_words.symm.trans hhit
  have hspans : wordSearcher.matcher.consumedSpans ⟨⟨4, .free, some 0, some ⟨0, 1⟩⟩, #[], [⟨0, 0, 1⟩]⟩ =
      [⟨0, 10⟩, ⟨2, 4⟩] := by
    rw [wordSearcher, searcherIn_eq_byInsertion]
    decide +kernel
  have hstop : 10 ≤ 4 := hhull.le_stop ⟨0, 10⟩ (hspans ▸ List.mem_cons_self)
  exact absurd hstop (by decide)

end Searcher

end TextAnnotation.Pattern
