import Mathlib.Data.List.Nodup
import Mathlib.Data.Option.Basic
import TextAnnotation.Proofs.Pattern.Hull

/-!
The labels that one match consumes come in span order, and none of them is consumed twice unless it is empty:
a term goes on from where the last label stops, and an empty label starts there again.
-/

namespace TextAnnotation.Pattern

theorem Ascending.pairwise_stop_le_start {offset : Nat} {spans : List Span} (h : Ascending offset spans) :
    spans.Pairwise fun a b => a.stop ≤ b.start := by
  induction spans generalizing offset with
  | nil => exact .nil
  | cons span rest ih => exact List.pairwise_cons.2 ⟨h.2.2.le_start, ih h.2.2⟩

namespace Matcher

variable {m : Matcher}

theorem Proper.labelSpan? (hm : m.Proper) {ref : LabelRef} {span : Span} (h : m.labelSpan? ref = some span) :
    span.start ≤ span.stop := by
  obtain ⟨frozen, label, hfrozen, hlabel, rfl⟩ := labelSpan?_eq_some_iff.1 h
  exact hm.start_le_stop hfrozen hlabel

theorem labelSpan?_le {slot i j : Nat} {a b : Span} (ha : m.labelSpan? ⟨slot, i⟩ = some a)
    (hb : m.labelSpan? ⟨slot, j⟩ = some b) (hij : i ≤ j) : a.le b = true := by
  obtain ⟨frozen, x, hfrozen, hx, rfl⟩ := labelSpan?_eq_some_iff.1 ha
  obtain ⟨other, y, hother, hy, rfl⟩ := labelSpan?_eq_some_iff.1 hb
  cases hfrozen.symm.trans hother
  obtain ⟨hi, rfl⟩ := Array.getElem?_eq_some_iff.1 hx
  obtain ⟨hj, rfl⟩ := Array.getElem?_eq_some_iff.1 hy
  rcases Nat.eq_or_lt_of_le hij with rfl | hlt
  · exact Span.le_iff.2 (.inr ⟨rfl, Nat.le_refl _⟩)
  · exact List.pairwise_iff_getElem.1 frozen.index.sorted i j (by simpa using hi) (by simpa using hj) hlt

/-- A label comes before another one in span order, and if they are one and the same it is empty. -/
def Precedes (m : Matcher) (earlier later : LabelRef) : Prop :=
  ∃ a b, m.labelSpan? earlier = some a ∧ m.labelSpan? later = some b ∧ a.le b = true ∧
    (earlier = later → a.start = a.stop)

theorem pairwise_precedes_piece {piece : Piece} {span : Span} (h : m.pieceSpan? piece = some span) :
    piece.labels.Pairwise m.Precedes := by
  rw [Piece.labels, List.pairwise_map]
  apply List.Pairwise.imp_of_mem _ List.pairwise_lt_range'
  intro i j hi hj hlt
  rw [List.mem_range'_1] at hi hj
  obtain ⟨a, ha, _⟩ := labelSpan?_of_mem_piece h hi.1 (by omega)
  obtain ⟨b, hb, _⟩ := labelSpan?_of_mem_piece h hj.1 (by omega)
  refine ⟨a, b, ha, hb, labelSpan?_le ha hb (Nat.le_of_lt hlt), fun heq => ?_⟩
  cases heq
  exact absurd hlt (Nat.lt_irrefl _)

/-- Where a later piece starts, all labels of an earlier one have stopped or are empty. -/
theorem precedes_of_pieces (hm : m.Proper) {earlier later : Piece} {span next : Span}
    (hearlier : m.pieceSpan? earlier = some span) (hlater : m.pieceSpan? later = some next)
    (hle : span.stop ≤ next.start) {i j : Nat} (hi : earlier.first ≤ i ∧ i ≤ earlier.last)
    (hj : later.first ≤ j ∧ j ≤ later.last) : m.Precedes ⟨earlier.slot, i⟩ ⟨later.slot, j⟩ := by
  obtain ⟨a, ha, _⟩ := labelSpan?_of_mem_piece hearlier hi.1 hi.2
  obtain ⟨b, hb, hstart⟩ := labelSpan?_of_mem_piece hlater hj.1 hj.2
  obtain ⟨_, last, hlast, hstop⟩ := labelSpan?_of_pieceSpan? hearlier
  have haLast := Span.le_iff.1 (labelSpan?_le ha hlast hi.2)
  have hlastProper := hm.labelSpan? hlast
  have hbProper := hm.labelSpan? hb
  refine ⟨a, b, ha, hb, Span.le_iff.2 (by omega), fun heq => ?_⟩
  have haProper := hm.labelSpan? ha
  rw [heq] at ha
  cases ha.symm.trans hb
  omega

theorem Covers.pairwise_precedes {found : Accepted} {spans : List Span} (hm : m.Proper)
    (h : m.Covers found spans) {offset : Nat} (hascending : Ascending offset spans) :
    found.labels.Pairwise m.Precedes := by
  rw [Accepted.labels, List.pairwise_flatMap]
  constructor
  · intro piece hpiece
    obtain ⟨span, _, hspan⟩ := h.of_mem_consumed hpiece
    exact pairwise_precedes_piece hspan
  have hsome : (spans.map some).Pairwise fun x y =>
      ∀ span next, x = some span → y = some next → span.stop ≤ next.start := by
    rw [List.pairwise_map]
    apply hascending.pairwise_stop_le_start.imp
    intro a b hab span next hspan hnext
    cases hspan
    cases hnext
    exact hab
  rw [← h.pieces, List.pairwise_map] at hsome
  apply hsome.imp_of_mem
  intro earlier later hearlier hlater hle x hx y hy
  obtain ⟨span, _, hspan⟩ := h.of_mem_consumed hearlier
  obtain ⟨next, _, hnext⟩ := h.of_mem_consumed hlater
  simp only [Piece.labels, List.mem_map, List.mem_range'_1] at hx hy
  obtain ⟨i, hi, rfl⟩ := hx
  obtain ⟨j, hj, rfl⟩ := hy
  exact precedes_of_pieces hm hspan hnext (hle _ _ hspan hnext) (by omega) (by omega)

theorem Precedes.eq_of_mutual {a b : LabelRef} (hab : m.Precedes a b) (hba : m.Precedes b a) :
    m.labelSpan? b = m.labelSpan? a := by
  obtain ⟨x, y, hx, hy, hxy, _⟩ := hab
  obtain ⟨y', x', hy', hx', hyx, _⟩ := hba
  cases hx.symm.trans hx'
  cases hy.symm.trans hy'
  rw [Span.le_iff] at hxy hyx
  rw [hx, hy]
  congr 1
  cases x
  cases y
  simp only [Span.mk.injEq] at *
  omega

/-- Between two turns of one label, only empty labels at its place are consumed. -/
theorem empty_of_recurs {labels earlier between later : List LabelRef} {ref : LabelRef}
    (h : labels.Pairwise m.Precedes) (hlabels : labels = earlier ++ ref :: (between ++ ref :: later)) :
    ∃ offset, ∀ taken ∈ ref :: between, m.labelSpan? taken = some ⟨offset, offset⟩ := by
  subst hlabels
  obtain ⟨_, htail, _⟩ := List.pairwise_append.1 h
  obtain ⟨hfirst, hrest⟩ := List.pairwise_cons.1 htail
  obtain ⟨_, _, hlast⟩ := List.pairwise_append.1 hrest
  obtain ⟨span, _, hspan, _, _, hempty⟩ := hfirst ref (by simp)
  have hself : m.labelSpan? ref = some ⟨span.start, span.start⟩ := by
    rw [hspan]
    congr 1
    cases span
    simp only [Span.mk.injEq, true_and]
    exact (hempty rfl).symm
  refine ⟨span.start, List.forall_mem_cons.2 ⟨hself, fun taken htaken => ?_⟩⟩
  rw [← hself]
  exact (hfirst taken (by simp [htaken])).eq_of_mutual (hlast taken htaken ref List.mem_cons_self)

/-- Only empty labels can be consumed more than once. -/
theorem nodup_iff_of_precedes {labels : List LabelRef} (h : labels.Pairwise m.Precedes) :
    labels.Nodup ↔ ∀ ref ∈ labels, ∀ offset, m.labelSpan? ref = some ⟨offset, offset⟩ → labels.count ref = 1 := by
  constructor
  · intro hnodup ref href _ _
    exact List.count_eq_one_of_mem hnodup href
  · intro hempty
    rw [List.nodup_iff_count_le_one]
    intro ref
    by_contra hmore
    have hsublist : (List.replicate 2 ref).Sublist labels := List.replicate_sublist_iff.2 (by omega)
    have htwice := List.rel_of_pairwise_cons (h.sublist hsublist) List.mem_cons_self
    obtain ⟨⟨start, stop⟩, _, hspan, _, _, heq⟩ := htwice
    cases heq rfl
    exact hmore (Nat.le_of_eq (hempty ref (hsublist.subset List.mem_cons_self) start hspan))

end Matcher

namespace Searcher

theorem Regular.labels_pairwise {s : Searcher} (h : s.Regular) {candidate : Nat} {hit : Hit}
    (hattempt : s.attempt candidate = .ok (some hit)) :
    hit.found.labels ≠ [] ∧ hit.found.labels.Pairwise s.matcher.Precedes := by
  obtain ⟨first, rest, hpieces, hadvance, _⟩ := h.hit_advance hattempt
  obtain ⟨spans, hcovers, _, ⟨span, hspan, _⟩, _⟩ := h.hit_covers hattempt
  have hspans : spans = first :: rest :=
    List.map_injective_iff.2 (Option.some_injective _) (hcovers.pieces.symm.trans hpieces)
  obtain ⟨label, hlabel, _⟩ := hcovers.start_mem hspan
  obtain ⟨ref, href, _⟩ := Matcher.mem_consumedSpans.1 hlabel
  exact ⟨List.ne_nil_of_mem href, hcovers.pairwise_precedes h.matcher (hspans ▸ hadvance.ascending)⟩

/-- A match consumes labels in span order, and one of them again only if it is empty and nothing but empty
labels at its place was consumed since. So the labels are distinct if and only if each of the empty ones
among them is consumed once. -/
theorem labels_nodup_iff {view : View} (hview : view.Proper) (pattern : Pattern) (range : Span)
    (calls : List Call) {s next : Searcher} (hs : s = (view.searcherIn pattern range).1.after calls)
    (h : s.search = (.ok true, next)) :
    ∃ hit, s.firstHit s.remaining = .ok (some hit) ∧ hit.found.labels ≠ [] ∧
      hit.found.labels.Pairwise s.matcher.Precedes ∧
      (∀ earlier ref between later, hit.found.labels = earlier ++ ref :: (between ++ ref :: later) →
        ∃ offset, ∀ taken ∈ ref :: between, s.matcher.labelSpan? taken = some ⟨offset, offset⟩) ∧
      (hit.found.labels.Nodup ↔ ∀ ref ∈ hit.found.labels, ∀ offset,
        s.matcher.labelSpan? ref = some ⟨offset, offset⟩ → hit.found.labels.count ref = 1) := by
  have hregular : s.Regular := hs ▸ (regular_searcherIn hview pattern range).after calls
  obtain ⟨hit, _, hhit, _⟩ := search_eq_true h
  obtain ⟨_, hattempt⟩ := of_firstHit_eq_some hhit
  obtain ⟨hne, hpairwise⟩ := hregular.labels_pairwise hattempt
  have hrecurs (earlier : List LabelRef) (ref : LabelRef) (between later : List LabelRef)
      (hlabels : hit.found.labels = earlier ++ ref :: (between ++ ref :: later)) :=
    Matcher.empty_of_recurs hpairwise hlabels
  exact ⟨hit, hhit, hne, hpairwise, hrecurs, Matcher.nodup_iff_of_precedes hpairwise⟩

/-- Where no label is empty, all labels of a match are distinct. -/
theorem nodup_labels_of_nonempty {view : View} (hview : view.All Label.Nonempty) (pattern : Pattern)
    (range : Span) (calls : List Call) {s : Searcher}
    (hs : s = (view.searcherIn pattern range).1.after calls) {hit : Hit}
    (hhit : s.firstHit s.remaining = .ok (some hit)) : hit.found.labels.Nodup := by
  have hproper := View.proper_of_nonempty hview
  have hregular : s.Regular := hs ▸ (regular_searcherIn hproper pattern range).after calls
  obtain ⟨_, hpairwise⟩ := hregular.labels_pairwise (of_firstHit_eq_some hhit).2
  apply (Matcher.nodup_iff_of_precedes hpairwise).2
  intro ref _ offset hempty
  obtain ⟨frozen, label, hfrozen, hlabel, hspan⟩ := Matcher.labelSpan?_eq_some_iff.1 hempty
  have hmem : frozen ∈ (view.searcherIn pattern range).1.indices := by
    rw [← indices_after _ calls, ← hs]
    exact Array.mem_of_getElem? hfrozen
  rw [LabelIndex.get?_eq_ascending] at hlabel
  have hlt := all_searcherIn hview pattern range frozen hmem label (List.mem_of_getElem? hlabel)
  rw [Label.Nonempty, hspan] at hlt
  exact absurd hlt (Nat.lt_irrefl offset)

def pauseAliases : AliasTable := AliasTable.register ⟨.empty, none⟩ "Pause" { name := "Pause" } []

def pausePattern : Pattern where
  source := "Pause Pause"
  root := .sequence [.label ⟨"Pause", 0, []⟩, .label ⟨"Pause", 0, []⟩]
  kinds := [{ name := "Pause" }]
  captureNames := []

/-- A single pause, which takes no room. -/
def pauseView : View where
  name := "pauses"
  text := "ab"
  labelers := [({ name := "Pause" }, .collecting #[⟨⟨1, 1⟩, .empty⟩])]

def pauseSearcher : Searcher := (pauseView.searcherIn pausePattern ⟨0, 2⟩).1

theorem pauseView_proper : pauseView.Proper := by
  simp [View.Proper, View.All, pauseView, Labeler.All, Label.Proper]

theorem firstHit_pauses : pauseSearcher.firstHit pauseSearcher.remaining =
    .ok (some ⟨1, 1, ⟨1, .free, some 1, some ⟨0, 0⟩⟩, #[], [⟨0, 0, 0⟩, ⟨0, 0, 0⟩]⟩) := by
  decide +kernel

theorem search_pauses :
    pauseSearcher.search = (.ok true, { pauseSearcher with matched? := some ⟨1, 1⟩, cursor := 2 }) := by
  rw [search_of_firstHit rfl firstHit_pauses]
  rfl

theorem labels_nodup_iff_pauses :
    pauseView.Proper ∧ pauseSearcher = (pauseView.searcherIn pausePattern ⟨0, 2⟩).1.after [] ∧
      pauseSearcher.search = (.ok true, { pauseSearcher with matched? := some ⟨1, 1⟩, cursor := 2 }) ∧
      ∃ hit, pauseSearcher.firstHit pauseSearcher.remaining = .ok (some hit) ∧
        hit.found.labels.Pairwise pauseSearcher.matcher.Precedes := by
  obtain ⟨hit, hhit, _, hpairwise, _⟩ :=
    labels_nodup_iff pauseView_proper pausePattern ⟨0, 2⟩ [] rfl search_pauses
  exact ⟨pauseView_proper, rfl, search_pauses, hit, hhit, hpairwise⟩

/-- One empty label is enough for a pattern of two. -/
theorem not_always_nodup :
    ¬ ∀ (table : AliasTable) (source : String) (pattern : Pattern) (view : View) (range : Span)
      (next : Searcher), parse table source = .ok pattern → view.Proper →
      (view.searcherIn pattern range).1.search = (.ok true, next) →
      ∃ hit, (view.searcherIn pattern range).1.firstHit (view.searcherIn pattern range).1.remaining =
        .ok (some hit) ∧ hit.found.labels.Nodup := by
  intro h
  have hparse : parse pauseAliases "Pause Pause" = .ok pausePattern :=
    parse_of_meaning (.last (.next (.ofAlias "Pause") (.last (.ofAlias "Pause")))) (by decide +kernel) rfl
  obtain ⟨hit, hhit, hnodup⟩ := h _ _ _ _ _ _ hparse pauseView_proper search_pauses
  cases firstHit_pauses.symm.trans hhit
  exact absurd hnodup (by decide)

end Searcher

end TextAnnotation.Pattern
