import TextAnnotation.Proofs.Pattern.Exhaustive
import TextAnnotation.Proofs.Pattern.Hull

/-!
How a match moves the cursor: to where it stops, and past the candidate that it was tried from. Offsets have
64 bits, and after the largest of them there is none for the cursor to move to.
-/

namespace TextAnnotation

/-- A label as it can be stored: it does not end before it starts, and its offsets have 64 bits. -/
@[mk_iff]
structure Label.Storable (label : Label) : Prop where
  proper : label.Proper
  stop_le : label.span.stop ≤ Pattern.Searcher.maxOffset

theorem LabelIndex.All.imp {P Q : Label → Prop} {index : LabelIndex Label} (h : index.All P)
    (hPQ : ∀ label, P label → Q label) : index.All Q :=
  fun label hlabel => hPQ label (h label hlabel)

theorem View.All.imp {P Q : Label → Prop} {view : View} (h : view.All P) (hPQ : ∀ label, P label → Q label) :
    view.All Q := by
  intro entry hentry
  have hlabeler := h entry hentry
  obtain ⟨kind, labeler⟩ := entry
  cases labeler with
  | collecting labels => exact fun label hlabel => hPQ label (hlabeler label hlabel)
  | frozen index => exact LabelIndex.All.imp hlabeler hPQ

namespace Pattern

theorem Matcher.all_of_labelSpan? {P : Label → Prop} {m : Matcher} (hm : ∀ frozen ∈ m.indices, frozen.index.All P)
    {ref : LabelRef} {span : Span} (h : m.labelSpan? ref = some span) : ∃ label, P label ∧ label.span = span := by
  obtain ⟨frozen, label, hfrozen, hlabel, hspan⟩ := Matcher.labelSpan?_eq_some_iff.1 h
  exact ⟨label, hm frozen (Array.mem_of_getElem? hfrozen) label (LabelIndex.mem_of_get? hlabel), hspan⟩

namespace Searcher

/-- The next call comes to a match. -/
structure Finds (s : Searcher) (hit : Hit) : Prop where
  searches : s.exhausted = false
  firstHit : s.firstHit s.remaining = .ok (some hit)

/-- The call that comes to a match returns it, and the offset after its candidate and the cursor for the next
call have 64 bits. -/
structure Moves (s : Searcher) (hit : Hit) : Prop where
  found : s.search.1 = .ok true
  next_le : hit.candidate + 1 ≤ maxOffset
  cursor : s.search.2.cursor = max hit.found.state.position (hit.candidate + 1)
  cursor_le : s.search.2.cursor ≤ maxOffset
  candidate_lt : hit.candidate < s.search.2.cursor

section
variable {s : Searcher} {hit : Hit}

theorem Finds.search_eq_report (h : s.Finds hit) : s.search = s.report (.ok (some hit)) :=
  search_of_firstHit h.searches h.firstHit

theorem Finds.attempt (h : s.Finds hit) : s.attempt hit.candidate = .ok (some hit) :=
  (of_firstHit_eq_some h.firstHit).2

/-- A match stops where one of the labels does that it consumed. -/
theorem Finds.position_le (h : s.Finds hit) (hs : s.Regular)
    (hstorable : ∀ frozen ∈ s.indices, frozen.index.All Label.Storable) :
    hit.found.state.position ≤ maxOffset := by
  obtain ⟨spans, hcovers, _, _, ⟨last, hlast, hstop⟩, _⟩ := hs.hit_covers h.attempt
  obtain ⟨span, hspan, heq⟩ := hcovers.stop_mem hlast
  obtain ⟨ref, _, href⟩ := Matcher.mem_consumedSpans.1 hspan
  obtain ⟨label, hlabel, hlabelSpan⟩ := Matcher.all_of_labelSpan? (m := s.matcher) hstorable href
  have hle := hlabel.stop_le
  rwa [hlabelSpan, heq, hstop] at hle

theorem Finds.bounds (h : s.Finds hit) (hs : s.Regular) :
    hit.candidate ≤ hit.start ∧ hit.start ≤ hit.found.state.position := by
  obtain ⟨_, hcandidate, _⟩ := hs.bounds h.firstHit
  obtain ⟨first, rest, _, hadvance, hstart⟩ := hs.hit_advance h.attempt
  obtain ⟨_, hproper, hrest⟩ := hadvance.ascending
  have hreach : first.stop ≤ hit.found.state.position := by
    rw [hadvance.position]
    exact hrest.le_reach
  exact ⟨hcandidate, hstart ▸ Nat.le_trans hproper hreach⟩

/-- A candidate is where a label starts that lies inside the range. -/
theorem Finds.starts_label (h : s.Finds hit) (hs : s.Regular) :
    ∃ frozen ∈ s.indices, ∃ label ∈ frozen.index.ascending,
      label.span.start = hit.candidate ∧ s.range.start ≤ label.span.start ∧ label.span.stop ≤ s.range.stop := by
  have hmem : hit.candidate ∈ candidateStarts s.indices s.range := by
    rw [← hs.candidates]
    exact List.mem_of_mem_drop (of_firstHit_eq_some h.firstHit).1
  obtain ⟨frozen, hfrozen, label, hlabel, hinside, hstart⟩ := mem_candidateStarts.1 hmem
  simp only [LabelIndex.inside, Bool.and_eq_true, decide_eq_true_eq] at hinside
  exact ⟨frozen, hfrozen, label, hlabel, hstart, hinside.1.1, hinside.2⟩

/-- There is room for the cursor after every candidate but the largest offset. -/
theorem Finds.search_eq (h : s.Finds hit) (hs : s.Regular) :
    s.search =
      let found := { s with
        matched? := some ⟨hit.start, hit.found.state.position⟩
        captures := hit.found.captures }
      if hit.candidate < maxOffset then
        (.ok true, { found with cursor := max hit.found.state.position (hit.candidate + 1) })
      else (.error .offsetOverflow, found) := by
  have hspan := Span.between_eq_ok_iff.2 ⟨(h.bounds hs).2, rfl⟩
  rw [h.search_eq_report]
  simp only [report, hspan]

theorem Finds.moves_iff (h : s.Finds hit) (hs : s.Regular)
    (hstorable : ∀ frozen ∈ s.indices, frozen.index.All Label.Storable) :
    s.Moves hit ↔ hit.candidate < maxOffset := by
  have hposition := h.position_le hs hstorable
  have hsearch := h.search_eq hs
  constructor
  · intro hmoves
    exact hmoves.next_le
  · intro hlt
    rw [if_pos hlt] at hsearch
    exact {
      found := by rw [hsearch]
      next_le := hlt
      cursor := by rw [hsearch]
      cursor_le := by
        rw [hsearch]
        exact Nat.max_le.2 ⟨hposition, hlt⟩
      candidate_lt := by
        rw [hsearch]
        exact Nat.lt_of_lt_of_le (Nat.lt_succ_self _) (Nat.le_max_right _ _) }

end

/-- In a session over labels with offsets of 64 bits, every match is held, and the cursor moves past its candidate,
without an overflow on the way, unless the candidate is the largest offset. There an empty label stands at that
offset, and the cursor stays. -/
theorem moves_cursor_iff {view : View} (hview : view.All Label.Storable) (pattern : Pattern) (range : Span)
    (calls : List Call) {s : Searcher} (hs : s = (view.searcherIn pattern range).1.after calls) {hit : Hit}
    (h : s.Finds hit) :
    s.search.2.matched? = some ⟨hit.start, hit.found.state.position⟩ ∧
      (s.Moves hit ↔ hit.candidate ≠ maxOffset) ∧
      (hit.candidate = maxOffset →
        s.search.1 = .error .offsetOverflow ∧ s.search.2.cursor = s.cursor ∧
          ∃ frozen ∈ s.indices, ∃ label ∈ frozen.index.ascending,
            label.span = ⟨maxOffset, maxOffset⟩ ∧ maxOffset ≤ s.range.stop) := by
  have hproper : view.Proper := View.All.imp hview fun _ hlabel => hlabel.proper
  have hregular : s.Regular := hs ▸ (regular_searcherIn hproper pattern range).after calls
  have hstorable : ∀ frozen ∈ s.indices, frozen.index.All Label.Storable := by
    rw [hs, indices_after]
    exact all_searcherIn hview pattern range
  have hposition := h.position_le hregular hstorable
  obtain ⟨hcandidate, hstart⟩ := h.bounds hregular
  have hsearch := h.search_eq hregular
  apply And.intro _ (And.intro _ _)
  · rw [hsearch]
    dsimp only
    split <;> rfl
  · rw [h.moves_iff hregular hstorable]
    omega
  · intro hlimit
    rw [if_neg (by omega)] at hsearch
    obtain ⟨frozen, hfrozen, label, hlabel, hlabelStart, _, hwithin⟩ := h.starts_label hregular
    have hlabelStorable := hstorable frozen hfrozen label hlabel
    have hle : label.span.start ≤ label.span.stop := hlabelStorable.proper
    have hstop := hlabelStorable.stop_le
    have hstartLimit : label.span.start = maxOffset := hlabelStart.trans hlimit
    have hstopLimit : label.span.stop = maxOffset := by omega
    have hspan : label.span = ⟨maxOffset, maxOffset⟩ := congrArg₂ Span.mk hstartLimit hstopLimit
    exact ⟨by rw [hsearch], by rw [hsearch], frozen, hfrozen, label, hlabel, hspan, hstopLimit ▸ hwithin⟩

def brinkAliases : AliasTable := AliasTable.register ⟨.empty, none⟩ "Brink" { name := "Brink" } []

def brinkPattern : Pattern where
  source := "Brink"
  root := .label ⟨"Brink", 0, []⟩
  kinds := [{ name := "Brink" }]
  captureNames := []

/-- Labels at the end of all offsets: the last one that takes room, and an empty one after it. -/
def brinkView : View where
  name := "brinks"
  text := "ab"
  labelers := [({ name := "Brink" }, .collecting #[
    ⟨⟨18446744073709551614, 18446744073709551615⟩, .empty⟩,
    ⟨⟨18446744073709551615, 18446744073709551615⟩, .empty⟩])]

def brinkSearcher : Searcher := (brinkView.searcherIn brinkPattern ⟨0, 18446744073709551615⟩).1

theorem brinkView_storable : brinkView.All Label.Storable := by
  simp [View.All, brinkView, Labeler.All, Label.storable_iff, Label.Proper, maxOffset]

theorem finds_brinks : brinkSearcher.Finds ⟨18446744073709551614, 18446744073709551614,
    ⟨⟨18446744073709551615, .free, some 18446744073709551614, some ⟨0, 0⟩⟩, #[], [⟨0, 0, 0⟩]⟩⟩ where
  searches := rfl
  firstHit := by
    rw [brinkSearcher, searcherIn_eq_byInsertion]
    decide +kernel

theorem moves_cursor_iff_brinks :
    brinkView.All Label.Storable ∧
      brinkSearcher = (brinkView.searcherIn brinkPattern ⟨0, 18446744073709551615⟩).1.after [] ∧
      ∃ hit, brinkSearcher.Finds hit ∧ hit.candidate = 18446744073709551614 ∧ brinkSearcher.Moves hit := by
  have hmoves := (moves_cursor_iff brinkView_storable brinkPattern ⟨0, 18446744073709551615⟩ [] rfl finds_brinks).2.1
  exact ⟨brinkView_storable, rfl, _, finds_brinks, rfl, hmoves.2 (by decide)⟩

/-- The cursor does not move past an empty label at the largest offset. -/
theorem not_always_moves :
    ¬ ∀ (table : AliasTable) (source : String) (pattern : Pattern) (view : View) (range : Span) (hit : Hit),
      parse table source = .ok pattern → view.All Label.Storable →
      (view.searcherIn pattern range).1.Finds hit → (view.searcherIn pattern range).1.Moves hit := by
  intro h
  have hparse : parse brinkAliases "Brink" = .ok brinkPattern :=
    parse_of_meaning (.last (.last (.ofAlias "Brink"))) (by decide +kernel) rfl
  have hfinds : (brinkView.searcherIn brinkPattern ⟨18446744073709551615, 18446744073709551615⟩).1.Finds
      ⟨18446744073709551615, 18446744073709551615,
        ⟨⟨18446744073709551615, .free, some 18446744073709551615, some ⟨0, 1⟩⟩, #[], [⟨0, 1, 1⟩]⟩⟩ := by
    rw [searcherIn_eq_byInsertion]
    exact ⟨rfl, by decide +kernel⟩
  have hmoves := h _ _ _ _ _ _ hparse brinkView_storable hfinds
  exact absurd hmoves.next_le (by decide)

end Searcher

end Pattern

end TextAnnotation
