import TextAnnotation.Proofs.Label.Proper
import TextAnnotation.Proofs.Pattern.Path

/-!
How far a path leads: the spans of its pieces follow one another, and position, begin and anchor of the
state it arrives at are determined by the first and the last of them.
-/

namespace TextAnnotation.Pattern

/-- Spans one after the other, the first of them at an offset or after it. -/
def Ascending (offset : Nat) : List Span → Prop
  | [] => True
  | span :: rest => offset ≤ span.start ∧ span.start ≤ span.stop ∧ Ascending span.stop rest

def reach (offset : Nat) (spans : List Span) : Nat := spans.foldl (fun _ span => span.stop) offset

theorem Ascending.le_reach {offset : Nat} {spans : List Span} (h : Ascending offset spans) :
    offset ≤ reach offset spans := by
  induction spans generalizing offset with
  | nil => exact Nat.le_refl _
  | cons span rest ih => exact Nat.le_trans (Nat.le_trans h.1 h.2.1) (ih h.2.2)

theorem Ascending.append {offset : Nat} {xs ys : List Span} (hxs : Ascending offset xs)
    (hys : Ascending (reach offset xs) ys) : Ascending offset (xs ++ ys) := by
  induction xs generalizing offset with
  | nil => exact hys
  | cons x xs ih => exact ⟨hxs.1, hxs.2.1, ih hxs.2.2 hys⟩

theorem Ascending.le_start {offset : Nat} {spans : List Span} (h : Ascending offset spans) :
    ∀ span ∈ spans, offset ≤ span.start := by
  induction spans generalizing offset with
  | nil => simp
  | cons span rest ih =>
    rw [List.forall_mem_cons]
    refine ⟨h.1, fun later hmem => ?_⟩
    exact Nat.le_trans (Nat.le_trans h.1 h.2.1) (ih h.2.2 later hmem)

theorem Ascending.stop_le_reach {offset : Nat} {spans : List Span} (h : Ascending offset spans) :
    ∀ span ∈ spans, span.stop ≤ reach offset spans := by
  induction spans generalizing offset with
  | nil => simp
  | cons span rest ih =>
    rw [List.forall_mem_cons]
    exact ⟨h.2.2.le_reach, ih h.2.2⟩

theorem reach_append (offset : Nat) (xs ys : List Span) :
    reach offset (xs ++ ys) = reach (reach offset xs) ys := List.foldl_append

/-- The position reached is that of a span, unless there is none. -/
theorem reach_mem {offset : Nat} {spans : List Span} (h : spans ≠ []) :
    ∃ span ∈ spans, span.stop = reach offset spans := by
  induction spans generalizing offset with
  | nil => exact absurd rfl h
  | cons span rest ih =>
    rcases rest with _ | ⟨next, rest⟩
    · exact ⟨span, List.mem_cons_self, rfl⟩
    · obtain ⟨last, hmem, hlast⟩ := @ih span.stop (List.cons_ne_nil next rest)
      exact ⟨last, List.mem_cons_of_mem _ hmem, hlast⟩

/-- What separates two states when labels with the given spans were consumed in between. -/
structure Advance (limit : Nat) (state : MatchState) (spans : List Span) (next : MatchState) : Prop where
  ascending : Ascending state.position spans
  within : ∀ span ∈ spans, span.stop ≤ limit
  position : next.position = reach state.position spans
  begin? : next.begin? = state.begin?.merge min (spans.head?.map Span.start)
  anchor_of_nil : spans = [] → next.anchor = state.anchor ∨ next.anchor = .adjacent
  anchor_of_ne_nil : spans ≠ [] → next.anchor ≠ .start

namespace Advance

theorem still (limit : Nat) (state : MatchState) : Advance limit state [] state where
  ascending := trivial
  within := by simp
  position := rfl
  begin? := by simp
  anchor_of_nil _ := .inl rfl
  anchor_of_ne_nil h := absurd rfl h

theorem adjacent (limit : Nat) (state : MatchState) :
    Advance limit state [] { state with anchor := .adjacent } where
  ascending := trivial
  within := by simp
  position := rfl
  begin? := by simp
  anchor_of_nil _ := .inr rfl
  anchor_of_ne_nil h := absurd rfl h

theorem consume {limit : Nat} {state : MatchState} {span : Span} (hstart : state.position ≤ span.start)
    (hle : span.start ≤ span.stop) (hstop : span.stop ≤ limit) (ref : LabelRef) :
    Advance limit state [span] (state.consume span ref) where
  ascending := ⟨hstart, hle, trivial⟩
  within := by simpa using hstop
  position := rfl
  begin? := by cases h : state.begin? <;> simp [MatchState.consume, h]
  anchor_of_nil h := absurd h (List.cons_ne_nil _ _)
  anchor_of_ne_nil _ := by simp [MatchState.consume]

theorem append {limit : Nat} {state middle next : MatchState} {xs ys : List Span}
    (h : Advance limit state xs middle) (h' : Advance limit middle ys next) :
    Advance limit state (xs ++ ys) next where
  ascending := h.ascending.append (h.position ▸ h'.ascending)
  within := by
    intro span hmem
    rcases List.mem_append.1 hmem with hmem | hmem
    · exact h.within span hmem
    · exact h'.within span hmem
  position := by rw [h'.position, h.position, reach_append]
  begin? := by
    rw [h'.begin?, h.begin?]
    rcases xs with _ | ⟨x, xs⟩
    · simp
    rcases ys with _ | ⟨y, ys⟩
    · simp
    have hxy : x.start ≤ y.start := by
      have hx := h.ascending.2.1
      have hreach := h.ascending.2.2.le_reach
      have hy := h'.ascending.1
      rw [h.position] at hy
      exact Nat.le_trans hx (Nat.le_trans hreach hy)
    cases state.begin? with
    | none => simp [hxy]
    | some first =>
      simp
      omega
  anchor_of_nil heq := by
    obtain ⟨hxs, hys⟩ := List.append_eq_nil_iff.1 heq
    rcases h'.anchor_of_nil hys with hanchor | hanchor
    · rw [hanchor]
      exact h.anchor_of_nil hxs
    · exact .inr hanchor
  anchor_of_ne_nil hne := by
    by_cases hys : ys = []
    · have hxs : xs ≠ [] := fun hxs => hne (by rw [hxs, hys]; rfl)
      rcases h'.anchor_of_nil hys with hanchor | hanchor
      · rw [hanchor]
        exact h.anchor_of_ne_nil hxs
      · rw [hanchor]
        exact Anchor.noConfusion
    · exact h'.anchor_of_ne_nil hys

theorem joinCapture {limit : Nat} {state inner : MatchState} {spans : List Span}
    (h : Advance limit { state with begin? := none, last? := none } spans inner) :
    Advance limit state spans (Matcher.joinCapture state inner) where
  ascending := h.ascending
  within := h.within
  position := h.position
  begin? := by
    simp only [Matcher.joinCapture, h.begin?]
    simp
  anchor_of_nil := h.anchor_of_nil
  anchor_of_ne_nil := h.anchor_of_ne_nil

end Advance

namespace Matcher

def Proper (m : Matcher) : Prop := ∀ frozen ∈ m.indices, frozen.index.All Label.Proper

def pieceSpan? (m : Matcher) (piece : Piece) : Option Span := do
  let frozen ← m.indices[piece.slot]?
  let first ← frozen.index.get? piece.first
  let last ← frozen.index.get? piece.last
  return ⟨first.span.start, last.span.stop⟩

theorem Proper.start_le_stop {m : Matcher} (hm : m.Proper) {slot position : Nat} {frozen : FrozenKind}
    {label : Label} (hfrozen : m.indices[slot]? = some frozen)
    (hlabel : frozen.index.get? position = some label) : label.span.start ≤ label.span.stop := by
  apply hm frozen (Array.mem_of_getElem? hfrozen)
  rw [LabelIndex.get?_eq_ascending] at hlabel
  exact List.mem_of_getElem? hlabel

theorem Path.advance {m : Matcher} (hm : m.Proper) {limit : Nat} {state next : MatchState}
    {captures written : Captures} {pieces : List Piece}
    (h : Path m limit state captures next written pieces) :
    ∃ spans, pieces.map m.pieceSpan? = spans.map some ∧ Advance limit state spans next := by
  induction h with
  | still => exact ⟨[], rfl, .still _ _⟩
  | append _ _ ih ih' =>
    obtain ⟨xs, hxs, hadvance⟩ := ih
    obtain ⟨ys, hys, hadvance'⟩ := ih'
    exact ⟨xs ++ ys, by rw [List.map_append, List.map_append, hxs, hys], hadvance.append hadvance'⟩
  | adjacent => exact ⟨[], rfl, .adjacent _ _⟩
  | @piece limit slot first last state frozen a b captures hfrozen hfirst hlast hle hposition hlimit =>
    refine ⟨[⟨a.span.start, b.span.stop⟩], by simp [pieceSpan?, hfrozen, hfirst, hlast], ?_⟩
    have hab : a.span.start ≤ b.span.start := LabelIndex.start_le_start hfirst hlast hle
    have hle : a.span.start ≤ b.span.stop := Nat.le_trans hab (hm.start_le_stop hfrozen hlast)
    exact @Advance.consume limit state ⟨a.span.start, b.span.stop⟩ hposition hle hlimit ⟨slot, last⟩
  | condition _ _ ih _ => exact ih
  | unbound _ _ ih =>
    obtain ⟨spans, hspans, hadvance⟩ := ih
    exact ⟨spans, hspans, hadvance.joinCapture⟩
  | bound _ _ _ _ ih =>
    obtain ⟨spans, hspans, hadvance⟩ := ih
    exact ⟨spans, hspans, hadvance.joinCapture⟩
  | lookahead => exact ⟨[], rfl, .still _ _⟩

end Matcher

end TextAnnotation.Pattern
