import TextAnnotation.Proofs.Pattern.Soundness
import TextAnnotation.Proofs.Pattern.Window

/-!
Two matchers of one text, with labels that are the same inside a range. What one of them attempts inside the
range, the other attempts in the same way: they take the same labels, each from positions of its own.
-/

namespace TextAnnotation.Pattern

/-- The same labels inside a range, where all of them are proper. -/
structure FrozenKind.Alike (range : Span) (frozen other : FrozenKind) : Prop where
  kind : frozen.kind = other.kind
  inside : frozen.index.SameInside range other.index
  proper : ∀ label ∈ frozen.index.ascending, range.contains label.span = true → label.Proper

structure Matcher.Alike (range : Span) (m n : Matcher) : Prop where
  text : m.text = n.text
  repetitionLimit : m.repetitionLimit = n.repetitionLimit
  indices : ∀ slot : Nat, Option.Rel (FrozenKind.Alike range) m.indices[slot]? n.indices[slot]?

/-- References, one into each matcher, to the same label. -/
def Matcher.SameLabel (m n : Matcher) (ref other : LabelRef) : Prop :=
  ∃ found, m.label ref = .ok found ∧ n.label other = .ok found

/-- States that have come equally far inside a range. -/
structure MatchState.Alike (range : Span) (m n : Matcher) (state other : MatchState) : Prop where
  position : state.position = other.position
  anchor : state.anchor = other.anchor
  begin : state.begin? = other.begin?
  last : Option.Rel (m.SameLabel n) state.last? other.last?
  start_le : range.start ≤ state.position

structure Captured.Alike (m n : Matcher) (captured other : Captured) : Prop where
  span : captured.span = other.span
  label : Option.Rel (m.SameLabel n) captured.label? other.label?

def CapturesAlike (m n : Matcher) (captures others : Captures) : Prop :=
  ∀ slot : Nat, Option.Rel (Option.Rel (Captured.Alike m n)) captures[slot]? others[slot]?

structure Accepted.Alike (range : Span) (m n : Matcher) (found other : Accepted) : Prop where
  state : found.state.Alike range m n other.state
  captures : CapturesAlike m n found.captures other.captures

/-- Attempts that end in the same way. -/
inductive Attempt.Alike (R : α → β → Prop) : Attempt α → Attempt β → Prop where
  | fault (fault : MatchFault) : Alike R (.error fault) (.error fault)
  | failure : Alike R (.ok none) (.ok none)
  | success {found : α} {other : β} (h : R found other) : Alike R (.ok (some found)) (.ok (some other))

namespace Attempt.Alike

variable {R : α → β → Prop} {attempt : Attempt α} {other : Attempt β}

theorem andThen {S : γ → δ → Prop} {next : α → Attempt γ} {next' : β → Attempt δ} (h : Alike R attempt other)
    (hnext : ∀ found found', R found found' → Alike S (next found) (next' found')) :
    Alike S (attempt.andThen next) (other.andThen next') := by
  cases h with
  | fault fault => exact .fault fault
  | failure => exact .failure
  | success h => exact hnext _ _ h

theorem orElse {attempt' : Attempt α} {other' : Attempt β} (h : Alike R attempt other)
    (h' : Alike R attempt' other') : Alike R (attempt.orElse attempt') (other.orElse other') := by
  cases h with
  | fault fault => exact .fault fault
  | failure => exact h'
  | success h => exact .success h

end Attempt.Alike

theorem eq_none_or_eq_some_of_rel {R : α → β → Prop} {a? : Option α} {b? : Option β}
    (h : Option.Rel R a? b?) : (a? = none ∧ b? = none) ∨ ∃ a b, a? = some a ∧ b? = some b ∧ R a b := by
  cases h with
  | none => exact .inl ⟨rfl, rfl⟩
  | some h => exact .inr ⟨_, _, rfl, rfl, h⟩

theorem rel_or {R : α → β → Prop} {a? other? : Option α} {b? other'? : Option β} (h : Option.Rel R a? b?)
    (hother : Option.Rel R other? other'?) : Option.Rel R (a?.or other?) (b?.or other'?) := by
  cases h with
  | none => exact hother
  | some h => exact .some h

section
variable {m n : Matcher} {captures others : Captures}

theorem CapturesAlike.lt_size_iff (h : CapturesAlike m n captures others) {slot : Nat} :
    slot < captures.size ↔ slot < others.size := by
  rw [← Nat.not_le, ← Nat.not_le, ← Array.getElem?_eq_none_iff, ← Array.getElem?_eq_none_iff]
  rcases eq_none_or_eq_some_of_rel (h slot) with ⟨hnone, hnone'⟩ | ⟨held, other, hheld, hother, _⟩
  · rw [hnone, hnone']
  · rw [hheld, hother]
    simp

theorem CapturesAlike.captured? (h : CapturesAlike m n captures others) (slot : Nat) :
    (Matcher.captured? captures slot = .error (.missingCapture slot) ∧
      Matcher.captured? others slot = .error (.missingCapture slot)) ∨
    ∃ held? other?, Matcher.captured? captures slot = .ok held? ∧ Matcher.captured? others slot = .ok other? ∧
      Option.Rel (Captured.Alike m n) held? other? := by
  unfold Matcher.captured?
  rcases eq_none_or_eq_some_of_rel (h slot) with ⟨hnone, hnone'⟩ | ⟨held?, other?, hheld, hother, hrel⟩
  · rw [hnone, hnone']
    exact .inl ⟨rfl, rfl⟩
  · rw [hheld, hother]
    exact .inr ⟨held?, other?, rfl, rfl, hrel⟩

theorem CapturesAlike.replicate (m n : Matcher) (size : Nat) :
    CapturesAlike m n (Array.replicate size none) (Array.replicate size none) := by
  intro slot
  rw [Array.getElem?_replicate]
  split
  · exact .some .none
  · exact .none

theorem CapturesAlike.set (h : CapturesAlike m n captures others) (slot : Nat) {captured other : Captured}
    (hcaptured : captured.Alike m n other) :
    CapturesAlike m n (captures.set! slot (some captured)) (others.set! slot (some other)) := by
  intro place
  simp only [Array.set!_eq_setIfInBounds, Array.getElem?_setIfInBounds, h.lt_size_iff]
  split
  · split
    · exact .some (.some hcaptured)
    · exact .none
  · exact h place

/-- A label that has what a predicate expects has it in both matchers, whatever the captures are compared
with. -/
theorem CapturesAlike.predicateHolds_eq (h : CapturesAlike m n captures others) (kind : LabelKind)
    (label : Label) (predicate : Predicate) :
    m.predicateHolds captures kind label predicate = n.predicateHolds others kind label predicate := by
  unfold Matcher.predicateHolds
  cases predicate.expected with
  | value expected => rfl
  | spanOf name slot =>
    rcases h.captured? slot with ⟨hfault, hfault'⟩ | ⟨held?, other?, hheld, hother, hrel⟩
    · simp only [hfault, hfault']
    · simp only [hheld, hother, bind, Except.bind]
      cases hrel with
      | none => rfl
      | some hcaptured =>
        rcases predicate.read.valueFor? kind label with _ | value
        · rfl
        cases value with
        | span span => simp only [hcaptured.span]
        | _ => rfl
  | readingOf name slot accessor read =>
    rcases h.captured? slot with ⟨hfault, hfault'⟩ | ⟨held?, other?, hheld, hother, hrel⟩
    · simp only [hfault, hfault', bind, Except.bind]
    · simp only [hheld, hother, bind, Except.bind]
      cases hrel with
      | none => rfl
      | some hcaptured =>
        rcases eq_none_or_eq_some_of_rel hcaptured.label with
          ⟨hnone, hnone'⟩ | ⟨ref, ref', href, href', found, hfound, hfound'⟩
        · simp only [Option.bind_some, hnone, hnone']
        · simp only [Option.bind_some, href, href', hfound, hfound']

theorem CapturesAlike.predicatesHold_eq (h : CapturesAlike m n captures others) (kind : LabelKind)
    (label : Label) (predicates : List Predicate) :
    m.predicatesHold captures kind label predicates = n.predicatesHold others kind label predicates := by
  induction predicates with
  | nil => rfl
  | cons predicate rest ih => simp only [Matcher.predicatesHold, h.predicateHolds_eq, ih]

end

section
variable {range : Span} {m n : Matcher} {state other : MatchState}

theorem MatchState.Alike.consume (h : state.Alike range m n other) {ref ref' : LabelRef}
    (href : m.SameLabel n ref ref') {span : Span} (hspan : range.start ≤ span.stop) :
    (state.consume span ref).Alike range m n (other.consume span ref') where
  position := rfl
  anchor := rfl
  begin := by simp only [MatchState.consume, h.begin]
  last := .some href
  start_le := hspan

/-- The start of a capture, or of a condition. -/
theorem MatchState.Alike.fresh (m n : Matcher) {position : Nat} (h : range.start ≤ position) (anchor : Anchor) :
    MatchState.Alike range m n { position, anchor } { position, anchor } :=
  ⟨rfl, rfl, rfl, .none, h⟩

theorem MatchState.Alike.joinCapture (h : state.Alike range m n other) {inner inner' : MatchState}
    (hinner : inner.Alike range m n inner') :
    (Matcher.joinCapture state inner).Alike range m n (Matcher.joinCapture other inner') where
  position := hinner.position
  anchor := hinner.anchor
  begin := by simp only [Matcher.joinCapture, h.begin, hinner.begin]
  last := rel_or hinner.last h.last
  start_le := hinner.start_le

end

theorem FrozenKind.Alike.following_eq {range : Span} {frozen other : FrozenKind} (h : frozen.Alike range other)
    {position limit : Nat} (hposition : range.start ≤ position) (hlimit : limit ≤ range.stop) :
    (frozen.index.following position).filter (fun label => label.span.stop ≤ limit) =
      (other.index.following position).filter fun label => label.span.stop ≤ limit :=
  h.inside.following_eq hposition hlimit

namespace Matcher

/-- The same find inside a range, at a position of its own in each index: a span, and the label there that
ends it. -/
structure SameFind (range : Span) (index other : LabelIndex Label) (find find' : Span × Nat) : Prop where
  span : find.1 = find'.1
  inside : range.contains find.1 = true
  last : ∃ label, index.get? find.2 = some label ∧ other.get? find'.2 = some label ∧
    range.contains label.span = true ∧ find.1.stop = label.span.stop

inductive SameCandidate (range : Span) (index other : LabelIndex Label) :
    Except MatchFault (Span × Nat) → Except MatchFault (Span × Nat) → Prop where
  | fault (fault : MatchFault) : SameCandidate range index other (.error fault) (.error fault)
  | found {find find' : Span × Nat} (h : SameFind range index other find find') :
    SameCandidate range index other (.ok find) (.ok find')

section
variable {range : Span} {m n : Matcher}

theorem Alike.index (h : m.Alike range n) (slot : Nat) :
    (m.index slot = .error (.missingIndex slot) ∧ n.index slot = .error (.missingIndex slot)) ∨
    ∃ frozen other, m.index slot = .ok frozen ∧ n.index slot = .ok other ∧ frozen.Alike range other := by
  unfold Matcher.index
  rcases eq_none_or_eq_some_of_rel (h.indices slot) with ⟨hnone, hnone'⟩ | ⟨frozen, other, hfrozen, hother, hrel⟩
  · rw [hnone, hnone']
    exact .inl ⟨rfl, rfl⟩
  · rw [hfrozen, hother]
    exact .inr ⟨frozen, other, rfl, rfl, hrel⟩

theorem Alike.windowEnd?_eq (h : m.Alike range n) {state other : MatchState} (hstate : state.Alike range m n other)
    (limit : Nat) : m.windowEnd? state limit = n.windowEnd? other limit := by
  simp only [windowEnd?, skipBlanks, h.text, hstate.position, hstate.anchor]

theorem Alike.searchFor_eq (h : m.Alike range n) {state other : MatchState} (hstate : state.Alike range m n other)
    (term : LabelTerm) (seek : Bool) (limit : Nat) :
    m.searchFor term seek limit state = n.searchFor term seek limit other := by
  simp only [searchFor, hstate.anchor, h.windowEnd?_eq hstate]

/-- The candidates of two indices are the same labels if the labels that end within the limit are. -/
theorem sameCandidates {index other : LabelIndex Label} {search : Search} {kind : LabelKind}
    {captures captures' : Captures} (hcaptures : CapturesAlike m n captures captures') (nearest? : Option Nat)
    {labels labels' : List Label} {i j : Nat} (hlabels : labels = index.ascending.drop i)
    (hlabels' : labels' = other.ascending.drop j)
    (hsame : labels.filter (fun label => label.span.stop ≤ search.limit) =
      labels'.filter fun label => label.span.stop ≤ search.limit)
    (hinside : ∀ label ∈ labels, label.span.stop ≤ search.limit → range.contains label.span = true) :
    List.Forall₂ (SameCandidate range index other) (m.candidates search kind captures nearest? i labels)
      (n.candidates search kind captures' nearest? j labels') := by
  generalize hvisible : labels.filter (fun label => label.span.stop ≤ search.limit) = visible at hsame
  induction visible generalizing labels labels' i j nearest? with
  | nil =>
    have hhidden {labels : List Label}
        (h : labels.filter (fun label => label.span.stop ≤ search.limit) = []) :
        ∀ label ∈ labels, search.limit < label.span.stop := by
      simpa [List.filter_eq_nil_iff] using h
    rw [candidates_eq_nil _ _ _ (hhidden hvisible), candidates_eq_nil _ _ _ (hhidden hsame.symm)]
    exact .nil
  | cons label visible ih =>
    -- Both come to the next label within the limit, past labels that the other one need not have.
    obtain ⟨i, rest, heq, hdrop, hsubset, hstop, hrest⟩ :=
      candidates_of_filter_eq_cons m kind captures hlabels hvisible nearest?
    obtain ⟨j, rest', heq', hdrop', _, _, hrest'⟩ :=
      candidates_of_filter_eq_cons n kind captures' hlabels' hsame.symm nearest?
    obtain ⟨hindex, hdrop⟩ := LabelIndex.of_cons_eq_drop hdrop
    obtain ⟨hother, hdrop'⟩ := LabelIndex.of_cons_eq_drop hdrop'
    have hlater (nearest? : Option Nat) := ih nearest? hdrop hdrop'
      (fun label hmem => hinside label (hsubset (List.mem_cons_of_mem _ hmem))) hrest hrest'.symm
    rw [heq, heq', candidates, candidates, if_neg (Nat.not_lt.2 hstop), if_neg (Nat.not_lt.2 hstop),
      hcaptures.predicatesHold_eq]
    split
    · exact .nil
    split
    · exact .cons (.fault _) .nil
    · have hlabel := hinside label (hsubset List.mem_cons_self) hstop
      exact .cons (.found ⟨rfl, hlabel, label, hindex, hother, hlabel, rfl⟩) (hlater _)
    · exact hlater _

theorem alike_firstAccepted {index other : LabelIndex Label} {accepts accepts' : Span → Attempt Captures}
    (haccepts : ∀ span, range.contains span = true →
      Attempt.Alike (CapturesAlike m n) (accepts span) (accepts' span))
    {candidates candidates' : List (Except MatchFault (Span × Nat))}
    (h : List.Forall₂ (SameCandidate range index other) candidates candidates') :
    Attempt.Alike
      (fun taken taken' => SameFind range index other taken.1 taken'.1 ∧ CapturesAlike m n taken.2 taken'.2)
      (firstAccepted accepts candidates) (firstAccepted accepts' candidates') := by
  induction h with
  | nil => exact .failure
  | cons hcandidate _ ih =>
    cases hcandidate with
    | fault fault => exact .fault fault
    | @found find find' h =>
      obtain ⟨span, i⟩ := find
      obtain ⟨span', j⟩ := find'
      cases h.span
      apply Attempt.Alike.orElse _ ih
      apply (haccepts span h.inside).andThen
      intro written written' hwritten
      exact .success ⟨h, hwritten⟩

theorem contains_of_mem_following {index : LabelIndex Label} {limit position : Nat}
    (hlimit : limit ≤ range.stop) (hposition : range.start ≤ position) :
    ∀ label ∈ index.following position, label.span.stop ≤ limit → range.contains label.span = true := by
  intro label hmem hstop
  have hstart : position ≤ label.span.start := LabelIndex.le_start_of_mem_following hmem
  simp only [Span.contains_iff]
  omega

end

section
variable {range : Span} {m n : Matcher} {limit : Nat} {state state' : MatchState} {captures captures' : Captures}

/-- Whatever is consumed inside the range, the match comes to a place inside the range. -/
theorem SameFind.consume {slot : Nat} {frozen other : FrozenKind} (hfrozen : m.index slot = .ok frozen)
    (hother : n.index slot = .ok other) (hrel : frozen.Alike range other)
    (hstate : state.Alike range m n state') {find find' : Span × Nat}
    (h : SameFind range frozen.index other.index find find') :
    (state.consume find.1 ⟨slot, find.2⟩).Alike range m n (state'.consume find'.1 ⟨slot, find'.2⟩) := by
  obtain ⟨label, hlabel, hlabel', hinside, hstop⟩ := h.last
  have href : m.SameLabel n ⟨slot, find.2⟩ ⟨slot, find'.2⟩ :=
    ⟨(frozen.kind, label), label_eq_ok_iff.2 ⟨frozen, index_eq_ok_iff.1 hfrozen, rfl, hlabel⟩,
      label_eq_ok_iff.2 ⟨other, index_eq_ok_iff.1 hother, hrel.kind.symm, hlabel'⟩⟩
  rw [LabelIndex.get?_eq_ascending] at hlabel
  have hproper : label.span.start ≤ label.span.stop :=
    hrel.proper label (List.mem_of_getElem? hlabel) hinside
  simp only [Span.contains_iff] at hinside
  rw [← h.span]
  exact hstate.consume href (hstop ▸ Nat.le_trans hinside.1 hproper)

theorem Alike.evaluateLabel (h : m.Alike range n) (hlimit : limit ≤ range.stop)
    (hstate : state.Alike range m n state') (hcaptures : CapturesAlike m n captures captures')
    {accepts accepts' : Span → Attempt Captures}
    (haccepts : ∀ span, range.contains span = true →
      Attempt.Alike (CapturesAlike m n) (accepts span) (accepts' span))
    (term : LabelTerm) (seek : Bool) :
    Attempt.Alike (Accepted.Alike range m n) (m.evaluateLabel term seek accepts limit state captures)
      (n.evaluateLabel term seek accepts' limit state' captures') := by
  unfold Matcher.evaluateLabel
  rcases h.index term.slot with ⟨hfault, hfault'⟩ | ⟨frozen, other, hfrozen, hother, hrel⟩
  · rw [hfault, hfault']
    exact .fault _
  simp only [hfrozen, hother, ← h.searchFor_eq hstate, ← hrel.kind, ← hstate.position]
  apply (alike_firstAccepted haccepts (sameCandidates hcaptures none (LabelIndex.following_eq_drop _)
    (LabelIndex.following_eq_drop _) (hrel.following_eq hstate.start_le hlimit)
    (contains_of_mem_following hlimit hstate.start_le))).andThen
  intro taken taken' htaken
  exact .success ⟨htaken.1.consume hfrozen hother hrel hstate, htaken.2⟩

/-- The words of a literal are found among the same labels of two indices, counted from the first of these. -/
theorem sameWords {index other : LabelIndex Label} (literal : Literal) (windowEnd? : Option Nat) (more : Nat)
    (kind : LabelKind) {visible hidden hidden' : List Label} {i j : Nat}
    (hlabels : visible ++ hidden = index.ascending.drop i)
    (hlabels' : visible ++ hidden' = other.ascending.drop j)
    (hinside : ∀ label ∈ visible, range.contains label.span = true) :
    Attempt.Alike (SameFind range index other) (pickWords literal windowEnd? limit more kind i visible)
      (pickWords literal windowEnd? limit more kind j visible) := by
  induction visible generalizing i j with
  | nil => exact .failure
  | cons first rest ih =>
    obtain ⟨_, hrest⟩ := LabelIndex.of_cons_eq_drop hlabels
    obtain ⟨_, hrest'⟩ := LabelIndex.of_cons_eq_drop hlabels'
    obtain ⟨hfirst, hinside'⟩ := List.forall_mem_cons.1 hinside
    simp only [pickWords]
    split
    · exact .failure
    split
    · exact .failure
    rename_i last hlast
    split
    · split
      · rename_i span hspan
        obtain ⟨_, rfl⟩ := Span.between_eq_ok_iff.1 hspan
        obtain ⟨hlt, _⟩ := List.getElem?_eq_some_iff.1 hlast
        have hmem := hinside last (List.mem_of_getElem? hlast)
        refine .success ⟨rfl, ?_, last, ?_, ?_, hmem, rfl⟩
        · simp only [Span.contains_iff] at hfirst hmem ⊢
          exact ⟨hfirst.1, hmem.2⟩
        · rw [LabelIndex.get?_eq_ascending, ← List.getElem?_drop, ← hlabels, List.getElem?_append_left hlt]
          exact hlast
        · rw [LabelIndex.get?_eq_ascending, ← List.getElem?_drop, ← hlabels', List.getElem?_append_left hlt]
          exact hlast
      · exact .fault _
    · exact ih hrest hrest' hinside'

/-- Where stops ascend, the words of a literal are found among the labels that end within the limit. -/
theorem alike_pickWords {frozen other : FrozenKind} (hrel : frozen.Alike range other)
    (hstops : frozen.index.StopsAscend) (hstops' : other.index.StopsAscend) (hlimit : limit ≤ range.stop)
    {position : Nat} (hposition : range.start ≤ position) (literal : Literal) (windowEnd? : Option Nat)
    (more : Nat) (kind : LabelKind) :
    Attempt.Alike (SameFind range frozen.index other.index)
      (pickWords literal windowEnd? limit more kind (frozen.index.lowerBound position)
        (frozen.index.following position))
      (pickWords literal windowEnd? limit more kind (other.index.lowerBound position)
        (other.index.following position)) := by
  obtain ⟨hidden, heq, hhidden⟩ := hstops.following_eq position limit
  obtain ⟨hidden', heq', hhidden'⟩ := hstops'.following_eq position limit
  have hinside : ∀ label ∈ (frozen.index.following position).filter (fun label => label.span.stop ≤ limit),
      range.contains label.span = true := by
    intro label hmem
    obtain ⟨hmem, hstop⟩ := List.mem_filter.1 hmem
    exact contains_of_mem_following hlimit hposition label hmem (of_decide_eq_true hstop)
  rw [← hrel.following_eq hposition hlimit] at heq'
  -- The labels within the limit come first, and they are the same in both indices.
  generalize (frozen.index.following position).filter (fun label => label.span.stop ≤ limit) = visible at *
  rw [heq, heq', pickWords_append literal windowEnd? kind hhidden, pickWords_append literal windowEnd? kind hhidden']
  rw [LabelIndex.following_eq_drop] at heq heq'
  exact sameWords literal windowEnd? more kind heq.symm heq'.symm hinside

theorem Alike.evaluateLiteral (h : m.Alike range n) (hlimit : limit ≤ range.stop)
    (hstate : state.Alike range m n state') (hcaptures : CapturesAlike m n captures captures')
    {literal : Literal} (hstops : (Node.literal literal).LiteralAscends m)
    (hstops' : (Node.literal literal).LiteralAscends n) :
    Attempt.Alike (Accepted.Alike range m n) (m.evaluateLiteral literal limit state captures)
      (n.evaluateLiteral literal limit state' captures') := by
  unfold Matcher.evaluateLiteral matchLiteral
  rcases h.index literal.slot with ⟨hfault, hfault'⟩ | ⟨frozen, other, hfrozen, hother, hrel⟩
  · rw [hfault, hfault']
    exact .fault _
  simp only [hfrozen, hother, bind, Except.bind, ← h.windowEnd?_eq hstate, ← hrel.kind, ← hstate.position]
  split
  · exact .fault _
  rename_i more _
  have hpicked := alike_pickWords hrel (hstops frozen hfrozen) (hstops' other hother) hlimit hstate.start_le
    literal (m.windowEnd? state limit) more frozen.kind
  generalize pickWords _ _ _ _ _ (frozen.index.lowerBound _) _ = picked at hpicked ⊢
  generalize pickWords _ _ _ _ _ (other.index.lowerBound _) _ = picked' at hpicked ⊢
  cases hpicked with
  | fault fault => exact .fault fault
  | failure => exact .failure
  | success hfind => exact .success ⟨hfind.consume hfrozen hother hrel hstate, hcaptures⟩

theorem alike_iterate {body body' : MatchState → Captures → Attempt Accepted}
    (hbody : ∀ {state state' captures captures'}, state.Alike range m n state' →
      CapturesAlike m n captures captures' →
      Attempt.Alike (Accepted.Alike range m n) (body state captures) (body' state' captures'))
    (bounded : Bool) (more : Nat) (hstate : state.Alike range m n state')
    (hcaptures : CapturesAlike m n captures captures') :
    Attempt.Alike (fun last last' => last.1 = last'.1 ∧ last.2.Alike range m n last'.2)
      (iterate body bounded more state captures) (iterate body' bounded more state' captures') := by
  induction more generalizing state state' captures captures' with
  | zero =>
    cases bounded with
    | true => exact .success ⟨rfl, hstate, hcaptures⟩
    | false =>
      apply ((hbody hstate hcaptures).andThen fun _ _ _ => .fault .endless).orElse
      exact .success ⟨rfl, hstate, hcaptures⟩
  | succ more ih =>
    have hnext := hbody hstate hcaptures
    simp only [iterate]
    generalize body state captures = attempt at hnext ⊢
    generalize body' state' captures' = attempt' at hnext ⊢
    cases hnext with
    | fault fault => exact .fault fault
    | failure => exact .success ⟨rfl, hstate, hcaptures⟩
    | @success next next' h =>
      have hstalled : stalled state next.state = stalled state' next'.state := by
        simp only [stalled, h.state.position, h.state.begin, h.state.anchor, hstate.position, hstate.begin,
          hstate.anchor]
      simp only [afterIteration, ← hstalled]
      split
      · exact .success ⟨rfl, h⟩
      · apply (ih h.state h.captures).andThen
        intro last last' hlast
        exact .success ⟨congrArg (· + 1) hlast.1, hlast.2.state, hlast.2.captures⟩

theorem alike_writeCapture (slot : Nat) (hstate : state.Alike range m n state') {inner inner' : Accepted}
    (h : inner.Alike range m n inner') :
    Attempt.Alike (Accepted.Alike range m n) (writeCapture slot state inner) (writeCapture slot state' inner') := by
  have hjoin := hstate.joinCapture h.state
  simp only [writeCapture, ← h.state.begin, ← h.state.position, ← h.captures.lt_size_iff]
  split
  · exact .success ⟨hjoin, h.captures⟩
  split
  · exact .fault _
  split
  · exact .success ⟨hjoin, h.captures.set slot ⟨rfl, h.state.last⟩⟩
  · exact .fault _

theorem alike_lookAround {attempt attempt' : Attempt Accepted}
    (h : Attempt.Alike (Accepted.Alike range m n) attempt attempt') (negated : Bool)
    (hstate : state.Alike range m n state') (hcaptures : CapturesAlike m n captures captures') :
    Attempt.Alike (Accepted.Alike range m n) (lookAround negated state captures attempt)
      (lookAround negated state' captures' attempt') := by
  cases h with
  | fault fault => exact .fault fault
  | failure =>
    cases negated with
    | false => exact .failure
    | true => exact .success ⟨hstate, hcaptures⟩
  | success h =>
    cases negated with
    | false => exact .success ⟨hstate, h.captures⟩
    | true => exact .failure

/-- Attempts to match a node, from wherever two matches stand alike, within any limit inside the range. -/
def AlikeAt (range : Span) (m n : Matcher) (node : Node) : Prop :=
  ∀ limit ≤ range.stop, ∀ state state' captures captures', state.Alike range m n state' →
    CapturesAlike m n captures captures' →
      Attempt.Alike (Accepted.Alike range m n) (m.evaluate limit node state captures)
        (n.evaluate limit node state' captures')

theorem alike_evaluateAll {nodes : List Node} (hnodes : ∀ node ∈ nodes, AlikeAt range m n node)
    (hlimit : limit ≤ range.stop) (hstate : state.Alike range m n state')
    (hcaptures : CapturesAlike m n captures captures') :
    Attempt.Alike (Accepted.Alike range m n) (m.evaluateAll limit nodes state captures)
      (n.evaluateAll limit nodes state' captures') := by
  induction nodes generalizing state state' captures captures' with
  | nil => exact .success ⟨hstate, hcaptures⟩
  | cons node rest ih =>
    obtain ⟨hnode, hrest⟩ := List.forall_mem_cons.1 hnodes
    apply (hnode limit hlimit _ _ _ _ hstate hcaptures).andThen
    intro found found' hfound
    apply (ih hrest hfound.state hfound.captures).andThen
    intro last last' hlast
    exact .success ⟨hlast.state, hlast.captures⟩

theorem alike_evaluateFirst {nodes : List Node} (hnodes : ∀ node ∈ nodes, AlikeAt range m n node)
    (hlimit : limit ≤ range.stop) (hstate : state.Alike range m n state')
    (hcaptures : CapturesAlike m n captures captures') :
    Attempt.Alike (Accepted.Alike range m n) (m.evaluateFirst limit nodes state captures)
      (n.evaluateFirst limit nodes state' captures') := by
  induction nodes with
  | nil => exact .failure
  | cons node rest ih =>
    obtain ⟨hnode, hrest⟩ := List.forall_mem_cons.1 hnodes
    exact (hnode limit hlimit _ _ _ _ hstate hcaptures).orElse (ih hrest)

theorem alike_evaluateConditions {nodes : List Node} (hnodes : ∀ node ∈ nodes, AlikeAt range m n node)
    {span : Span} (hspan : range.contains span = true) (exact : Bool)
    (hcaptures : CapturesAlike m n captures captures') :
    Attempt.Alike (CapturesAlike m n) (m.evaluateConditions span exact nodes captures)
      (n.evaluateConditions span exact nodes captures') := by
  simp only [Span.contains_iff] at hspan
  induction nodes generalizing captures captures' with
  | nil => exact .success hcaptures
  | cons node rest ih =>
    obtain ⟨hnode, hrest⟩ := List.forall_mem_cons.1 hnodes
    apply (hnode span.stop hspan.2 _ _ _ _ (.fresh m n hspan.1 .free) hcaptures).andThen
    intro inner inner' hinner
    have hfits : fits span exact inner = fits span exact inner' := by
      simp only [fits, hinner.state.begin, hinner.state.position]
    rw [← hfits]
    split
    · exact ih hrest hinner.captures
    · exact .failure

/-- Inside a range, the labels outside of it and across its borders make no difference to a node. -/
theorem Alike.alikeAt (h : m.Alike range n) {node : Node} (hstops : node.All (Node.LiteralAscends m))
    (hstops' : node.All (Node.LiteralAscends n)) : AlikeAt range m n node := by
  -- No match falls behind the start of the range, and no limit exceeds its end: conditions are tried inside a
  -- label that lies inside the range itself.
  induction node with
  | sequence elements ih =>
    intro limit hlimit state state' captures captures' hstate hcaptures
    simp only [evaluate]
    apply alike_evaluateAll (fun node hmem => ih node hmem ?_ ?_) hlimit hstate hcaptures
    · exact (Node.all_iff.1 hstops).2 node hmem
    · exact (Node.all_iff.1 hstops').2 node hmem
  | alternation alternatives ih =>
    intro limit hlimit state state' captures captures' hstate hcaptures
    simp only [evaluate]
    apply alike_evaluateFirst (fun node hmem => ih node hmem ?_ ?_) hlimit hstate hcaptures
    · exact (Node.all_iff.1 hstops).2 node hmem
    · exact (Node.all_iff.1 hstops').2 node hmem
  | adjacent =>
    intro limit _ state state' captures captures' hstate hcaptures
    exact .success ⟨⟨hstate.position, rfl, hstate.begin, hstate.last, hstate.start_le⟩, hcaptures⟩
  | repetition body minimum maximum? ih =>
    have hbody := ih ((Node.all_iff.1 hstops).2 body List.mem_cons_self)
      ((Node.all_iff.1 hstops').2 body List.mem_cons_self)
    intro limit hlimit state state' captures captures' hstate hcaptures
    simp only [evaluate, ← h.repetitionLimit]
    apply (alike_iterate (hbody limit hlimit _ _ _ _) _ _ hstate hcaptures).andThen
    intro last last' hlast
    rw [← hlast.1]
    split
    · exact .success hlast.2
    · exact .failure
  | capture slot body ih =>
    have hbody := ih ((Node.all_iff.1 hstops).2 body List.mem_cons_self)
      ((Node.all_iff.1 hstops').2 body List.mem_cons_self)
    intro limit hlimit state state' captures captures' hstate hcaptures
    have hfresh : MatchState.Alike range m n { state with begin? := none, last? := none }
        { state' with begin? := none, last? := none } :=
      ⟨hstate.position, hstate.anchor, rfl, .none, hstate.start_le⟩
    simp only [evaluate]
    apply (hbody limit hlimit _ _ _ _ hfresh hcaptures).andThen
    intro inner inner' hinner
    exact alike_writeCapture slot hstate hinner
  | lookahead body negated ih =>
    have hbody := ih ((Node.all_iff.1 hstops).2 body List.mem_cons_self)
      ((Node.all_iff.1 hstops').2 body List.mem_cons_self)
    intro limit hlimit state state' captures captures' hstate hcaptures
    simp only [evaluate]
    exact alike_lookAround (hbody limit hlimit _ _ _ _ hstate hcaptures) negated hstate hcaptures
  | label term =>
    intro limit hlimit state state' captures captures' hstate hcaptures
    simp only [evaluate]
    exact h.evaluateLabel hlimit hstate hcaptures (fun _ _ => .success hcaptures) term false
  | pinned term seek exact conditions ih =>
    intro limit hlimit state state' captures captures' hstate hcaptures
    simp only [evaluate]
    apply h.evaluateLabel hlimit hstate hcaptures
    intro span hspan
    apply alike_evaluateConditions (fun node hmem => ih node hmem ?_ ?_) hspan exact hcaptures
    · exact (Node.all_iff.1 hstops).2 node hmem
    · exact (Node.all_iff.1 hstops').2 node hmem
  | literal literal =>
    intro limit hlimit state state' captures captures' hstate hcaptures
    simp only [evaluate]
    exact h.evaluateLiteral hlimit hstate hcaptures (hstops _ .refl) (hstops' _ .refl)

end

end Matcher

end TextAnnotation.Pattern
