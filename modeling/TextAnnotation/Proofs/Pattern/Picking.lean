import TextAnnotation.Proofs.Pattern.Safety
import TextAnnotation.Proofs.Pattern.Window

/-!
Which label a term takes. The scan for it begins at a lower bound, breaks off early and notes the nearest
start on its way. It comes to what a look at every label of the index comes to.
-/

namespace TextAnnotation.Pattern

/-- What a node asks of the one label that it takes. -/
structure Pin where
  term : LabelTerm
  seek : Bool
  exact : Bool
  conditions : List Node

def Node.pin? : Node → Option Pin
  | .label term => some ⟨term, false, false, []⟩
  | .pinned term seek exact conditions => some ⟨term, seek, exact, conditions⟩
  | _ => none

/-- A look for a label among the frozen labels of its kind. -/
structure Look where
  pin : Pin
  frozen : FrozenKind
  limit : Nat
  state : MatchState
  captures : Captures

/-- Whether labels after the nearest ones are considered. -/
def Look.seeks (look : Look) : Bool := look.pin.seek || look.state.anchor != .free

/-- The state and the captures that a pick leads to. -/
def Look.outcome (look : Look) (picked : Except MatchFault (Option (Span × Nat) × Captures)) : Outcome :=
  picked.map fun (picked?, captures) =>
    (picked?.map fun (span, position) => look.state.consume span ⟨look.pin.term.slot, position⟩, captures)

namespace Matcher

/-- Conditions that match inside a span one after the other, exact ones from end to end. -/
inductive Meets (m : Matcher) (span : Span) (exact : Bool) : List Node → Captures → Captures → Prop where
  | nil (captures : Captures) : Meets m span exact [] captures captures
  | cons {condition : Node} {rest : List Node} {inner : MatchState} {captures between written : Captures}
    (hcondition : m.matchNode span.stop condition { position := span.start, anchor := .free } captures =
      .ok (some inner, between))
    (hexact : exact = true → inner.begin? = some span.start ∧ inner.position = span.stop)
    (hrest : Meets m span exact rest between written) : Meets m span exact (condition :: rest) captures written

section
variable (m : Matcher) (look : Look)

structure InReach (label : Label) : Prop where
  follows : look.state.position ≤ label.span.start
  start_le : label.span.start ≤ look.limit
  inWindow : m.InWindow look.state look.limit label.span.start
  stop_le : label.span.stop ≤ look.limit

def Satisfies (label : Label) : Prop :=
  ∀ predicate ∈ look.pin.term.predicates,
    m.predicateHolds look.captures look.frozen.kind label predicate = .ok true

/-- The starts of the labels in reach that have what all predicates expect. -/
def suitableStarts : Set Nat :=
  {start | ∃ label ∈ look.frozen.index.ascending,
    m.InReach look label ∧ m.Satisfies look label ∧ label.span.start = start}

/-- A label that a term may take as far as spans tell. Under a free anchor a term that does not seek looks at the
nearest labels only. -/
structure Considers (position : Nat) (label : Label) : Prop where
  get?_eq : look.frozen.index.get? position = some label
  inReach : m.InReach look label
  nearest : look.pin.seek = false → look.state.anchor = .free →
    label.span.start ∈ lowerBounds (m.suitableStarts look)

/-- What the trial of a label comes to, unless it is passed over: the label is taken, with the captures that its
conditions have written, or something breaks. -/
inductive Answers (label : Label) : Except MatchFault Captures → Prop where
  | taken {written : Captures} (hsatisfies : m.Satisfies look label)
    (hmeets : m.Meets label.span look.pin.exact look.pin.conditions look.captures written) :
    Answers label (.ok written)
  | predicateBreaks {fault : MatchFault}
    (h : m.predicatesHold look.captures look.frozen.kind label look.pin.term.predicates = .error fault) :
    Answers label (.error fault)
  | conditionBreaks {fault : MatchFault} (hsatisfies : m.Satisfies look label)
    (h : m.conditionsHold label.span look.pin.exact look.pin.conditions look.captures = .error fault) :
    Answers label (.error fault)

/-- What the match comes to if no earlier label is taken. -/
def SettledAt (position : Nat) (outcome : Outcome) : Prop :=
  ∃ label answer, m.Considers look position label ∧ m.Answers look label answer ∧
    outcome = answer.map fun written =>
      (some (look.state.consume label.span ⟨look.pin.term.slot, position⟩), written)

end

theorem conditionsHold_eq_true_iff {m : Matcher} {span : Span} {exact : Bool} {conditions : List Node}
    {captures written : Captures} :
    m.conditionsHold span exact conditions captures = .ok (true, written) ↔
      m.Meets span exact conditions captures written := by
  induction conditions generalizing captures with
  | nil =>
    constructor
    · intro h
      cases h
      exact .nil written
    · intro h
      cases h
      rfl
  | cons condition rest ih =>
    simp only [conditionsHold]
    constructor
    · intro h
      rcases hcondition : m.matchNode span.stop condition { position := span.start, anchor := .free } captures
        with fault | ⟨_ | inner, between⟩
      · rw [hcondition] at h
        cases h
      · rw [hcondition] at h
        cases h
      simp only [hcondition, bind, Except.bind] at h
      split at h
      · rename_i hfits
        apply Meets.cons hcondition _ (ih.1 h)
        intro hexact
        simpa [hexact] using hfits
      · cases h
    · intro h
      cases h with
      | cons hcondition hexact hrest =>
        simp only [hcondition, bind, Except.bind]
        rw [if_pos]
        · exact ih.2 hrest
        · cases exact with
          | false => rfl
          | true => simpa using hexact rfl

theorem predicatesHold_eq_true_iff {m : Matcher} {captures : Captures} {kind : LabelKind} {label : Label}
    {predicates : List Predicate} :
    m.predicatesHold captures kind label predicates = .ok true ↔
      ∀ predicate ∈ predicates, m.predicateHolds captures kind label predicate = .ok true := by
  induction predicates with
  | nil => simp [predicatesHold]
  | cons predicate rest ih =>
    rw [List.forall_mem_cons, ← ih, predicatesHold]
    rcases m.predicateHolds captures kind label predicate with fault | _ | _
    · simp [bind, Except.bind]
    · simp [bind, Except.bind, pure, Except.pure]
    · simp [bind, Except.bind]

section
variable {m : Matcher} {look : Look} {label : Label}

def trial (m : Matcher) (look : Look) (label : Label) : Except MatchFault (Bool × Captures) := do
  if ← m.predicatesHold look.captures look.frozen.kind label look.pin.term.predicates then
    m.conditionsHold label.span look.pin.exact look.pin.conditions look.captures
  else return (false, look.captures)

theorem answers_iff {result : Except MatchFault Captures} :
    m.Answers look label result ↔ m.trial look label = result.map (Prod.mk true) := by
  constructor
  · intro h
    cases h with
    | taken hsatisfies hmeets =>
      rw [trial, predicatesHold_eq_true_iff.2 hsatisfies]
      exact conditionsHold_eq_true_iff.2 hmeets
    | predicateBreaks h =>
      rw [trial, h]
      rfl
    | conditionBreaks hsatisfies h =>
      rw [trial, predicatesHold_eq_true_iff.2 hsatisfies]
      exact h
  · intro h
    rw [trial] at h
    rcases hpredicates : m.predicatesHold look.captures look.frozen.kind label look.pin.term.predicates
      with fault | _ | _
    · rw [hpredicates] at h
      cases result with
      | error other => cases h; exact .predicateBreaks hpredicates
      | ok written => cases h
    · rw [hpredicates] at h
      cases result with
      | error other => cases h
      | ok written => cases h
    · rw [hpredicates] at h
      have hsatisfies : m.Satisfies look label := predicatesHold_eq_true_iff.1 hpredicates
      cases result with
      | error other => exact .conditionBreaks hsatisfies h
      | ok written => exact .taken hsatisfies (conditionsHold_eq_true_iff.1 h)

theorem Answers.unique {result other : Except MatchFault Captures} (h : m.Answers look label result)
    (hother : m.Answers look label other) : result = other := by
  have heq := (answers_iff.1 h).symm.trans (answers_iff.1 hother)
  cases result with
  | error fault => cases other <;> cases heq; rfl
  | ok written => cases other <;> cases heq; rfl

theorem not_answers_of_predicatesHold
    (h : m.predicatesHold look.captures look.frozen.kind label look.pin.term.predicates = .ok false)
    (result : Except MatchFault Captures) : ¬ m.Answers look label result := by
  rw [answers_iff, trial, h]
  cases result <;> simp [bind, Except.bind, pure, Except.pure, Except.map]

theorem not_answers_of_conditionsHold {left : Captures} (hsatisfies : m.Satisfies look label)
    (h : m.conditionsHold label.span look.pin.exact look.pin.conditions look.captures = .ok (false, left))
    (result : Except MatchFault Captures) : ¬ m.Answers look label result := by
  rw [answers_iff, trial, predicatesHold_eq_true_iff.2 hsatisfies]
  cases result <;> simp [bind, Except.bind, h, Except.map]

theorem settledAt_unique {position : Nat} {outcome other : Outcome} (h : m.SettledAt look position outcome)
    (hother : m.SettledAt look position other) : outcome = other := by
  obtain ⟨label, answer, hconsiders, hanswer, rfl⟩ := h
  obtain ⟨label', answer', hconsiders', hanswer', rfl⟩ := hother
  cases hconsiders.get?_eq.symm.trans hconsiders'.get?_eq
  rw [hanswer.unique hanswer']

/-- Where the label at a position is passed over, nothing is settled. -/
theorem not_settledAt {position : Nat} (hget : look.frozen.index.get? position = some label)
    (h : m.Considers look position label → ∀ answer, ¬ m.Answers look label answer) (outcome : Outcome) :
    ¬ m.SettledAt look position outcome := by
  rintro ⟨other, answer, hconsiders, hanswer, _⟩
  cases hget.symm.trans hconsiders.get?_eq
  exact h hconsiders answer hanswer

/-! The scan notes a start when it comes to the first label with all predicates. That is the least suitable
start, since starts ascend. -/

/-- What the start that is noted, or not, says about the labels before a position. -/
structure Noted (m : Matcher) (look : Look) (nearest? : Option Nat) (position : Nat) : Prop where
  seeking : look.seeks = true → nearest? = none
  least : ∀ start, nearest? = some start → IsLeast (m.suitableStarts look) start
  unsuitable : look.seeks = false → nearest? = none → ∀ earlier label, earlier < position →
    look.frozen.index.get? earlier = some label → m.InReach look label → ¬ m.Satisfies look label

theorem seeks_eq_false_iff : look.seeks = false ↔ look.pin.seek = false ∧ look.state.anchor = .free := by
  simp [Look.seeks]

/-- Whether the scan breaks off at a label that starts at `start`. -/
def closes (m : Matcher) (look : Look) (nearest? : Option Nat) (start : Nat) : Bool :=
  look.limit < start || (m.windowEnd? look.state look.limit).any (· < start) || nearest?.any (· < start)

section
variable {nearest? : Option Nat} {position : Nat}

theorem noted_lowerBound : m.Noted look none (look.frozen.index.lowerBound look.state.position) where
  seeking _ := rfl
  least _ h := nomatch h
  unsuitable _ _ earlier label hlt hget hreach := by
    exact absurd hreach.follows (Nat.not_le.2 (LabelIndex.start_lt_of_lt_lowerBound hget hlt))

theorem Noted.pass (h : m.Noted look nearest? position) (hget : look.frozen.index.get? position = some label)
    (hlabel : m.InReach look label → ¬ m.Satisfies look label) : m.Noted look nearest? (position + 1) where
  seeking := h.seeking
  least := h.least
  unsuitable hseeks hnearest earlier other hlt hother := by
    rcases Nat.lt_succ_iff_lt_or_eq.1 hlt with hlt | rfl
    · exact h.unsuitable hseeks hnearest earlier other hlt hother
    · cases hget.symm.trans hother
      exact hlabel

/-- No suitable label starts before one at which nothing is noted yet. -/
theorem Noted.le_suitable (h : m.Noted look none position) (hseeks : look.seeks = false)
    (hget : look.frozen.index.get? position = some label) :
    label.span.start ∈ lowerBounds (m.suitableStarts look) := by
  rintro start ⟨other, hmem, hreach, hsatisfies, rfl⟩
  obtain ⟨later, hlater⟩ := List.getElem?_of_mem hmem
  rw [← LabelIndex.get?_eq_ascending] at hlater
  rcases Nat.lt_or_ge later position with hlt | hle
  · exact absurd hsatisfies (h.unsuitable hseeks rfl later other hlt hlater hreach)
  · exact LabelIndex.start_le_start hget hlater hle

theorem Noted.note (h : m.Noted look nearest? position) (hget : look.frozen.index.get? position = some label)
    (hreach : m.InReach look label) (hsatisfies : m.Satisfies look label) :
    m.Noted look (if look.seeks then none else nearest?.or (some label.span.start)) (position + 1) := by
  cases hseeks : look.seeks with
  | true =>
    constructor
    · exact fun _ => rfl
    · exact nofun
    · intro hnot
      cases hseeks.symm.trans hnot
  | false =>
    constructor
    · intro hnot
      cases hseeks.symm.trans hnot
    · intro start hstart
      cases nearest? with
      | none =>
        cases hstart
        exact ⟨⟨label, LabelIndex.mem_of_get? hget, hreach, hsatisfies, rfl⟩, h.le_suitable hseeks hget⟩
      | some noted => exact h.least start hstart
    · intro _ hnone
      cases nearest? <;> cases hnone

/-- Where the scan breaks off, no label is left that is considered. -/
theorem Noted.not_considers (h : m.Noted look nearest? position)
    (hget : look.frozen.index.get? position = some label) (hcloses : m.closes look nearest? label.span.start = true)
    {later : Nat} {other : Label} (hle : position ≤ later) : ¬ m.Considers look later other := by
  intro hconsiders
  have hreach := hconsiders.inReach
  have hstart : label.span.start ≤ other.span.start := LabelIndex.start_le_start hget hconsiders.get?_eq hle
  rw [closes, within_of_le hstart hreach.follows hreach.start_le hreach.inWindow, Bool.false_or] at hcloses
  obtain ⟨start, rfl, hlt⟩ := (Option.any_eq_true _ _).1 hcloses
  have hseeks : look.seeks = false := by
    rw [Bool.eq_false_iff]
    intro hseeks
    cases h.seeking hseeks
  obtain ⟨hseek, hfree⟩ := seeks_eq_false_iff.1 hseeks
  have hnear := hconsiders.nearest hseek hfree (h.least start rfl).1
  exact absurd (Nat.le_trans hstart hnear) (Nat.not_le.2 (of_decide_eq_true hlt))

/-- Before that, a label that ends in time is considered. -/
theorem Noted.considers (h : m.Noted look nearest? position) (hget : look.frozen.index.get? position = some label)
    (hfollows : look.state.position ≤ label.span.start) (hopen : ¬ m.closes look nearest? label.span.start = true)
    (hstop : label.span.stop ≤ look.limit) : m.Considers look position label := by
  simp only [closes, Bool.or_eq_true, decide_eq_true_eq, not_or, Bool.not_eq_true, Nat.not_lt] at hopen
  obtain ⟨⟨hlimit, hwindow⟩, hnearest⟩ := hopen
  have hreach : m.InReach look label := ⟨hfollows, hlimit, (inWindow_iff hfollows).2 hwindow, hstop⟩
  apply Considers.mk hget hreach
  intro hseek hfree
  cases nearest? with
  | none => exact h.le_suitable (seeks_eq_false_iff.2 ⟨hseek, hfree⟩) hget
  | some start =>
    intro other hother
    have hle := (h.least start rfl).2 hother
    simp only [Option.any_some, decide_eq_false_iff_not, Nat.not_lt] at hnearest
    exact Nat.le_trans hnearest hle

end

def scan (m : Matcher) (look : Look) (nearest? : Option Nat) (position : Nat) (labels : List Label) :
    Except MatchFault (Option (Span × Nat) × Captures) :=
  m.pick (m.searchFor look.pin.term look.pin.seek look.limit look.state) look.frozen.kind
    (fun span captures => m.conditionsHold span look.pin.exact look.pin.conditions captures) nearest? position labels
    look.captures

theorem scan_cons (m : Matcher) (look : Look) (nearest? : Option Nat) (position : Nat) (label : Label)
    (rest : List Label) :
    m.scan look nearest? position (label :: rest) =
      if m.closes look nearest? label.span.start then .ok (none, look.captures)
      else if look.limit < label.span.stop then m.scan look nearest? (position + 1) rest
      else (do
        if ← m.predicatesHold look.captures look.frozen.kind label look.pin.term.predicates then
          let (met, written) ← m.conditionsHold label.span look.pin.exact look.pin.conditions look.captures
          if met then return (some (label.span, position), written)
          else m.scan look (if look.seeks then none else nearest?.or (some label.span.start)) (position + 1) rest
        else m.scan look nearest? (position + 1) rest) := by
  rw [scan, pick]
  rfl

/-- From where a scan has come to, it settles what the first of the labels that are left settles. -/
theorem firstFrom_scan {nearest? : Option Nat} {position : Nat} (hnoted : m.Noted look nearest? position)
    {labels : List Label} (hlabels : labels = look.frozen.index.ascending.drop position)
    (hfollows : ∀ label ∈ labels, look.state.position ≤ label.span.start) :
    FirstFrom (m.SettledAt look) (.ok (none, look.captures)) position
      (look.outcome (m.scan look nearest? position labels)) := by
  -- What has been noted tells which of the labels that are left are considered, so it is kept along the way.
  induction labels generalizing nearest? position with
  | nil =>
    apply FirstFrom.nowhere
    rintro later _ hle ⟨label, _, hconsiders, _⟩
    have hnone := LabelIndex.get?_eq_none_of_le (LabelIndex.get?_eq_none_of_drop_eq_nil hlabels) hle
    cases hconsiders.get?_eq.symm.trans hnone
  | cons label rest ih =>
    obtain ⟨hget, hrest⟩ := LabelIndex.of_cons_eq_drop hlabels
    obtain ⟨hfollows, hlater⟩ := List.forall_mem_cons.1 hfollows
    have hpass {nearest? : Option Nat} (hnoted : m.Noted look nearest? (position + 1))
        (hlabel : m.Considers look position label → ∀ answer, ¬ m.Answers look label answer) :
        FirstFrom (m.SettledAt look) (.ok (none, look.captures)) position
          (look.outcome (m.scan look nearest? (position + 1) rest)) :=
      (ih hnoted hrest hlater).next (not_settledAt hget hlabel)
    rw [scan_cons]
    split
    · rename_i hcloses
      apply FirstFrom.nowhere
      rintro later _ hle ⟨other, _, hconsiders, _⟩
      exact hnoted.not_considers hget hcloses hle hconsiders
    rename_i hopen
    split
    · rename_i hstop
      have hout (hreach : m.InReach look label) : False := absurd hreach.stop_le (Nat.not_le.2 hstop)
      apply hpass (hnoted.pass hget fun hreach => (hout hreach).elim)
      exact fun hconsiders => (hout hconsiders.inReach).elim
    rename_i hstop
    have hconsiders := hnoted.considers hget hfollows hopen (Nat.le_of_not_lt hstop)
    rcases hpredicates : m.predicatesHold look.captures look.frozen.kind label look.pin.term.predicates
      with fault | _ | _
    · exact .here ⟨label, _, hconsiders, .predicateBreaks hpredicates, rfl⟩
    · have hunsatisfied : ¬ m.Satisfies look label := by
        intro hsatisfies
        cases hpredicates.symm.trans (predicatesHold_eq_true_iff.2 hsatisfies)
      exact hpass (hnoted.pass hget fun _ => hunsatisfied) fun _ => not_answers_of_predicatesHold hpredicates
    have hsatisfies : m.Satisfies look label := predicatesHold_eq_true_iff.1 hpredicates
    rcases hconditions : m.conditionsHold label.span look.pin.exact look.pin.conditions look.captures
      with fault | ⟨_ | _, written⟩
    · exact .here ⟨label, _, hconsiders, .conditionBreaks hsatisfies hconditions, rfl⟩
    · apply hpass (hnoted.note hget hconsiders.inReach hsatisfies)
      exact fun _ => not_answers_of_conditionsHold hsatisfies hconditions
    · have hmeets := conditionsHold_eq_true_iff.1 hconditions
      exact .here ⟨label, _, hconsiders, .taken hsatisfies hmeets, rfl⟩

/-- The labels from the lower bound on are all that may be considered. -/
theorem firstFrom_scan_following (m : Matcher) (look : Look) :
    FirstFrom (m.SettledAt look) (.ok (none, look.captures)) 0
      (look.outcome (m.scan look none (look.frozen.index.lowerBound look.state.position)
        (look.frozen.index.following look.state.position))) := by
  have hscan := firstFrom_scan (noted_lowerBound (m := m)) (look.frozen.index.following_eq_drop look.state.position)
    fun label hmem => LabelIndex.le_start_of_mem_following hmem
  apply hscan.widen (Nat.zero_le _)
  rintro earlier _ _ hlt ⟨label, _, hconsiders, _⟩
  have hbefore := LabelIndex.start_lt_of_lt_lowerBound hconsiders.get?_eq hlt
  exact absurd hconsiders.inReach.follows (Nat.not_le.2 hbefore)

theorem matchLabel_eq_scan (hfrozen : m.indices[look.pin.term.slot]? = some look.frozen) :
    m.matchLabel look.pin.term look.pin.seek
        (fun span captures => m.conditionsHold span look.pin.exact look.pin.conditions captures) look.limit look.state
        look.captures =
      look.outcome (m.scan look none (look.frozen.index.lowerBound look.state.position)
        (look.frozen.index.following look.state.position)) := by
  have hindex : m.index look.pin.term.slot = .ok look.frozen := by rw [index, hfrozen]
  simp only [matchLabel, hindex, bind, Except.bind, scan, searchFor]
  generalize m.pick _ _ _ _ _ _ _ = picked
  cases picked <;> rfl

theorem matchNode_eq_scan {node : Node} (hpin : node.pin? = some look.pin)
    (hfrozen : m.indices[look.pin.term.slot]? = some look.frozen) :
    m.matchNode look.limit node look.state look.captures =
      look.outcome (m.scan look none (look.frozen.index.lowerBound look.state.position)
        (look.frozen.index.following look.state.position)) := by
  rw [← matchLabel_eq_scan hfrozen]
  cases node with
  -- A term without conditions is one of which there are none to meet.
  | label term =>
    rw [← Option.some.inj hpin, matchNode]
    rfl
  | pinned term seek exact conditions => rw [← Option.some.inj hpin, matchNode]
  | _ => cases hpin

/-- A term takes the first label of the index that is within its reach and meets all it asks for, and fails if there
is none. All that may keep it from an answer, where the pattern was parsed and labels are proper, is a repetition
without end. -/
theorem matchNode_eq_iff_settled {node : Node} (hpin : node.pin? = some look.pin)
    (hfrozen : m.indices[look.pin.term.slot]? = some look.frozen) :
    (∀ outcome, m.matchNode look.limit node look.state look.captures = outcome ↔
      FirstFrom (m.SettledAt look) (.ok (none, look.captures)) 0 outcome) ∧
    ∀ table scope, m.Indexes scope.kinds → m.Proper →
      Task.Sound table scope m ⟨look.limit, node, look.state, look.captures⟩ →
      ∀ fault, m.matchNode look.limit node look.state look.captures = .error fault → fault = .endless := by
  have hscan := firstFrom_scan_following m look
  rw [← matchNode_eq_scan hpin hfrozen] at hscan
  constructor
  · intro outcome
    constructor
    · rintro rfl
      exact hscan
    · exact hscan.unique fun position a b => settledAt_unique
  · exact fun table scope hm hproper htask fault hfault => eq_endless_of_matchNode hm hproper htask hfault

end

end Matcher

namespace Searcher

def verseAliases : AliasTable :=
  (AliasTable.register ⟨.empty, none⟩ "Verse" { name := "Verse" } []).register "Word" { name := "Word" } []

def verseNode : Node :=
  .pinned ⟨"Verse", 0, []⟩ false true [.sequence [.label ⟨"Word", 1, []⟩, .label ⟨"Word", 1, []⟩]]

def versePattern : Pattern where
  source := "[!Verse Word Word]"
  root := verseNode
  kinds := [{ name := "Verse" }, { name := "Word" }]
  captureNames := []

def verseTree : Grammar.Alternation :=
  .last (.last (.item none (.pinned [.exact] none ⟨"Verse", none⟩
    (some (.last (.last (.next (.ofAlias "Word") (.last (.ofAlias "Word"))))))) none))

/-- Two verses that begin together, and two words of which the shorter one has but one. -/
def verseView : View where
  name := "verses"
  text := "to be"
  labelers := [
    ({ name := "Verse" }, .collecting #[⟨⟨0, 5⟩, .empty⟩, ⟨⟨0, 2⟩, .empty⟩]),
    ({ name := "Word" }, .collecting #[⟨⟨0, 2⟩, .empty⟩, ⟨⟨3, 5⟩, .empty⟩])]

def verseSearcher : Searcher := (verseView.searcherIn versePattern ⟨0, 5⟩).1

def verseLook : Look where
  pin := ⟨⟨"Verse", 0, []⟩, false, true, [.sequence [.label ⟨"Word", 1, []⟩, .label ⟨"Word", 1, []⟩]]⟩
  frozen := ⟨{ name := "Verse" }, (verseView.freeze { name := "Verse" }).1⟩
  limit := 5
  state := { position := 0, anchor := .start }
  captures := #[]

theorem verseView_proper : verseView.Proper := by
  simp [View.Proper, View.All, verseView, Labeler.All, Label.Proper]

theorem sound_verses : ∃ scope, verseSearcher.matcher.Indexes scope.kinds ∧
    Task.Sound verseAliases scope verseSearcher.matcher ⟨5, verseNode, verseLook.state, #[]⟩ := by
  have hparse : parse verseAliases "[!Verse Word Word]" = .ok versePattern :=
    parse_of_meaning verseTree (by decide +kernel) rfl
  obtain ⟨scope, _, hkinds, hnames, hroot⟩ := resolved_of_parse hparse
  have hsound := sound_searcherIn hkinds hnames hroot verseView ⟨0, 5⟩
  exact ⟨scope, hsound.indexes, hroot, sound_noCaptures hnames _⟩

/-- The shorter verse comes first and is passed over. -/
theorem matchNode_eq_iff_settled_verses :
    verseNode.pin? = some verseLook.pin ∧
      verseSearcher.matcher.indices[verseLook.pin.term.slot]? = some verseLook.frozen ∧
      Matcher.FirstFrom (verseSearcher.matcher.SettledAt verseLook) (.ok (none, #[])) 0
        (.ok (some ⟨5, .free, some 0, some ⟨0, 1⟩⟩, #[])) ∧
      ∃ scope, verseSearcher.matcher.Indexes scope.kinds ∧ verseSearcher.matcher.Proper ∧
        Task.Sound verseAliases scope verseSearcher.matcher ⟨5, verseNode, verseLook.state, #[]⟩ ∧
        ∀ fault, verseSearcher.matcher.matchNode 5 verseNode verseLook.state #[] = .error fault →
          fault = .endless := by
  have hfrozen : verseSearcher.matcher.indices[verseLook.pin.term.slot]? = some verseLook.frozen := rfl
  have hmatch : verseSearcher.matcher.matchNode 5 verseNode verseLook.state #[] =
      .ok (some ⟨5, .free, some 0, some ⟨0, 1⟩⟩, #[]) := by
    rw [verseSearcher, searcherIn_eq_byInsertion]
    decide +kernel
  have hproper : verseSearcher.matcher.Proper := all_searcherIn verseView_proper versePattern ⟨0, 5⟩
  obtain ⟨scope, hindexes, hsound⟩ := sound_verses
  obtain ⟨hsettled, hendless⟩ := @Matcher.matchNode_eq_iff_settled verseSearcher.matcher verseLook verseNode rfl hfrozen
  exact ⟨rfl, hfrozen, (hsettled _).1 hmatch, scope, hindexes, hproper, hsound,
    hendless verseAliases scope hindexes hproper hsound⟩

end Searcher

end TextAnnotation.Pattern
