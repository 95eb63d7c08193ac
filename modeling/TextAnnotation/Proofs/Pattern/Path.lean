import TextAnnotation.Proofs.Label.Following
import TextAnnotation.Proofs.Pattern.Attempt

/-!
The way that a successful attempt takes, without the nodes that led it there.
-/

namespace TextAnnotation.Pattern.Matcher

/-- Moves from a state to another one by labels that end within a limit, with the captures written and the
pieces consumed on the way. -/
inductive Path (m : Matcher) :
    Nat → MatchState → Captures → MatchState → Captures → List Piece → Prop where
  | still (limit : Nat) (state : MatchState) (captures : Captures) :
    Path m limit state captures state captures []
  | append {limit : Nat} {state middle next : MatchState} {captures between written : Captures}
    {earlier later : List Piece} (hearlier : Path m limit state captures middle between earlier)
    (hlater : Path m limit middle between next written later) :
    Path m limit state captures next written (earlier ++ later)
  | adjacent (limit : Nat) (state : MatchState) (captures : Captures) :
    Path m limit state captures { state with anchor := .adjacent } captures []
  | piece {limit slot first last : Nat} {state : MatchState} {frozen : FrozenKind} {a b : Label}
    (captures : Captures) (hfrozen : m.indices[slot]? = some frozen)
    (hfirst : frozen.index.get? first = some a) (hlast : frozen.index.get? last = some b)
    (hle : first ≤ last) (hposition : state.position ≤ a.span.start) (hlimit : b.span.stop ≤ limit) :
    Path m limit state captures (state.consume ⟨a.span.start, b.span.stop⟩ ⟨slot, last⟩) captures
      [⟨slot, first, last⟩]
  /-- A condition is tried inside a label that the state takes. -/
  | condition {limit : Nat} {state inner : MatchState} {captures written rewritten : Captures}
    {span : Span} {ref : LabelRef} {pieces consumed : List Piece}
    (htaken : Path m limit state captures (state.consume span ref) written pieces)
    (hinner : Path m span.stop { position := span.start, anchor := .free } written inner rewritten
      consumed) :
    Path m limit state captures (state.consume span ref) rewritten pieces
  | unbound {limit : Nat} {state inner : MatchState} {captures written : Captures}
    {consumed : List Piece}
    (hinner : Path m limit { state with begin? := none, last? := none } captures inner written consumed)
    (hbegin : inner.begin? = none) :
    Path m limit state captures (joinCapture state inner) written consumed
  | bound {limit slot start : Nat} {state inner : MatchState} {captures written : Captures}
    {consumed : List Piece}
    (hinner : Path m limit { state with begin? := none, last? := none } captures inner written consumed)
    (hbegin : inner.begin? = some start) (hle : start ≤ inner.position) (hslot : slot < written.size) :
    Path m limit state captures (joinCapture state inner)
      (written.set! slot (some ⟨⟨start, inner.position⟩, inner.last?⟩)) consumed
  | lookahead {limit : Nat} {state inner : MatchState} {captures written : Captures}
    {consumed : List Piece} (hinner : Path m limit state captures inner written consumed) :
    Path m limit state captures state written []

theorem Path.first_le_last {m : Matcher} {limit : Nat} {state next : MatchState}
    {captures written : Captures} {pieces : List Piece}
    (h : Path m limit state captures next written pieces) : ∀ piece ∈ pieces, piece.first ≤ piece.last := by
  induction h with
  | still => simp
  | append _ _ ih ih' =>
    intro piece hmem
    rcases List.mem_append.1 hmem with hmem | hmem
    · exact ih piece hmem
    · exact ih' piece hmem
  | adjacent => simp
  | piece _ _ _ _ hle => simpa using hle
  | condition _ _ ih => exact ih
  | unbound _ _ ih => exact ih
  | bound _ _ _ _ ih => exact ih
  | lookahead => simp

theorem index_eq_ok_iff {m : Matcher} {slot : Nat} {frozen : FrozenKind} :
    m.index slot = .ok frozen ↔ m.indices[slot]? = some frozen := by
  unfold index
  split <;> simp_all

theorem firstAccepted_eq_some {accepts : Span → Attempt Captures}
    {candidates : List (Except MatchFault (Span × Nat))} {span : Span} {position : Nat}
    {written : Captures} (h : firstAccepted accepts candidates = .ok (some ((span, position), written))) :
    .ok (span, position) ∈ candidates ∧ accepts span = .ok (some written) := by
  induction candidates with
  | nil => cases h
  | cons candidate rest ih =>
    rcases candidate with fault | ⟨span', position'⟩
    · cases h
    rcases Attempt.orElse_eq_some_iff.1 h with htaken | ⟨_, hrest⟩
    · obtain ⟨written', haccepts, heq⟩ := Attempt.andThen_eq_some_iff.1 htaken
      cases heq
      exact ⟨List.mem_cons_self, haccepts⟩
    · obtain ⟨hmem, haccepts⟩ := ih hrest
      exact ⟨List.mem_cons_of_mem _ hmem, haccepts⟩

theorem mem_candidates {m : Matcher} {search : Search} {kind : LabelKind} {captures : Captures}
    {nearest? : Option Nat} {index : LabelIndex Label} {start position : Nat} {labels : List Label}
    {span : Span} (hlabels : labels = index.ascending.drop start)
    (h : .ok (span, position) ∈ m.candidates search kind captures nearest? start labels) :
    ∃ label ∈ labels, index.get? position = some label ∧ label.span = span ∧
      span.stop ≤ search.limit := by
  induction labels generalizing nearest? start with
  | nil => cases h
  | cons label rest ih =>
    obtain ⟨hget, hrest⟩ := LabelIndex.of_cons_eq_drop hlabels
    have hlater {nearest? : Option Nat}
        (h : .ok (span, position) ∈ m.candidates search kind captures nearest? (start + 1) rest) :
        ∃ found ∈ label :: rest, index.get? position = some found ∧ found.span = span ∧
          span.stop ≤ search.limit := by
      obtain ⟨found, hmem, hfound⟩ := ih hrest h
      exact ⟨found, List.mem_cons_of_mem _ hmem, hfound⟩
    simp only [candidates] at h
    split at h
    · cases h
    split at h
    · exact hlater h
    split at h
    · simp at h
    · rcases List.mem_cons.1 h with heq | hmem
      · cases heq
        exact ⟨label, List.mem_cons_self, hget, rfl, by omega⟩
      · exact hlater hmem
    · exact hlater h

theorem pickWords_eq_some {literal : Literal} {windowEnd? : Option Nat} {limit more : Nat}
    {kind : LabelKind} {index : LabelIndex Label} {start last : Nat} {labels : List Label} {span : Span}
    (hlabels : labels = index.ascending.drop start)
    (h : pickWords literal windowEnd? limit more kind start labels = .ok (some (span, last))) :
    ∃ first a b, last = first + more ∧ a ∈ labels ∧ index.get? first = some a ∧
      index.get? last = some b ∧ span = ⟨a.span.start, b.span.stop⟩ ∧ b.span.stop ≤ limit := by
  induction labels generalizing start with
  | nil => cases h
  | cons label rest ih =>
    obtain ⟨hget, hrest⟩ := LabelIndex.of_cons_eq_drop hlabels
    simp only [pickWords] at h
    split at h
    · cases h
    split at h
    · cases h
    rename_i b hb
    split at h
    · rename_i hfound
      split at h
      · rename_i found hspan
        cases h
        obtain ⟨hle, rfl⟩ := Span.between_eq_ok_iff.1 hspan
        refine ⟨start, label, b, rfl, List.mem_cons_self, hget, ?_, rfl, ?_⟩
        · rw [index.get?_eq_ascending, ← List.getElem?_drop, ← hlabels]
          exact hb
        · simp only [Bool.and_eq_true, decide_eq_true_eq] at hfound
          exact hfound.1
      · cases h
    · obtain ⟨first, a, b, hlast, hmem, hfound⟩ := ih hrest h
      exact ⟨first, a, b, hlast, List.mem_cons_of_mem _ hmem, hfound⟩

theorem evaluateLabel_eq_some {m : Matcher} {term : LabelTerm} {seek : Bool}
    {accepts : Span → Attempt Captures} {limit : Nat} {state : MatchState} {captures : Captures}
    {found : Accepted} (h : m.evaluateLabel term seek accepts limit state captures = .ok (some found)) :
    ∃ frozen span position written, m.index term.slot = .ok frozen ∧
      .ok (span, position) ∈ m.candidates (m.searchFor term seek limit state) frozen.kind captures none
        (frozen.index.lowerBound state.position) (frozen.index.following state.position) ∧
      accepts span = .ok (some written) ∧
      found = ⟨state.consume span ⟨term.slot, position⟩, written, [⟨term.slot, position, position⟩]⟩ := by
  simp only [evaluateLabel] at h
  split at h
  · cases h
  rename_i frozen hfrozen
  obtain ⟨⟨⟨span, position⟩, written⟩, hfirst, heq⟩ := Attempt.andThen_eq_some_iff.1 h
  cases heq
  obtain ⟨hmem, hwritten⟩ := firstAccepted_eq_some hfirst
  exact ⟨frozen, span, position, written, hfrozen, hmem, hwritten, rfl⟩

theorem matchLiteral_eq_some {m : Matcher} {literal : Literal} {limit : Nat} {state next : MatchState}
    (h : m.matchLiteral literal limit state = .ok (some next)) :
    ∃ frozen more span last, m.index literal.slot = .ok frozen ∧ literal.wordCount = more + 1 ∧
      pickWords literal (m.windowEnd? state limit) limit more frozen.kind
        (frozen.index.lowerBound state.position) (frozen.index.following state.position) =
          .ok (some (span, last)) ∧
      next = state.consume span ⟨literal.slot, last⟩ := by
  simp only [matchLiteral] at h
  rcases hfrozen : m.index literal.slot with fault | frozen
  · rw [hfrozen] at h
    cases h
  rw [hfrozen] at h
  simp only [bind, Except.bind] at h
  split at h
  · cases h
  rename_i more hmore
  split at h
  · cases h
  rename_i picked? hpicked
  rcases picked? with _ | ⟨span, last⟩
  · cases h
  cases h
  exact ⟨frozen, more, span, last, rfl, hmore, hpicked, rfl⟩

theorem path_of_evaluateLabel {m : Matcher} {term : LabelTerm} {seek : Bool}
    {accepts : Span → Attempt Captures} {limit : Nat} {state : MatchState} {captures : Captures}
    {found : Accepted} (h : m.evaluateLabel term seek accepts limit state captures = .ok (some found))
    (haccepts : ∀ span ref written, accepts span = .ok (some written) →
      Path m limit state captures (state.consume span ref) captures [⟨ref.slot, ref.position, ref.position⟩] →
      Path m limit state captures (state.consume span ref) written
        [⟨ref.slot, ref.position, ref.position⟩]) :
    Path m limit state captures found.state found.captures found.consumed := by
  obtain ⟨frozen, span, position, written, hfrozen, hmem, hwritten, rfl⟩ := evaluateLabel_eq_some h
  obtain ⟨label, hlabel, hget, rfl, hstop⟩ := mem_candidates (LabelIndex.following_eq_drop _) hmem
  exact haccepts _ _ _ hwritten (.piece captures (index_eq_ok_iff.1 hfrozen) hget hget (Nat.le_refl _)
    (LabelIndex.le_start_of_mem_following hlabel) hstop)

theorem path_of_evaluateLiteral {m : Matcher} {literal : Literal} {limit : Nat} {state : MatchState}
    {captures : Captures} {found : Accepted}
    (h : m.evaluateLiteral literal limit state captures = .ok (some found)) :
    Path m limit state captures found.state found.captures found.consumed := by
  obtain ⟨next, hnext, heq⟩ := Attempt.andThen_eq_some_iff.1 h
  cases heq
  obtain ⟨frozen, more, span, last, hfrozen, hmore, hpicked, rfl⟩ := matchLiteral_eq_some hnext
  obtain ⟨first, a, b, rfl, hmem, hfirst, hlast, rfl, hstop⟩ :=
    pickWords_eq_some (LabelIndex.following_eq_drop _) hpicked
  have hpiece := Path.piece captures (index_eq_ok_iff.1 hfrozen) hfirst hlast (Nat.le_add_right _ _)
    (LabelIndex.le_start_of_mem_following hmem) hstop
  simpa only [MatchState.consume, Option.toList_some, List.map_cons, List.map_nil, hmore,
    Nat.add_sub_add_right, Nat.add_sub_cancel] using hpiece

/-- A body that is matched several times, up to `more` of them: how often it did, and what came of it. -/
inductive Repeats (body : MatchState → Captures → Attempt Accepted) :
    Nat → MatchState → Captures → Nat → Accepted → Prop where
  | enough (more : Nat) (state : MatchState) (captures : Captures) :
    Repeats body more state captures 0 (.still state captures)
  | stalls {more : Nat} {state : MatchState} {captures : Captures} {next : Accepted}
    (hnext : body state captures = .ok (some next)) (hstalled : stalled state next.state = true) :
    Repeats body (more + 1) state captures 1 next
  | again {more further : Nat} {state : MatchState} {captures : Captures} {next last : Accepted}
    (hnext : body state captures = .ok (some next)) (hmoved : stalled state next.state = false)
    (hlast : Repeats body more next.state next.captures further last) :
    Repeats body (more + 1) state captures (further + 1) (next.followedBy last)

theorem repeats_of_iterate {body : MatchState → Captures → Attempt Accepted} {bounded : Bool}
    {more count : Nat} {state : MatchState} {captures : Captures} {last : Accepted}
    (h : iterate body bounded more state captures = .ok (some (count, last))) :
    Repeats body more state captures count last := by
  induction more generalizing state captures count last with
  | zero =>
    simp only [iterate] at h
    split at h
    · cases h
      exact .enough _ _ _
    rcases Attempt.orElse_eq_some_iff.1 h with hbeyond | ⟨_, hstill⟩
    · obtain ⟨next, _, hfault⟩ := Attempt.andThen_eq_some_iff.1 hbeyond
      cases hfault
    · cases hstill
      exact .enough _ _ _
  | succ more ih =>
    simp only [iterate, afterIteration] at h
    split at h
    · cases h
    · cases h
      exact .enough _ _ _
    rename_i next hnext
    split at h
    · rename_i hstalled
      cases h
      exact .stalls hnext hstalled
    · rename_i hmoved
      obtain ⟨⟨further, final⟩, hfinal, heq⟩ := Attempt.andThen_eq_some_iff.1 h
      cases heq
      exact .again hnext (Bool.eq_false_iff.2 hmoved) (ih hfinal)

theorem path_of_repeats {m : Matcher} {body : MatchState → Captures → Attempt Accepted}
    {limit more count : Nat} {state : MatchState} {captures : Captures} {last : Accepted}
    (hbody : ∀ state captures found, body state captures = .ok (some found) →
      Path m limit state captures found.state found.captures found.consumed)
    (h : Repeats body more state captures count last) :
    Path m limit state captures last.state last.captures last.consumed := by
  induction h with
  | enough => exact .still _ _ _
  | stalls hnext => exact hbody _ _ _ hnext
  | again hnext _ _ ih => exact .append (hbody _ _ _ hnext) ih

theorem repeats_of_evaluate {m : Matcher} {limit minimum : Nat} {body : Node} {maximum? : Option Nat}
    {state : MatchState} {captures : Captures} {found : Accepted}
    (h : m.evaluate limit (.repetition body minimum maximum?) state captures = .ok (some found)) :
    ∃ count, minimum ≤ count ∧
      Repeats (m.evaluate limit body) (maximum?.getD m.repetitionLimit) state captures count found := by
  simp only [evaluate] at h
  obtain ⟨⟨count, last⟩, hlast, heq⟩ := Attempt.andThen_eq_some_iff.1 h
  split at heq
  · rename_i hle
    cases heq
    exact ⟨count, hle, repeats_of_iterate hlast⟩
  · cases heq

theorem writeCapture_eq_some {slot : Nat} {state : MatchState} {inner found : Accepted}
    (h : writeCapture slot state inner = .ok (some found)) :
    (inner.state.begin? = none ∧ found = { inner with state := joinCapture state inner.state }) ∨
    ∃ start, inner.state.begin? = some start ∧ start ≤ inner.state.position ∧ slot < inner.captures.size ∧
      found = ⟨joinCapture state inner.state,
        inner.captures.set! slot (some ⟨⟨start, inner.state.position⟩, inner.state.last?⟩),
        inner.consumed⟩ := by
  simp only [writeCapture] at h
  split at h
  · cases h
    exact .inl ⟨‹_›, rfl⟩
  rename_i start hbegin
  split at h
  · cases h
  rename_i span hspan
  obtain ⟨hle, rfl⟩ := Span.between_eq_ok_iff.1 hspan
  split at h
  · cases h
    exact .inr ⟨start, hbegin, hle, ‹_›, rfl⟩
  · cases h

theorem lookAround_eq_some {negated : Bool} {state : MatchState} {captures : Captures}
    {attempt : Attempt Accepted} {found : Accepted}
    (h : lookAround negated state captures attempt = .ok (some found)) :
    (attempt = .ok none ∧ found = .still state captures) ∨
    ∃ inner, attempt = .ok (some inner) ∧ found = .still state inner.captures := by
  rcases attempt with fault | _ | inner
  · cases h
  · cases negated with
    | false => cases h
    | true =>
      cases h
      exact .inl ⟨rfl, rfl⟩
  · cases negated with
    | false =>
      cases h
      exact .inr ⟨inner, rfl, rfl⟩
    | true => cases h

theorem path_of_evaluateAll {m : Matcher} {limit : Nat} {nodes : List Node}
    (hnodes : ∀ node ∈ nodes, ∀ state captures found, m.evaluate limit node state captures = .ok (some found) →
      Path m limit state captures found.state found.captures found.consumed)
    {state : MatchState} {captures : Captures} {found : Accepted}
    (h : m.evaluateAll limit nodes state captures = .ok (some found)) :
    Path m limit state captures found.state found.captures found.consumed := by
  induction nodes generalizing state captures found with
  | nil =>
    cases h
    exact .still _ _ _
  | cons node rest ih =>
    simp only [evaluateAll] at h
    obtain ⟨next, hnext, h⟩ := Attempt.andThen_eq_some_iff.1 h
    obtain ⟨last, hlast, heq⟩ := Attempt.andThen_eq_some_iff.1 h
    cases heq
    exact .append (hnodes node List.mem_cons_self _ _ _ hnext)
      (ih (fun node hmem => hnodes node (List.mem_cons_of_mem _ hmem)) hlast)

theorem path_of_evaluateFirst {m : Matcher} {limit : Nat} {nodes : List Node} {state : MatchState}
    {captures : Captures} {found : Accepted}
    (hnodes : ∀ node ∈ nodes, m.evaluate limit node state captures = .ok (some found) →
      Path m limit state captures found.state found.captures found.consumed)
    (h : m.evaluateFirst limit nodes state captures = .ok (some found)) :
    Path m limit state captures found.state found.captures found.consumed := by
  induction nodes with
  | nil => cases h
  | cons node rest ih =>
    simp only [evaluateFirst] at h
    rcases Attempt.orElse_eq_some_iff.1 h with hfound | ⟨_, hrest⟩
    · exact hnodes node List.mem_cons_self hfound
    · exact ih (fun node hmem => hnodes node (List.mem_cons_of_mem _ hmem)) hrest

theorem path_of_evaluateConditions {m : Matcher} {limit : Nat} {span : Span} {exact : Bool}
    {nodes : List Node} {state : MatchState} {ref : LabelRef} {pieces : List Piece}
    (hnodes : ∀ node ∈ nodes, ∀ state captures found,
      m.evaluate span.stop node state captures = .ok (some found) →
      Path m span.stop state captures found.state found.captures found.consumed)
    {captures between written : Captures}
    (h : m.evaluateConditions span exact nodes between = .ok (some written))
    (htaken : Path m limit state captures (state.consume span ref) between pieces) :
    Path m limit state captures (state.consume span ref) written pieces := by
  induction nodes generalizing between with
  | nil =>
    cases h
    exact htaken
  | cons node rest ih =>
    simp only [evaluateConditions] at h
    obtain ⟨inner, hinner, h⟩ := Attempt.andThen_eq_some_iff.1 h
    split at h
    · exact ih (fun node hmem => hnodes node (List.mem_cons_of_mem _ hmem)) h
        (.condition htaken (hnodes node List.mem_cons_self _ _ _ hinner))
    · cases h

theorem path_of_evaluate {m : Matcher} {limit : Nat} {node : Node} {state : MatchState}
    {captures : Captures} {found : Accepted}
    (h : m.evaluate limit node state captures = .ok (some found)) :
    Path m limit state captures found.state found.captures found.consumed := by
  induction node generalizing limit state captures found with
  | sequence elements ih =>
    simp only [evaluate] at h
    exact path_of_evaluateAll (fun node hmem _ _ _ => ih node hmem) h
  | alternation alternatives ih =>
    simp only [evaluate] at h
    exact path_of_evaluateFirst (fun node hmem => ih node hmem) h
  | adjacent =>
    cases h
    exact .adjacent _ _ _
  | repetition body minimum maximum? ih =>
    obtain ⟨count, _, hrepeats⟩ := repeats_of_evaluate h
    exact path_of_repeats (fun _ _ _ => ih) hrepeats
  | capture slot body ih =>
    simp only [evaluate] at h
    obtain ⟨inner, hinner, h⟩ := Attempt.andThen_eq_some_iff.1 h
    rcases writeCapture_eq_some h with ⟨hbegin, rfl⟩ | ⟨start, hbegin, hle, hslot, rfl⟩
    · exact .unbound (ih hinner) hbegin
    · exact .bound (ih hinner) hbegin hle hslot
  | lookahead body negated ih =>
    simp only [evaluate] at h
    rcases lookAround_eq_some h with ⟨_, rfl⟩ | ⟨inner, hinner, rfl⟩
    · exact .still _ _ _
    · have hpath := ih hinner
      exact .lookahead hpath
  | label term =>
    simp only [evaluate] at h
    apply path_of_evaluateLabel h
    intro span ref written haccepts htaken
    cases haccepts
    exact htaken
  | pinned term seek exact conditions ih =>
    simp only [evaluate] at h
    apply path_of_evaluateLabel h
    intro span ref written haccepts htaken
    exact path_of_evaluateConditions (fun node hmem _ _ _ => ih node hmem) haccepts htaken
  | literal literal =>
    simp only [evaluate] at h
    exact path_of_evaluateLiteral h

end TextAnnotation.Pattern.Matcher
