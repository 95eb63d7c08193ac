import TextAnnotation.Proofs.Pattern.Advance
import TextAnnotation.Proofs.Pattern.Resolution

/-!
An attempt of resolved nodes finds every index, capture and label that it refers to. It fails in no other way
than by a repetition without end, or by a label that ends before it starts, and a capture that it binds holds
a label of the kind known for it.
-/

namespace TextAnnotation.Pattern

namespace Matcher

/-- The matcher has an index for each of several kinds, by slot. -/
def Indexes (m : Matcher) (kinds : List LabelKind) : Prop := m.indices.toList.map (·.kind) = kinds

theorem Indexes.index {m : Matcher} {kinds : List LabelKind} (h : m.Indexes kinds) {slot : Nat}
    {kind : LabelKind} (hkind : kinds[slot]? = some kind) :
    ∃ frozen, m.index slot = .ok frozen ∧ frozen.kind = kind := by
  subst h
  rw [List.getElem?_map, Option.map_eq_some_iff] at hkind
  obtain ⟨frozen, hfrozen, hkind⟩ := hkind
  rw [Array.getElem?_toList] at hfrozen
  exact ⟨frozen, index_eq_ok_iff.2 hfrozen, hkind⟩

/-- A reference leads to a label of a kind. -/
def Refers (m : Matcher) (ref : LabelRef) (kind : LabelKind) : Prop := ∃ label, m.label ref = .ok (kind, label)

theorem label_eq_ok_iff {m : Matcher} {ref : LabelRef} {kind : LabelKind} {label : Label} :
    m.label ref = .ok (kind, label) ↔ ∃ frozen, m.indices[ref.slot]? = some frozen ∧ frozen.kind = kind ∧
      frozen.index.get? ref.position = some label := by
  simp only [Matcher.label, index, bind, Except.bind]
  constructor
  · intro h
    split at h
    · cases h
    rename_i frozen hfrozen
    split at hfrozen
    · cases hfrozen
      rename_i hslot
      split at h
      · cases h
        exact ⟨_, hslot, rfl, ‹_›⟩
      · cases h
    · cases hfrozen
  · rintro ⟨frozen, hslot, rfl, hlabel⟩
    simp only [hslot, hlabel]
    rfl

theorem refers_of_get? {m : Matcher} {slot position : Nat} {frozen : FrozenKind} {label : Label}
    (hfrozen : m.indices[slot]? = some frozen) (hlabel : frozen.index.get? position = some label) :
    m.Refers ⟨slot, position⟩ frozen.kind :=
  ⟨label, label_eq_ok_iff.2 ⟨frozen, hfrozen, rfl, hlabel⟩⟩

end Matcher

/-- A state that has consumed a label has one consumed last, and refers to it. -/
structure MatchState.Sound (m : Matcher) (state : MatchState) : Prop where
  last : state.begin?.isSome = state.last?.isSome
  refers : ∀ ref, state.last? = some ref → ∃ kind, m.Refers ref kind

/-- A state that has consumed nothing. -/
theorem MatchState.sound_fresh (m : Matcher) (state : MatchState) :
    MatchState.Sound m { state with begin? := none, last? := none } := ⟨rfl, nofun⟩

theorem Matcher.Path.sound {m : Matcher} {limit : Nat} {state next : MatchState} {captures written : Captures}
    {pieces : List Piece} (h : m.Path limit state captures next written pieces) (hstate : state.Sound m) :
    next.Sound m := by
  have hjoin {state inner : MatchState} (hstate : state.Sound m) (hinner : inner.Sound m) :
      (joinCapture state inner).Sound m := by
    constructor
    · simp only [joinCapture, Option.isSome_merge, Option.isSome_or, hstate.last, hinner.last]
      exact Bool.or_comm _ _
    · intro ref href
      rcases Option.or_eq_some_iff.1 href with hinner' | ⟨_, hstate'⟩
      · exact hinner.refers ref hinner'
      · exact hstate.refers ref hstate'
  induction h with
  | still => exact hstate
  | append _ _ ih ih' => exact ih' (ih hstate)
  | adjacent => exact ⟨hstate.last, hstate.refers⟩
  | piece captures hfrozen hfirst hlast =>
    refine ⟨rfl, fun ref href => ?_⟩
    cases href
    exact ⟨_, refers_of_get? hfrozen hlast⟩
  | condition _ _ ih => exact ih hstate
  | unbound _ _ ih => exact hjoin hstate (ih (MatchState.sound_fresh m _))
  | bound _ _ _ _ ih => exact hjoin hstate (ih (MatchState.sound_fresh m _))
  | lookahead => exact hstate

/-- A bound capture holds a label. If it is known of what alias that is, it is of the kind registered. -/
def Captured.Sound (table : AliasTable) (m : Matcher) (declared : DeclaredCapture) (captured : Captured) :
    Prop :=
  ∃ ref kind, captured.label? = some ref ∧ m.Refers ref kind ∧
    ∀ kindAlias registered, declared.boundAlias? = some kindAlias →
      table.find? kindAlias = some registered → kind = registered.kind

structure CapturesSound (table : AliasTable) (m : Matcher) (declared : List DeclaredCapture)
    (captures : Captures) : Prop where
  size : captures.size = declared.length
  held : ∀ (slot : Nat) (captured : Captured), captures[slot]? = some (some captured) →
    ∀ capture, declared[slot]? = some capture → captured.Sound table m capture

section
variable {table : AliasTable} {m : Matcher} {scope : Scope} {captures : Captures}

theorem CapturesSound.none (table : AliasTable) (m : Matcher) (declared : List DeclaredCapture) :
    CapturesSound table m declared (Array.replicate declared.length none) where
  size := Array.size_replicate
  held slot captured hslot := by
    obtain ⟨hlt, hcaptured⟩ := Array.getElem?_eq_some_iff.1 hslot
    rw [Array.getElem_replicate] at hcaptured
    cases hcaptured

theorem CapturesSound.set (h : CapturesSound table m scope.captures captures) {slot : Nat} {captured : Captured}
    (hcaptured : ∀ capture, scope.captures[slot]? = some capture → captured.Sound table m capture) :
    CapturesSound table m scope.captures (captures.set! slot (some captured)) where
  size := by simpa using h.size
  held other found hfound := by
    rw [Array.set!_eq_setIfInBounds, Array.getElem?_setIfInBounds] at hfound
    split at hfound
    · rename_i heq
      split at hfound
      · cases hfound
        exact heq ▸ hcaptured
      · cases hfound
    · exact h.held other found hfound

theorem CapturesSound.captured? (h : CapturesSound table m scope.captures captures) {slot : Nat}
    {capture : DeclaredCapture} (hcapture : scope.captures[slot]? = some capture) :
    ∃ held?, Matcher.captured? captures slot = .ok held? ∧
      ∀ captured, held? = some captured → captured.Sound table m capture := by
  obtain ⟨hlt, _⟩ := List.getElem?_eq_some_iff.1 hcapture
  have hslot : slot < captures.size := h.size ▸ hlt
  have hget := Array.getElem?_eq_getElem hslot
  refine ⟨captures[slot], by simp only [Matcher.captured?, hget], fun captured heq => ?_⟩
  exact h.held slot captured (heq ▸ hget) capture hcapture

end

namespace Matcher

variable {table : AliasTable} {m : Matcher} {scope : Scope} {captures : Captures}

theorem predicateHolds_eq_ok (hcaptures : CapturesSound table m scope.captures captures) {predicate : Predicate}
    (hpredicate : predicate.expected.Resolved table scope) (kind : LabelKind) (label : Label) :
    ∃ holds, m.predicateHolds captures kind label predicate = .ok holds := by
  unfold predicateHolds
  cases hexpected : predicate.expected with
  | value value => exact ⟨_, rfl⟩
  | spanOf name slot =>
    rw [hexpected] at hpredicate
    obtain ⟨capture, hcapture, _⟩ := hpredicate
    obtain ⟨held?, hheld, _⟩ := hcaptures.captured? hcapture
    simp only [hheld, bind, Except.bind]
    split <;> exact ⟨_, rfl⟩
  | readingOf name slot accessor read =>
    rw [hexpected] at hpredicate
    obtain ⟨capture, _, hcapture, _⟩ := hpredicate
    obtain ⟨held?, hheld, hsound⟩ := hcaptures.captured? hcapture
    simp only [hheld, bind, Except.bind]
    rcases held? with _ | captured
    · exact ⟨_, rfl⟩
    obtain ⟨ref, found, href, ⟨held, hlabel⟩, _⟩ := hsound captured rfl
    simp only [Option.bind_some, href, hlabel]
    exact ⟨_, rfl⟩

theorem predicatesHold_eq_ok (hcaptures : CapturesSound table m scope.captures captures) {predicates : List Predicate}
    (hpredicates : ∀ predicate ∈ predicates, predicate.expected.Resolved table scope) (kind : LabelKind)
    (label : Label) : ∃ hold, m.predicatesHold captures kind label predicates = .ok hold := by
  induction predicates with
  | nil => exact ⟨true, rfl⟩
  | cons predicate rest ih =>
    obtain ⟨hpredicate, hrest⟩ := List.forall_mem_cons.1 hpredicates
    obtain ⟨holds, hholds⟩ := predicateHolds_eq_ok hcaptures hpredicate kind label
    simp only [predicatesHold, hholds, bind, Except.bind]
    split
    · exact ih hrest
    · exact ⟨false, rfl⟩

theorem candidates_ok (search : Search) {kind : LabelKind}
    (hpredicates : ∀ label, ∃ hold, m.predicatesHold captures kind label search.term.predicates = .ok hold)
    (nearest? : Option Nat) (position : Nat) (labels : List Label) :
    ∀ candidate ∈ m.candidates search kind captures nearest? position labels,
      ∃ found, candidate = .ok found := by
  induction labels generalizing nearest? position with
  | nil => simp [candidates]
  | cons label rest ih =>
    obtain ⟨hold, hhold⟩ := hpredicates label
    simp only [candidates, hhold]
    split
    · simp
    split
    · exact ih _ _
    cases hold with
    | false => exact ih _ _
    | true => exact List.forall_mem_cons.2 ⟨⟨_, rfl⟩, ih _ _⟩

/-- The only ways in which attempts of resolved nodes fail. -/
def MayFail (m : Matcher) (fault : MatchFault) : Prop :=
  fault = .endless ∨ (∃ bounds, fault = .inverted bounds) ∧ ¬ m.Proper

end Matcher

/-- An attempt that fails in these ways only, and of whose success something is known. -/
def Attempt.Ends (m : Matcher) (Q : α → Prop) : Attempt α → Prop
  | .error fault => m.MayFail fault
  | .ok none => True
  | .ok (some found) => Q found

namespace Attempt

variable {m : Matcher} {P : α → Prop} {Q : β → Prop}

theorem Ends.andThen {attempt : Attempt α} {next : α → Attempt β} (h : attempt.Ends m P)
    (hnext : ∀ found, attempt = .ok (some found) → P found → (next found).Ends m Q) :
    (attempt.andThen next).Ends m Q := by
  rcases attempt with fault | _ | found
  · exact h
  · trivial
  · exact hnext found rfl h

theorem Ends.orElse {attempt other : Attempt α} (h : attempt.Ends m P) (hother : other.Ends m P) :
    (attempt.orElse other).Ends m P := by
  rcases attempt with fault | _ | found
  · exact h
  · exact hother
  · exact h

theorem Ends.eq_endless {attempt : Attempt α} (h : attempt.Ends m P) (hproper : m.Proper) {fault : MatchFault}
    (hfault : attempt = .error fault) : fault = .endless := by
  rw [hfault] at h
  rcases h with hendless | ⟨_, himproper⟩
  · exact hendless
  · exact absurd hproper himproper

end Attempt

namespace Matcher

open Attempt

section
variable {m : Matcher} {Q : Captures → Prop}

theorem ends_firstAccepted {accepts : Span → Attempt Captures} (haccepts : ∀ span, (accepts span).Ends m Q)
    {candidates : List (Except MatchFault (Span × Nat))}
    (hcandidates : ∀ candidate ∈ candidates, ∃ found, candidate = .ok found) :
    (firstAccepted accepts candidates).Ends m fun found => Q found.2 := by
  induction candidates with
  | nil => trivial
  | cons candidate rest ih =>
    obtain ⟨⟨found, rfl⟩, hrest⟩ := List.forall_mem_cons.1 hcandidates
    apply Ends.orElse _ (ih hrest)
    exact (haccepts found.1).andThen fun written _ hwritten => hwritten

theorem ends_pickWords (literal : Literal) (windowEnd? : Option Nat) (limit more : Nat) (kind : LabelKind)
    {frozen : FrozenKind} (hfrozen : frozen ∈ m.indices) {position : Nat} {labels : List Label}
    (hlabels : labels = frozen.index.ascending.drop position) :
    Attempt.Ends m (fun _ => True) (pickWords literal windowEnd? limit more kind position labels) := by
  induction labels generalizing position with
  | nil => trivial
  | cons first rest ih =>
    obtain ⟨hfirst, hrest⟩ := LabelIndex.of_cons_eq_drop hlabels
    simp only [pickWords]
    split
    · trivial
    split
    · trivial
    rename_i last hlast
    split
    · split
      · trivial
      rename_i bounds hbounds
      refine .inr ⟨⟨bounds, rfl⟩, fun hproper => ?_⟩
      have hget : frozen.index.get? (position + more) = some last := by
        rw [LabelIndex.get?_eq_ascending, ← List.getElem?_drop, ← hlabels]
        exact hlast
      have hstart : first.span.start ≤ last.span.start :=
        LabelIndex.start_le_start hfirst hget (Nat.le_add_right _ _)
      rw [LabelIndex.get?_eq_ascending] at hget
      have hstop : last.span.start ≤ last.span.stop := hproper frozen hfrozen last (List.mem_of_getElem? hget)
      rw [Span.between_eq_ok_iff.2 ⟨Nat.le_trans hstart hstop, rfl⟩] at hbounds
      cases hbounds
    · exact ih hrest

end

variable {table : AliasTable} {scope : Scope} {m : Matcher} {limit : Nat} {state : MatchState}
  {captures : Captures}

/-- An attempt after which all captures that are bound hold a label of the kind known for them. -/
abbrev EndsSound (table : AliasTable) (scope : Scope) (m : Matcher) (attempt : Attempt Accepted) : Prop :=
  attempt.Ends m fun found => CapturesSound table m scope.captures found.captures

theorem ends_evaluateLabel (hm : m.Indexes scope.kinds) {term : LabelTerm} {registered : RegisteredKind}
    (hterm : term.Resolved table scope registered) (hcaptures : CapturesSound table m scope.captures captures)
    {accepts : Span → Attempt Captures}
    (haccepts : ∀ span, (accepts span).Ends m (CapturesSound table m scope.captures)) (seek : Bool) :
    EndsSound table scope m (m.evaluateLabel term seek accepts limit state captures) := by
  obtain ⟨frozen, hfrozen, _⟩ := hm.index hterm.slot
  simp only [evaluateLabel, hfrozen]
  have hcandidates := candidates_ok (m.searchFor term seek limit state)
    fun label => predicatesHold_eq_ok hcaptures hterm.expected frozen.kind label
  exact (ends_firstAccepted haccepts (hcandidates _ _ _)).andThen fun found _ hfound => hfound

theorem ends_evaluateLiteral (hm : m.Indexes scope.kinds) {literal : Literal}
    (hliteral : literal.Resolved table scope) (hcaptures : CapturesSound table m scope.captures captures) :
    EndsSound table scope m (m.evaluateLiteral literal limit state captures) := by
  obtain ⟨frozen, hfrozen, _⟩ := hm.index hliteral.slot
  have hmem := Array.mem_of_getElem? (index_eq_ok_iff.1 hfrozen)
  have hpicked (more : Nat) := ends_pickWords literal (m.windowEnd? state limit) limit more frozen.kind hmem
    (LabelIndex.following_eq_drop state.position)
  simp only [evaluateLiteral, matchLiteral, hfrozen, bind, Except.bind]
  split
  · exact absurd ‹_› hliteral.nonempty
  rename_i more _
  have h := hpicked more
  generalize pickWords _ _ _ _ _ _ _ = picked at h ⊢
  rcases picked with fault | _ | found
  · exact h
  · trivial
  · exact hcaptures

theorem ends_iterate {body : MatchState → Captures → Attempt Accepted}
    (hbody : ∀ state captures, CapturesSound table m scope.captures captures →
      EndsSound table scope m (body state captures))
    (bounded : Bool) (more : Nat) (state : MatchState) (hcaptures : CapturesSound table m scope.captures captures) :
    (iterate body bounded more state captures).Ends m fun found =>
      CapturesSound table m scope.captures found.2.captures := by
  induction more generalizing state captures with
  | zero =>
    cases bounded with
    | true => exact hcaptures
    | false =>
      have h := hbody state captures hcaptures
      simp only [iterate]
      generalize body state captures = attempt at h ⊢
      rcases attempt with fault | _ | next
      · exact h
      · exact hcaptures
      · exact Or.inl rfl
  | succ more ih =>
    have h := hbody state captures hcaptures
    simp only [iterate, afterIteration]
    split
    · rename_i hfault
      rwa [hfault] at h
    · exact hcaptures
    rename_i next hnext
    rw [hnext] at h
    split
    · exact h
    · exact (ih next.state h).andThen fun found _ hfound => hfound

theorem ends_evaluateAll {nodes : List Node}
    (hnodes : ∀ node ∈ nodes, ∀ state captures, CapturesSound table m scope.captures captures →
      EndsSound table scope m (m.evaluate limit node state captures))
    (state : MatchState) (hcaptures : CapturesSound table m scope.captures captures) :
    EndsSound table scope m (m.evaluateAll limit nodes state captures) := by
  induction nodes generalizing state captures with
  | nil => exact hcaptures
  | cons node rest ih =>
    obtain ⟨hnode, hrest⟩ := List.forall_mem_cons.1 hnodes
    apply (hnode state captures hcaptures).andThen
    intro found _ hfound
    exact (ih hrest found.state hfound).andThen fun last _ hlast => hlast

theorem ends_evaluateFirst {nodes : List Node}
    (hnodes : ∀ node ∈ nodes, EndsSound table scope m (m.evaluate limit node state captures)) :
    EndsSound table scope m (m.evaluateFirst limit nodes state captures) := by
  induction nodes with
  | nil => trivial
  | cons node rest ih =>
    obtain ⟨hnode, hrest⟩ := List.forall_mem_cons.1 hnodes
    exact hnode.orElse (ih hrest)

theorem ends_evaluateConditions {span : Span} {exact : Bool} {nodes : List Node}
    (hnodes : ∀ node ∈ nodes, ∀ state captures, CapturesSound table m scope.captures captures →
      EndsSound table scope m (m.evaluate span.stop node state captures))
    (hcaptures : CapturesSound table m scope.captures captures) :
    (m.evaluateConditions span exact nodes captures).Ends m (CapturesSound table m scope.captures) := by
  induction nodes generalizing captures with
  | nil => exact hcaptures
  | cons node rest ih =>
    obtain ⟨hnode, hrest⟩ := List.forall_mem_cons.1 hnodes
    apply (hnode _ captures hcaptures).andThen
    intro inner _ hinner
    split
    · exact ih hrest hinner
    · trivial

theorem Repeats.invariant {P : MatchState → Prop} {body : MatchState → Captures → Attempt Accepted}
    (hbody : ∀ state captures found, P state → body state captures = .ok (some found) → P found.state)
    {more count : Nat} {state : MatchState} {captures : Captures} {last : Accepted}
    (h : Repeats body more state captures count last) (hstate : P state) : P last.state := by
  induction h with
  | enough => exact hstate
  | stalls hnext => exact hbody _ _ _ hstate hnext
  | again hnext _ _ ih => exact ih (hbody _ _ _ hstate hnext)

theorem refers_of_evaluateLabel (hm : m.Indexes scope.kinds) {term : LabelTerm} {registered : RegisteredKind}
    (hterm : term.Resolved table scope registered) {accepts : Span → Attempt Captures} {seek : Bool}
    {found : Accepted} (h : m.evaluateLabel term seek accepts limit state captures = .ok (some found)) :
    ∀ ref, found.state.last? = some ref → m.Refers ref registered.kind := by
  obtain ⟨found, hfound, hkind⟩ := hm.index hterm.slot
  obtain ⟨frozen, span, position, written, hfrozen, hmem, _, rfl⟩ := evaluateLabel_eq_some h
  cases hfound.symm.trans hfrozen
  obtain ⟨label, _, hget, _⟩ := mem_candidates (LabelIndex.following_eq_drop _) hmem
  intro ref href
  cases href
  exact hkind ▸ refers_of_get? (index_eq_ok_iff.1 hfrozen) hget

/-- A node for which an alias is known consumes labels of that alias only. -/
theorem refers_of_evaluate (hm : m.Indexes scope.kinds) {node : Node}
    (hnode : node.All (Node.Resolved table scope)) {kindAlias : String} {registered : RegisteredKind}
    (halias : node.boundAlias? = some kindAlias) (hregistered : table.find? kindAlias = some registered)
    {found : Accepted} (hstate : ∀ ref, state.last? = some ref → m.Refers ref registered.kind)
    (h : m.evaluate limit node state captures = .ok (some found)) :
    ∀ ref, found.state.last? = some ref → m.Refers ref registered.kind := by
  induction node generalizing state captures found with
  | label term =>
    obtain ⟨known, hterm⟩ := hnode _ .refl
    cases halias
    have heq := hterm.kindAlias.symm.trans hregistered
    cases heq
    simp only [evaluate] at h
    exact refers_of_evaluateLabel hm hterm h
  | pinned term seek exact conditions =>
    obtain ⟨known, hterm⟩ := hnode _ .refl
    cases halias
    have heq := hterm.kindAlias.symm.trans hregistered
    cases heq
    simp only [evaluate] at h
    exact refers_of_evaluateLabel hm hterm h
  | repetition body minimum maximum? ih =>
    have hbody := (Node.all_iff.1 hnode).2 body List.mem_cons_self
    obtain ⟨count, _, hrepeats⟩ := repeats_of_evaluate h
    refine hrepeats.invariant
      (P := fun state => ∀ ref, state.last? = some ref → m.Refers ref registered.kind) ?_ hstate
    exact fun state captures found hstate hfound => ih hbody halias hstate hfound
  | _ => cases halias

theorem Captured.sound_of_evaluate (hm : m.Indexes scope.kinds) {body : Node}
    (hbody : body.All (Node.Resolved table scope)) {inner : Accepted} {start : Nat} {name : String}
    (h : m.evaluate limit body { state with begin? := none, last? := none } captures = .ok (some inner))
    (hbegin : inner.state.begin? = some start) (span : Span) :
    Captured.Sound table m ⟨name, body.boundAlias?⟩ ⟨span, inner.state.last?⟩ := by
  have hsound := (path_of_evaluate h).sound (MatchState.sound_fresh m _)
  have hlast := hsound.last
  rw [hbegin] at hlast
  obtain ⟨ref, href⟩ := Option.isSome_iff_exists.1 hlast.symm
  obtain ⟨kind, hkind⟩ := hsound.refers ref href
  refine ⟨ref, kind, href, hkind, fun kindAlias registered halias hregistered => ?_⟩
  obtain ⟨label, hlabel⟩ := hkind
  have hnone : ∀ ref, (none : Option LabelRef) = some ref → m.Refers ref registered.kind := nofun
  obtain ⟨found, hfound⟩ := refers_of_evaluate hm hbody halias hregistered hnone h ref href
  rw [hlabel] at hfound
  cases hfound
  rfl

theorem ends_writeCapture {slot : Nat} {inner : Accepted}
    (hinner : CapturesSound table m scope.captures inner.captures) (hslot : slot < scope.captures.length)
    (hcaptured : ∀ start, inner.state.begin? = some start → ∀ span capture,
      scope.captures[slot]? = some capture → Captured.Sound table m capture ⟨span, inner.state.last?⟩)
    (hproper : m.Proper → ∀ start, inner.state.begin? = some start → start ≤ inner.state.position) :
    EndsSound table scope m (writeCapture slot state inner) := by
  simp only [writeCapture]
  split
  · exact hinner
  rename_i start hbegin
  split
  · rename_i bounds hbounds
    refine .inr ⟨⟨bounds, rfl⟩, fun hm => ?_⟩
    rw [Span.between_eq_ok_iff.2 ⟨hproper hm start hbegin, rfl⟩] at hbounds
    cases hbounds
  rename_i span _
  rw [if_pos (hinner.size ▸ hslot)]
  exact hinner.set fun capture hcapture => hcaptured start hbegin span capture hcapture

theorem Path.begin_le_position (hm : m.Proper) {next : MatchState} {written : Captures} {pieces : List Piece}
    (h : m.Path limit state captures next written pieces) (hstate : state.begin? = none) {start : Nat}
    (hbegin : next.begin? = some start) : start ≤ next.position := by
  obtain ⟨spans, _, hadvance⟩ := h.advance hm
  rw [hadvance.begin?, hstate] at hbegin
  rcases spans with _ | ⟨first, rest⟩
  · cases hbegin
  · cases hbegin
    rw [hadvance.position]
    exact Nat.le_trans hadvance.ascending.2.1 hadvance.ascending.2.2.le_reach

theorem ends_lookAround {negated : Bool} {attempt : Attempt Accepted} (h : EndsSound table scope m attempt)
    (state : MatchState) (hcaptures : CapturesSound table m scope.captures captures) :
    EndsSound table scope m (lookAround negated state captures attempt) := by
  rcases attempt with fault | _ | found
  · exact h
  · cases negated with
    | false => trivial
    | true => exact hcaptures
  · cases negated with
    | false => exact h
    | true => trivial

/-- Resolved nodes find all that they refer to, from whichever state they are attempted. -/
theorem ends_evaluate (hm : m.Indexes scope.kinds) {node : Node} (hnode : node.All (Node.Resolved table scope))
    (limit : Nat) (state : MatchState) {captures : Captures}
    (hcaptures : CapturesSound table m scope.captures captures) :
    EndsSound table scope m (m.evaluate limit node state captures) := by
  induction node generalizing limit state captures with
  | sequence elements ih =>
    have helements := (Node.all_iff.1 hnode).2
    simp only [evaluate]
    exact ends_evaluateAll
      (fun node hmem state captures hcaptures => ih node hmem (helements node hmem) limit state hcaptures)
      state hcaptures
  | alternation alternatives ih =>
    have halternatives := (Node.all_iff.1 hnode).2
    simp only [evaluate]
    exact ends_evaluateFirst fun node hmem => ih node hmem (halternatives node hmem) limit state hcaptures
  | adjacent => exact hcaptures
  | repetition body minimum maximum? ih =>
    have hbody := (Node.all_iff.1 hnode).2 body List.mem_cons_self
    simp only [evaluate]
    apply (ends_iterate (fun state captures hcaptures => ih hbody limit state hcaptures) _ _ state
      hcaptures).andThen
    intro found _ hfound
    split
    · exact hfound
    · trivial
  | capture slot body ih =>
    obtain ⟨⟨name, hslot⟩, hbody⟩ := Node.all_iff.1 hnode
    have hbody := hbody body List.mem_cons_self
    simp only [evaluate]
    apply (ih hbody limit _ hcaptures).andThen
    intro inner hinner hsound
    apply ends_writeCapture hsound (List.getElem?_eq_some_iff.1 hslot).1
    -- A body that has begun has consumed a label, and the last one is what the capture holds.
    · intro start hbegin span capture hcapture
      rw [hslot] at hcapture
      cases hcapture
      exact Captured.sound_of_evaluate hm hbody hinner hbegin span
    · intro hproper start hbegin
      exact (path_of_evaluate hinner).begin_le_position hproper rfl hbegin
  | lookahead body negated ih =>
    have hbody := (Node.all_iff.1 hnode).2 body List.mem_cons_self
    simp only [evaluate]
    exact ends_lookAround (ih hbody limit state hcaptures) state hcaptures
  | label term =>
    obtain ⟨registered, hterm⟩ := hnode _ .refl
    simp only [evaluate]
    have haccepts (_ : Span) : Attempt.Ends m (CapturesSound table m scope.captures) (.ok (some captures)) :=
      hcaptures
    exact ends_evaluateLabel hm hterm hcaptures haccepts false
  | pinned term seek exact conditions ih =>
    obtain ⟨⟨registered, hterm⟩, hconditions⟩ := Node.all_iff.1 hnode
    simp only [evaluate]
    apply ends_evaluateLabel hm hterm hcaptures
    intro span
    exact ends_evaluateConditions
      (fun node hmem state captures hcaptures =>
        ih node hmem (hconditions node hmem) span.stop state hcaptures)
      hcaptures
  | literal literal =>
    have hliteral : literal.Resolved table scope := hnode _ .refl
    simp only [evaluate]
    exact ends_evaluateLiteral hm hliteral hcaptures

end Matcher

end TextAnnotation.Pattern
