import TextAnnotation.Proofs.Pattern.Resolution

/-!
Parsing declares whatever it resolves. A parser keeps the scope that it finds and may add to it, and every
node that it gives is resolved in the scope that it leaves.
-/

namespace TextAnnotation.Pattern

/-- A node given by a parser: the scope grew, the node is resolved in it, and only new captures occur. -/
structure Introduces (table : AliasTable) (before : Scope) (node : Node) (after : Scope) : Prop where
  grown : before.Extends after
  resolved : node.All (Node.Resolved table after)
  fresh : node.All (Node.DeclaresFrom before.captures.length)

namespace Introduces

variable {table : AliasTable} {before after : Scope}

theorem of_children {node : Node} (hgrown : before.Extends after) (hnode : node.Resolved table after)
    (hfresh : node.DeclaresFrom before.captures.length)
    (h : ∀ child ∈ node.children, Introduces table before child after) :
    Introduces table before node after where
  grown := hgrown
  resolved := Node.all_iff.2 ⟨hnode, fun child hmem => (h child hmem).resolved⟩
  fresh := Node.all_iff.2 ⟨hfresh, fun child hmem => (h child hmem).fresh⟩

theorem widen {earlier later : Scope} {node : Node} (h : Introduces table before node after)
    (hearlier : earlier.Extends before) (hlater : after.Extends later) :
    Introduces table earlier node later where
  grown := (hearlier.trans h.grown).trans hlater
  resolved := h.resolved.imp fun _ hpart => hpart.extend hlater
  fresh := by
    refine h.fresh.imp fun part hpart => ?_
    have hle := hearlier.captures.length_le
    cases part with
    | capture slot body => exact Nat.le_trans hle hpart
    | _ => trivial

/-- A capture binds whatever its body turns out to be once that has been parsed. -/
theorem capture {scope : Scope} {name : String} {body : Node}
    (h : Introduces table (scope.declare name) body after) :
    Introduces table scope (.capture scope.captures.length body)
      (after.bind scope.captures.length body.boundAlias?) := by
  have hopen := h.grown.capture (scope.capture_declare name)
  have hgrown : scope.Extends (after.bind scope.captures.length body.boundAlias?) :=
    ((scope.extends_declare name).trans h.grown).bind (Nat.le_refl _)
  have hlength : (scope.declare name).captures.length = scope.captures.length + 1 := by
    simp [Scope.declare]
  refine of_children hgrown ⟨name, Scope.capture_bind_self hopen⟩ (Nat.le_refl _) fun child hmem => ?_
  cases List.mem_singleton.1 hmem
  refine ⟨hgrown, fun part hpart => ?_, fun part hpart => ?_⟩
  · exact (h.resolved part hpart).bind hopen (hlength ▸ h.fresh part hpart)
  · have hfrom := h.fresh part hpart
    cases part with
    | capture slot inner =>
      have hle : (scope.declare name).captures.length ≤ slot := hfrom
      rw [hlength] at hle
      exact Nat.le_of_succ_le hle
    | _ => trivial

end Introduces

namespace Parse

/-- What holds of the result and of the progress made, if the parser does not refuse. -/
def Ensures (p : Parse α) (before : Progress) (Q : α → Progress → Prop) : Prop :=
  ∀ a after, p before = .ok (a, after) → Q a after

theorem Ensures.bind {p : Parse α} {f : α → Parse β} {before : Progress} {Q : β → Progress → Prop}
    (h : p.Ensures before fun a middle => (f a).Ensures middle Q) : (p >>= f).Ensures before Q := by
  intro b after hrun
  change (p before >>= fun result => f result.1 result.2) = .ok (b, after) at hrun
  rcases hp : p before with e | ⟨a, middle⟩
  · rw [hp] at hrun
    cases hrun
  · rw [hp] at hrun
    exact h a middle hp b after hrun

theorem Ensures.pure {a : α} {before : Progress} {Q : α → Progress → Prop} (h : Q a before) :
    (Pure.pure a : Parse α).Ensures before Q := by
  intro b after hrun
  cases hrun
  exact h

theorem Ensures.throw {before : Progress} {Q : α → Progress → Prop} (e : PatternError) :
    (MonadExcept.throw e : Parse α).Ensures before Q := by
  intro b after hrun
  cases hrun

theorem Ensures.get {before : Progress} {Q : Progress → Progress → Prop} (h : Q before before) :
    (MonadState.get : Parse Progress).Ensures before Q := by
  intro b after hrun
  cases hrun
  exact h

theorem Ensures.set {before after : Progress} {Q : PUnit → Progress → Prop} (h : Q ⟨⟩ after) :
    (MonadStateOf.set after : Parse PUnit).Ensures before Q := by
  intro b final hrun
  cases hrun
  exact h

theorem Ensures.imp {p : Parse α} {before : Progress} {Q R : α → Progress → Prop} (h : p.Ensures before Q)
    (hQR : ∀ a after, Q a after → R a after) : p.Ensures before R :=
  fun a after hrun => hQR a after (h a after hrun)

theorem Ensures.andThen {p : Parse α} {f : α → Parse β} {before : Progress} {R : α → Progress → Prop}
    {Q : β → Progress → Prop} (h : p.Ensures before R)
    (hf : ∀ a middle, R a middle → (f a).Ensures middle Q) : (p >>= f).Ensures before Q := .bind (h.imp hf)

/-- A parser that declares nothing. -/
def Idle (p : Parse α) : Prop := ∀ before, p.Ensures before fun _ after => after.scope = before.scope

theorem Idle.bind {p : Parse α} {f : α → Parse β} (hp : p.Idle) (hf : ∀ a, (f a).Idle) : (p >>= f).Idle := by
  intro before
  refine (hp before).andThen fun a middle hmiddle => ?_
  exact (hf a middle).imp fun b after hafter => hafter.trans hmiddle

theorem Idle.pure (a : α) : (Pure.pure a : Parse α).Idle := fun _ => .pure rfl

theorem Idle.get : (MonadState.get : Parse Progress).Idle := fun _ => .get rfl

theorem idle_current : current.Idle := Idle.get.bind fun _ => .pure _

theorem idle_offset : offset.Idle := Idle.get.bind fun _ => .pure _

theorem ensures_malformed (fault : Fault) (before : Progress) (Q : α → Progress → Prop) :
    (malformed fault).Ensures before Q := by
  exact (idle_offset before).andThen fun _ _ _ => .throw _

theorem ensures_unexpected (what : Expectation) (before : Progress) (Q : α → Progress → Prop) :
    (unexpected what).Ensures before Q := by
  exact (idle_current before).andThen fun _ next _ => ensures_malformed _ next Q

theorem idle_malformed (fault : Fault) : (malformed fault : Parse α).Idle :=
  fun before => ensures_malformed fault before _

theorem idle_unexpected (what : Expectation) : (unexpected what : Parse α).Idle :=
  fun before => ensures_unexpected what before _

theorem idle_advance : advance.Idle := by
  intro before
  apply Ensures.bind
  apply Ensures.get
  split
  · exact .set rfl
  · exact .throw _
  · exact .pure rfl

theorem idle_expect (lexeme : Lexeme) (what : Expectation) : (expect lexeme what).Idle := by
  apply idle_current.bind
  intro found
  split
  · exact idle_advance
  · exact idle_unexpected what

theorem idle_accept (lexeme : Lexeme) : (accept lexeme).Idle := by
  apply idle_current.bind
  intro found
  split
  · exact idle_advance.bind fun _ => .pure _
  · exact .pure _

theorem idle_name (what : Expectation) : (name what).Idle := by
  apply idle_current.bind
  intro found
  split
  · exact idle_offset.bind fun _ => idle_advance.bind fun _ => .pure _
  · exact idle_unexpected what

theorem idle_value : value.Idle := by
  have hfinish (found : AttributeValue) : (do advance; return found : Parse AttributeValue).Idle :=
    idle_advance.bind fun _ => .pure _
  apply idle_current.bind
  intro found
  split
  · exact (Idle.pure _).bind hfinish
  · exact (Idle.pure _).bind hfinish
  · exact (Idle.pure _).bind hfinish
  · exact (Idle.pure _).bind hfinish
  · exact (Idle.pure _).bind hfinish
  · exact (idle_unexpected _).bind hfinish

theorem idle_count : count.Idle := by
  apply idle_current.bind
  intro found
  split
  · split
    · exact idle_advance.bind fun _ => .pure _
    · exact idle_malformed _
  · exact idle_unexpected _

theorem idle_bounds : bounds.Idle := by
  apply idle_count.bind
  intro minimum
  apply (idle_accept .comma).bind
  intro comma
  extract_lets check
  have hcheck (maximum? : Option Nat) : (check maximum?).Idle := by
    unfold check
    extract_lets close
    have hclose (checked : PUnit) : (close checked).Idle := by
      apply idle_current.bind
      intro found
      split
      · exact .pure _
      · exact idle_unexpected _
    split
    · split
      · exact (idle_malformed _).bind hclose
      · exact hclose ⟨⟩
    · exact hclose ⟨⟩
  split
  · apply idle_current.bind
    intro found
    split
    · exact (Idle.pure none).bind hcheck
    · exact (idle_count.bind fun _ => .pure _).bind hcheck
  · exact (Idle.pure _).bind hcheck

theorem idle_quantifierBounds? : quantifierBounds?.Idle := by
  apply idle_current.bind
  intro found
  split
  · exact .pure _
  · exact .pure _
  · exact .pure _
  · exact idle_advance.bind fun _ => idle_bounds.bind fun _ => .pure _
  · exact .pure _

theorem idle_flagsUpTo (seek exact : Bool) (most : Nat) : (flagsUpTo seek exact most).Idle := by
  induction most generalizing seek exact with
  | zero => exact .pure _
  | succ most ih =>
    apply (idle_accept .question).bind
    intro question
    split
    · exact ih true exact
    · apply (idle_accept .bang).bind
      intro bang
      split
      · exact ih seek true
      · exact .pure _

/-- What a parser says of the things that it gives, and still says when more is declared before or after. -/
structure Lasting (P : Scope → α → Scope → Prop) : Prop where
  widen {a b c d : Scope} {x : α} : a.Extends b → P b x c → c.Extends d → P a x d

section
variable {P : Scope → α → Scope → Prop} {item : Parse α}

theorem Lasting.cons (hP : Lasting P) {a b c : Scope} {x : α} {rest : List α}
    (hfirst : a.Extends b ∧ P a x b) (hrest : b.Extends c ∧ ∀ y ∈ rest, P b y c) :
    a.Extends c ∧ ∀ y ∈ x :: rest, P a y c := by
  refine ⟨hfirst.1.trans hrest.1, List.forall_mem_cons.2 ⟨hP.widen (.refl _) hfirst.2 hrest.1, ?_⟩⟩
  intro y hy
  exact hP.widen hfirst.1 (hrest.2 y hy) (.refl _)

theorem ensures_separatedUpTo (hP : Lasting P)
    (hitem : ∀ before, item.Ensures before fun x after =>
      before.scope.Extends after.scope ∧ P before.scope x after.scope)
    (separator : Lexeme) (more : Nat) (before : Progress) :
    (separatedUpTo separator item more).Ensures before fun xs after =>
      before.scope.Extends after.scope ∧ ∀ x ∈ xs, P before.scope x after.scope := by
  induction more generalizing before with
  | zero =>
    refine (hitem before).andThen fun x after h => ?_
    exact .pure ⟨h.1, List.forall_mem_singleton.2 h.2⟩
  | succ more ih =>
    refine (hitem before).andThen fun x middle h => ?_
    refine (idle_accept separator middle).andThen fun found next hnext => ?_
    rw [← hnext] at h
    split
    · refine (ih next).andThen fun rest after hrest => ?_
      exact .pure (hP.cons h hrest)
    · exact .pure ⟨h.1, List.forall_mem_singleton.2 h.2⟩

theorem ensures_separated (hP : Lasting P)
    (hitem : ∀ before, item.Ensures before fun x after =>
      before.scope.Extends after.scope ∧ P before.scope x after.scope)
    (separator : Lexeme) (before : Progress) :
    (separated separator item).Ensures before fun xs after =>
      before.scope.Extends after.scope ∧ ∀ x ∈ xs, P before.scope x after.scope := by
  apply Ensures.bind
  apply Ensures.get
  exact ensures_separatedUpTo hP hitem separator _ before

theorem ensures_untilEndUpTo (hP : Lasting P)
    (hitem : ∀ before, item.Ensures before fun x after =>
      before.scope.Extends after.scope ∧ P before.scope x after.scope)
    (most : Nat) (before : Progress) :
    (untilEndUpTo item most).Ensures before fun xs after =>
      before.scope.Extends after.scope ∧ ∀ x ∈ xs, P before.scope x after.scope := by
  induction most generalizing before with
  | zero => exact .pure ⟨.refl _, by simp⟩
  | succ most ih =>
    refine (idle_current before).andThen fun found next hnext => ?_
    rw [← hnext]
    split
    · exact .pure ⟨.refl _, by simp⟩
    · refine (hitem next).andThen fun x middle h => ?_
      refine (ih middle).andThen fun rest after hrest => ?_
      exact .pure (hP.cons h hrest)

theorem ensures_untilEnd (hP : Lasting P)
    (hitem : ∀ before, item.Ensures before fun x after =>
      before.scope.Extends after.scope ∧ P before.scope x after.scope)
    (before : Progress) :
    (untilEnd item).Ensures before fun xs after =>
      before.scope.Extends after.scope ∧ ∀ x ∈ xs, P before.scope x after.scope := by
  apply Ensures.bind
  apply Ensures.get
  exact ensures_untilEndUpTo hP hitem _ before

end

theorem ensures_kindSlot (kind : LabelKind) (before : Progress) :
    (kindSlot kind).Ensures before fun slot after =>
      before.scope.Extends after.scope ∧ after.scope.kinds[slot]? = some kind := by
  apply Ensures.bind
  apply Ensures.get
  split
  · rename_i slot hslot
    apply Ensures.pure
    refine ⟨.refl _, ?_⟩
    obtain ⟨hlt, hkind, _⟩ := List.findIdx?_eq_some_iff_getElem.1 hslot
    exact List.getElem?_eq_some_iff.2 ⟨hlt, beq_iff_eq.1 hkind⟩
  · apply Ensures.bind
    apply Ensures.set
    apply Ensures.pure
    exact ⟨⟨List.prefix_append _ _, List.prefix_rfl⟩, by simp [Progress.scope]⟩

theorem ensures_declareCapture (name : String) (offset : Nat) (before : Progress) :
    (declareCapture name offset).Ensures before fun slot after =>
      slot = before.scope.captures.length ∧ after.scope = before.scope.declare name := by
  apply Ensures.bind
  apply Ensures.get
  split
  · exact .throw _
  · apply Ensures.bind
    apply Ensures.set
    exact .pure ⟨rfl, rfl⟩

theorem ensures_bindAlias (slot : Nat) (boundAlias? : Option String) (before : Progress) :
    (bindAlias slot boundAlias?).Ensures before fun _ after =>
      after.scope = before.scope.bind slot boundAlias? := by
  intro _ after hrun
  cases hrun
  rfl

section
variable {table : AliasTable}

/-- References leave the scope alone. What they name is declared in it. -/
theorem ensures_captured (before : Progress) :
    (captured table).Ensures before fun expected after =>
      after.scope = before.scope ∧ expected.Resolved table after.scope := by
  refine (idle_name .captureName before).andThen fun found middle hmiddle => ?_
  apply Ensures.bind
  apply Ensures.get
  dsimp only
  split
  · exact .throw _
  rename_i slot hslot
  refine (idle_accept .dot middle).andThen fun dot next hnext => ?_
  obtain ⟨hlt, hname, _⟩ := List.findIdx?_eq_some_iff_getElem.1 hslot
  have hcapture : middle.scope.captures[slot]? = some middle.captures[slot] :=
    List.getElem?_eq_getElem hlt
  split
  · refine (idle_name .accessor next).andThen fun accessor after hafter => ?_
    split
    · exact .throw _
    rename_i kindAlias hkindAlias
    split
    · exact .throw _
    rename_i read hread
    apply Ensures.pure
    rw [hafter, hnext]
    rw [List.getElem?_eq_getElem hlt] at hkindAlias
    exact ⟨hmiddle, _, kindAlias, hcapture, beq_iff_eq.1 hname, hkindAlias, hread⟩
  · apply Ensures.pure
    rw [hnext]
    exact ⟨hmiddle, _, hcapture, beq_iff_eq.1 hname⟩

theorem ensures_predicate (kindAlias : String) (registered : RegisteredKind) (before : Progress) :
    (predicate table kindAlias registered).Ensures before fun predicate after =>
      after.scope = before.scope ∧ registered.accessors.find? predicate.accessor = some predicate.read ∧
        predicate.expected.Resolved table after.scope := by
  refine (idle_name .accessor before).andThen fun accessor middle hmiddle => ?_
  dsimp only
  split
  · exact .throw _
  rename_i read hread
  refine (idle_expect .equals .equals middle).andThen fun _ next hnext => ?_
  refine (idle_accept .dollar next).andThen fun dollar later hlater => ?_
  have hscope : later.scope = before.scope := by rw [hlater, hnext, hmiddle]
  split
  · refine (ensures_captured later).andThen fun expected after hafter => ?_
    apply Ensures.pure
    exact ⟨hafter.1.trans hscope, hread, hafter.2⟩
  · refine (idle_value later).andThen fun value after hafter => ?_
    apply Ensures.bind
    apply Ensures.pure
    apply Ensures.pure
    exact ⟨hafter.trans hscope, hread, trivial⟩

theorem lasting_predicate (table : AliasTable) (registered : RegisteredKind) :
    Lasting fun (_ : Scope) (predicate : Predicate) (after : Scope) =>
      registered.accessors.find? predicate.accessor = some predicate.read ∧
        predicate.expected.Resolved table after where
  widen _ h hlater := ⟨h.1, h.2.extend hlater⟩

theorem ensures_labelTerm (kindAlias : String) (offset : Nat) (before : Progress) :
    (labelTerm table kindAlias offset).Ensures before fun term after =>
      before.scope.Extends after.scope ∧ term.kindAlias = kindAlias ∧
        ∃ registered, term.Resolved table after.scope registered := by
  unfold labelTerm
  split
  · exact .throw _
  rename_i registered hregistered
  refine (ensures_kindSlot registered.kind before).andThen fun slot middle hmiddle => ?_
  refine (idle_accept .leftAngle middle).andThen fun angle next hnext => ?_
  rw [← hnext] at hmiddle
  split
  · apply Ensures.bind
    have hitem (progress : Progress) : (predicate table kindAlias registered).Ensures progress
        fun predicate after => progress.scope.Extends after.scope ∧
          registered.accessors.find? predicate.accessor = some predicate.read ∧
            predicate.expected.Resolved table after.scope := by
      refine (ensures_predicate kindAlias registered progress).imp fun predicate after h => ⟨?_, h.2⟩
      rw [h.1]
      exact .refl _
    refine (ensures_separated (lasting_predicate table registered) hitem .comma next).imp
      fun predicates later hlater => ?_
    refine (idle_expect .rightAngle .closingAngle later).andThen fun _ after hafter => ?_
    rw [← hafter] at hlater
    apply Ensures.pure
    refine ⟨hmiddle.1.trans hlater.1, rfl, registered, hregistered, hlater.1.kind hmiddle.2, ?_, ?_⟩
    · exact fun predicate hmem => (hlater.2 predicate hmem).1
    · exact fun predicate hmem => (hlater.2 predicate hmem).2
  · apply Ensures.pure
    exact ⟨hmiddle.1, rfl, registered, hregistered, hmiddle.2, by simp, by simp⟩

theorem ensures_literal (text : String) (offset : Nat) (before : Progress) :
    (literal table text offset).Ensures before fun node after =>
      Introduces table before.scope node after.scope := by
  unfold literal
  split
  · exact .throw _
  rename_i read hread
  refine (ensures_kindSlot read.kind before).andThen fun slot after hafter => ?_
  dsimp only
  split
  · exact .throw _
  rename_i hnonempty
  apply Ensures.pure
  exact .of_children hafter.1 ⟨hread, hafter.2, rfl, hnonempty⟩ trivial (by simp [Node.children])

theorem ensures_label (kindAlias : String) (offset : Nat) (before : Progress) :
    (do return Node.label (← labelTerm table kindAlias offset) : Parse Node).Ensures before
      fun node after => Introduces table before.scope node after.scope := by
  refine (ensures_labelTerm kindAlias offset before).andThen fun term after hafter => ?_
  apply Ensures.pure
  exact .of_children hafter.1 hafter.2.2 trivial (by simp [Node.children])

theorem ensures_quantified {scope : Scope} {node : Node} {before : Progress}
    (hnode : Introduces table scope node before.scope) :
    (quantified node).Ensures before fun node after => Introduces table scope node after.scope := by
  refine (idle_quantifierBounds? before).andThen fun found next hnext => ?_
  split
  · rw [← hnext] at hnode
    exact .pure hnode
  rename_i minimum maximum?
  have hfinish (progress : Progress) (hscope : progress.scope = before.scope) :
      (Pure.pure (.repetition node minimum maximum?) : Parse Node).Ensures progress fun node after =>
        Introduces table scope node after.scope := by
    apply Ensures.pure
    rw [hscope]
    exact .of_children hnode.grown trivial trivial (List.forall_mem_singleton.2 hnode)
  refine (idle_advance next).andThen fun _ middle hmiddle => ?_
  refine (idle_current middle).andThen fun lexeme later hlater => ?_
  have hscope : later.scope = before.scope := by rw [hlater, hmiddle, hnext]
  dsimp only
  split
  · exact (idle_advance later).andThen fun _ final hfinal => hfinish final (hfinal.trans hscope)
  · apply Ensures.bind
    exact ensures_malformed _ later _
  · exact hfinish later hscope

/-- A parser that introduces the node that it gives. -/
def Introducing (table : AliasTable) (p : Parse Node) : Prop :=
  ∀ before, p.Ensures before fun node after => Introduces table before.scope node after.scope

theorem lasting_introduces (table : AliasTable) : Lasting (Introduces table) where
  widen hearlier h hlater := h.widen hearlier hlater

theorem ensures_nodes {p : Parse Node} (hp : Introducing table p) (before : Progress) :
    p.Ensures before fun node after =>
      before.scope.Extends after.scope ∧ Introduces table before.scope node after.scope :=
  (hp before).imp fun _ _ h => ⟨h.grown, h⟩

theorem introducing_lookahead {inner : Parse Node} (hinner : Introducing table inner) :
    Introducing table (lookahead inner) := by
  intro before
  have hrest (negated : Bool) (progress : Progress) (hscope : progress.scope = before.scope) :
      (do
        advance
        let body ← inner
        expect .rightParen .closingParen
        return .lookahead body negated : Parse Node).Ensures progress fun node after =>
          Introduces table before.scope node after.scope := by
    refine (idle_advance progress).andThen fun _ next hnext => ?_
    refine (hinner next).andThen fun body middle hbody => ?_
    refine (idle_expect .rightParen .closingParen middle).andThen fun _ after hafter => ?_
    apply Ensures.pure
    rw [hafter]
    rw [hnext, hscope] at hbody
    exact .of_children hbody.grown trivial trivial (List.forall_mem_singleton.2 hbody)
  refine (idle_current before).andThen fun found middle hmiddle => ?_
  dsimp only
  split
  · exact hrest false middle hmiddle
  · exact hrest true middle hmiddle
  · apply Ensures.bind
    exact ensures_unexpected _ middle _

/-- The head of a pinned label: its term, and its capture if it has one. -/
structure Pins (table : AliasTable) (before : Scope) (capture? : Option Nat) (term : LabelTerm)
    (after : Scope) : Prop where
  grown : before.Extends after
  resolved : ∃ registered, term.Resolved table after registered
  capture : ∀ slot, capture? = some slot → before.captures.length ≤ slot ∧
    ∃ name, after.captures[slot]? = some ⟨name, some term.kindAlias⟩

theorem Pins.extend {before after later : Scope} {capture? : Option Nat} {term : LabelTerm}
    (h : Pins table before capture? term after) (hlater : after.Extends later) :
    Pins table before capture? term later where
  grown := h.grown.trans hlater
  resolved := by
    obtain ⟨registered, hterm⟩ := h.resolved
    exact ⟨registered, hterm.extend hlater⟩
  capture slot hslot := by
    obtain ⟨hle, name, hcapture⟩ := h.capture slot hslot
    exact ⟨hle, name, hlater.capture hcapture⟩

theorem ensures_pinnedEnd {before : Scope} {capture? : Option Nat} {term : LabelTerm} {progress : Progress}
    (h : Pins table before capture? term progress.scope) (seek exact : Bool) {conditions : List Node}
    (hconditions : ∀ condition ∈ conditions, Introduces table before condition progress.scope) :
    (do
      expect .rightBracket .closingBracket
      let node := Node.pinned term seek exact conditions
      match capture? with
      | some slot => return .capture slot node
      | none => return node : Parse Node).Ensures progress fun node after =>
        Introduces table before node after.scope := by
  have hnode : Introduces table before (.pinned term seek exact conditions) progress.scope :=
    .of_children h.grown h.resolved trivial hconditions
  refine (idle_expect .rightBracket .closingBracket progress).andThen fun _ after hafter => ?_
  rw [← hafter] at hnode h
  dsimp only
  split
  · obtain ⟨hle, name, hcapture⟩ := h.capture _ rfl
    apply Ensures.pure
    exact .of_children h.grown ⟨name, hcapture⟩ hle (List.forall_mem_singleton.2 hnode)
  · exact .pure hnode

theorem ensures_pinnedConditions {inner : Parse Node} (hinner : Introducing table inner) {before : Scope}
    {capture? : Option Nat} {term : LabelTerm} {progress : Progress}
    (h : Pins table before capture? term progress.scope) (seek exact : Bool) :
    (do
      let conditions ← if (← current) = .rightBracket then Pure.pure [] else separated .ampersand inner
      expect .rightBracket .closingBracket
      let node := Node.pinned term seek exact conditions
      match capture? with
      | some slot => return .capture slot node
      | none => return node : Parse Node).Ensures progress fun node after =>
        Introduces table before node after.scope := by
  refine (idle_current progress).andThen fun found next hnext => ?_
  rw [← hnext] at h
  dsimp only
  split
  · exact ensures_pinnedEnd h seek exact (by simp)
  · refine (ensures_separated (lasting_introduces table) (ensures_nodes hinner) .ampersand next).andThen
      fun conditions after hafter => ?_
    apply ensures_pinnedEnd (h.extend hafter.1) seek exact
    intro condition hmem
    exact (hafter.2 condition hmem).widen h.grown (.refl _)

theorem introducing_pinned {inner : Parse Node} (hinner : Introducing table inner) :
    Introducing table (pinned table inner) := by
  intro before
  apply Ensures.bind
  apply Ensures.get
  refine (idle_flagsUpTo false false _ before).andThen fun flags next hnext => ?_
  refine (idle_name .labelKind next).andThen fun found middle hmiddle => ?_
  obtain ⟨seek, exact⟩ := flags
  obtain ⟨name, offset⟩ := found
  dsimp only
  refine (idle_accept .colon middle).andThen fun colon opened hopened => ?_
  have hscope : opened.scope = before.scope := by rw [hopened, hmiddle, hnext]
  split
  · refine (ensures_declareCapture name offset opened).andThen fun slot declared hdeclared => ?_
    obtain ⟨rfl, hdeclared⟩ := hdeclared
    refine (idle_name .labelKind declared).andThen fun label named hnamed => ?_
    obtain ⟨kindAlias, aliasOffset⟩ := label
    dsimp only
    refine (ensures_bindAlias _ _ named).andThen fun _ bound hbound => ?_
    refine (ensures_labelTerm kindAlias aliasOffset bound).andThen fun term after hterm => ?_
    apply Ensures.bind
    apply Ensures.pure
    rw [hbound, hnamed, hdeclared, hscope] at hterm
    rw [hscope]
    obtain ⟨hgrown, rfl, hresolved⟩ := hterm
    -- The capture is bound before the predicates of its own label are parsed, which may refer to it.
    have hopen := before.scope.capture_declare name
    have hpins : Pins table before.scope (some before.scope.captures.length) term after.scope := by
      refine ⟨((before.scope.extends_declare name).bind (Nat.le_refl _)).trans hgrown, hresolved, ?_⟩
      intro slot hslot
      cases hslot
      exact ⟨Nat.le_refl _, name, hgrown.capture (Scope.capture_bind_self hopen)⟩
    exact ensures_pinnedConditions hinner hpins seek exact
  · refine (ensures_labelTerm name offset opened).andThen fun term after hterm => ?_
    apply Ensures.bind
    apply Ensures.pure
    rw [hscope] at hterm
    have hpins : Pins table before.scope none term after.scope := ⟨hterm.1, hterm.2.2, nofun⟩
    exact ensures_pinnedConditions hinner hpins seek exact

theorem introducing_enclosed {inner : Parse Node} (hinner : Introducing table inner) :
    Introducing table (enclosed table inner) := by
  intro before
  refine (idle_current before).andThen fun found next hnext => ?_
  rw [← hnext]
  split
  · refine (idle_advance next).andThen fun _ middle hmiddle => ?_
    rw [← hmiddle]
    refine (idle_accept .question middle).andThen fun question later hlater => ?_
    rw [← hlater]
    split
    · exact introducing_lookahead hinner later
    · refine (hinner later).andThen fun node last hnode => ?_
      refine (idle_expect .rightParen .closingParen last).andThen fun _ after hafter => ?_
      rw [← hafter] at hnode
      exact .pure hnode
  · refine (idle_advance next).andThen fun _ middle hmiddle => ?_
    rw [← hmiddle]
    exact introducing_pinned hinner middle
  · refine (idle_offset next).andThen fun offset middle hmiddle => ?_
    refine (idle_advance middle).andThen fun _ later hlater => ?_
    rw [← hmiddle, ← hlater]
    exact ensures_literal _ offset later
  · exact ensures_unexpected _ next _

theorem introducing_primary {inner : Parse Node} (hinner : Introducing table inner) :
    Introducing table (primary table inner) := by
  intro before
  refine (idle_current before).andThen fun found next hnext => ?_
  rw [← hnext]
  split
  · refine (idle_offset next).andThen fun offset middle hmiddle => ?_
    refine (idle_advance middle).andThen fun _ later hlater => ?_
    rw [← hmiddle, ← hlater]
    exact ensures_label _ offset later
  · exact introducing_enclosed hinner next

theorem introducing_element {inner : Parse Node} (hinner : Introducing table inner) :
    Introducing table (element table inner) := by
  intro before
  refine (idle_current before).andThen fun found next hnext => ?_
  rw [← hnext]
  split
  · refine (idle_advance next).andThen fun _ after hafter => ?_
    apply Ensures.pure
    rw [hafter]
    exact .of_children (.refl _) trivial trivial (by simp [Node.children])
  · rename_i name
    refine (idle_offset next).andThen fun offset middle hmiddle => ?_
    refine (idle_advance middle).andThen fun _ later hlater => ?_
    refine (idle_accept .colon later).andThen fun colon opened hopened => ?_
    rw [← hmiddle, ← hlater, ← hopened]
    split
    · refine (ensures_declareCapture name offset opened).andThen fun slot declared hdeclared => ?_
      obtain ⟨rfl, hdeclared⟩ := hdeclared
      -- While its body is parsed, it is not known what the capture will hold.
      refine (introducing_primary hinner declared).andThen fun node named hnode => ?_
      refine (ensures_quantified hnode).andThen fun body bound hbody => ?_
      refine (ensures_bindAlias _ _ bound).andThen fun _ after hafter => ?_
      apply Ensures.pure
      rw [hafter]
      rw [hdeclared] at hbody
      exact hbody.capture
    · refine (ensures_labelTerm name offset opened).andThen fun term named hterm => ?_
      apply ensures_quantified
      exact .of_children hterm.1 hterm.2.2 trivial (by simp [Node.children])
  · refine (introducing_enclosed hinner next).andThen fun node named hnode => ?_
    exact ensures_quantified hnode

theorem introducing_sequence {inner : Parse Node} (hinner : Introducing table inner) :
    Introducing table (sequence table inner) := by
  intro before
  have helements := ensures_nodes (introducing_element hinner)
  refine (ensures_untilEnd (lasting_introduces table) helements before).andThen fun elements after hafter => ?_
  split
  · exact ensures_unexpected _ after _
  · exact .pure (hafter.2 _ List.mem_cons_self)
  · apply Ensures.pure
    exact .of_children hafter.1 trivial trivial hafter.2

theorem introducing_alternation (table : AliasTable) (depth : Nat) :
    Introducing table (alternation table depth) := by
  induction depth with
  | zero => exact fun before => ensures_unexpected _ before _
  | succ depth ih =>
    intro before
    refine (ensures_separated (lasting_introduces table) (ensures_nodes (introducing_sequence ih)) .pipe
      before).andThen fun alternatives after hafter => ?_
    split
    · exact .pure (hafter.2 _ List.mem_cons_self)
    · apply Ensures.pure
      exact .of_children hafter.1 trivial trivial hafter.2

end

end Parse

/-- What parsing a text has declared in the end. -/
def parsedScope? (table : AliasTable) (source : String) : Option Scope :=
  match lex source with
  | ⟨[], _⟩ => none
  | ⟨first :: ahead, failure?⟩ =>
    ((Parse.alternation table (ahead.length + 2)).run { current := first, ahead, failure? }).toOption.map
      fun (_, progress) => progress.scope

/-- Whatever a parsed pattern refers to has been declared. -/
theorem resolved_of_parse {table : AliasTable} {source : String} {pattern : Pattern}
    (h : parse table source = .ok pattern) :
    ∃ scope, parsedScope? table source = some scope ∧ scope.kinds = pattern.kinds ∧
      scope.captures.map (·.name) = pattern.captureNames ∧ pattern.root.All (Node.Resolved table scope) := by
  unfold parse at h
  unfold parsedScope?
  generalize lex source = lexed at h ⊢
  obtain ⟨_ | ⟨first, ahead⟩, failure?⟩ := lexed
  · cases h
  have hintroduces := Parse.introducing_alternation table (ahead.length + 2)
    { current := first, ahead, failure? }
  rcases hrun : Parse.alternation table (ahead.length + 2) { current := first, ahead, failure? } with
    e | ⟨root, progress⟩
  · simp [StateT.run, hrun, bind, Except.bind] at h
  simp only [StateT.run, hrun, bind, Except.bind] at h
  split at h
  · cases h
    refine ⟨progress.scope, ?_, rfl, rfl, (hintroduces root progress hrun).resolved⟩
    simp only [StateT.run, hrun, Except.toOption, Option.map_some]
  · cases h

end TextAnnotation.Pattern
