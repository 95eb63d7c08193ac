import Mathlib.Logic.Relation
import TextAnnotation.Pattern.Parser

/-!
What the names of a pattern stand for. A node is resolved in a scope if its aliases, accessors, kinds and
captures are those that the scope declares; that does not change when the scope declares more.
-/

namespace TextAnnotation.Pattern

/-- The kinds and the captures that a pattern has declared. -/
structure Scope where
  kinds : List LabelKind
  captures : List DeclaredCapture

def Progress.scope (progress : Progress) : Scope := ⟨progress.kinds, progress.captures⟩

structure Scope.Extends (earlier later : Scope) : Prop where
  kinds : earlier.kinds <+: later.kinds
  captures : earlier.captures <+: later.captures

namespace Node

/-- The nodes directly under a node. -/
def children : Node → List Node
  | .sequence elements => elements
  | .alternation alternatives => alternatives
  | .repetition body _ _ => [body]
  | .capture _ body => [body]
  | .lookahead body _ => [body]
  | .pinned _ _ _ conditions => conditions
  | .adjacent => []
  | .label _ => []
  | .literal _ => []

/-- A node of which another one is built, or that node itself. -/
abbrev Part : Node → Node → Prop := Relation.ReflTransGen fun node child => child ∈ node.children

def All (P : Node → Prop) (node : Node) : Prop := ∀ part, node.Part part → P part

/-- The term of a node that takes one label. -/
def term? : Node → Option LabelTerm
  | .label term => some term
  | .pinned term _ _ _ => some term
  | _ => none

theorem all_iff {P : Node → Prop} {node : Node} :
    node.All P ↔ P node ∧ ∀ child ∈ node.children, child.All P := by
  constructor
  · intro h
    refine ⟨h node .refl, fun child hchild part hpart => ?_⟩
    exact h part (.head hchild hpart)
  · intro h part hpart
    rcases Relation.ReflTransGen.cases_head hpart with rfl | ⟨child, hchild, hrest⟩
    · exact h.1
    · exact h.2 child hchild part hrest

theorem All.imp {P Q : Node → Prop} {node : Node} (h : node.All P) (hPQ : ∀ part, P part → Q part) :
    node.All Q :=
  fun part hpart => hPQ part (h part hpart)

end Node

def Expected.Resolved (table : AliasTable) (scope : Scope) : Expected → Prop
  | .value _ => True
  | .spanOf name slot => ∃ capture, scope.captures[slot]? = some capture ∧ capture.name = name
  | .readingOf name slot accessor read =>
    ∃ capture kindAlias, scope.captures[slot]? = some capture ∧ capture.name = name ∧
      capture.boundAlias? = some kindAlias ∧ table.accessor? kindAlias accessor = some read

structure LabelTerm.Resolved (table : AliasTable) (scope : Scope) (term : LabelTerm)
    (registered : RegisteredKind) : Prop where
  kindAlias : table.find? term.kindAlias = some registered
  slot : scope.kinds[term.slot]? = some registered.kind
  reads : ∀ predicate ∈ term.predicates, registered.accessors.find? predicate.accessor = some predicate.read
  expected : ∀ predicate ∈ term.predicates, predicate.expected.Resolved table scope

structure Literal.Resolved (table : AliasTable) (scope : Scope) (literal : Literal) : Prop where
  read : table.tokenText? = some literal.read
  slot : scope.kinds[literal.slot]? = some literal.read.kind
  eq_ofText : literal = .ofText literal.text literal.slot literal.read
  nonempty : literal.wordCount ≠ 0

def Node.Resolved (table : AliasTable) (scope : Scope) : Node → Prop
  | .label term => ∃ registered, term.Resolved table scope registered
  | .pinned term _ _ _ => ∃ registered, term.Resolved table scope registered
  | .literal words => words.Resolved table scope
  | .capture slot body => ∃ name, scope.captures[slot]? = some ⟨name, body.boundAlias?⟩
  | _ => True

theorem Node.Resolved.term {table : AliasTable} {scope : Scope} {node : Node} {term : LabelTerm}
    (h : node.Resolved table scope) (hterm : node.term? = some term) :
    ∃ registered, term.Resolved table scope registered := by
  cases node with
  | label other =>
    cases hterm
    exact h
  | pinned other seek exact conditions =>
    cases hterm
    exact h
  | _ => cases hterm

/-- A node declares captures from a first slot on only. -/
def Node.DeclaresFrom (first : Nat) : Node → Prop
  | .capture slot _ => first ≤ slot
  | _ => True

theorem Scope.Extends.refl (scope : Scope) : scope.Extends scope := ⟨List.prefix_rfl, List.prefix_rfl⟩

theorem Scope.Extends.trans {a b c : Scope} (hab : a.Extends b) (hbc : b.Extends c) : a.Extends c :=
  ⟨hab.kinds.trans hbc.kinds, hab.captures.trans hbc.captures⟩

section
variable {table : AliasTable} {scope later : Scope}

theorem Scope.Extends.kind (h : scope.Extends later) {slot : Nat} {kind : LabelKind}
    (hkind : scope.kinds[slot]? = some kind) : later.kinds[slot]? = some kind := by
  obtain ⟨hslot, rfl⟩ := List.getElem?_eq_some_iff.1 hkind
  exact List.prefix_iff_getElem?.1 h.kinds slot hslot

theorem Scope.Extends.capture (h : scope.Extends later) {slot : Nat} {capture : DeclaredCapture}
    (hcapture : scope.captures[slot]? = some capture) : later.captures[slot]? = some capture := by
  obtain ⟨hslot, rfl⟩ := List.getElem?_eq_some_iff.1 hcapture
  exact List.prefix_iff_getElem?.1 h.captures slot hslot

theorem Expected.Resolved.extend {expected : Expected} (h : expected.Resolved table scope)
    (hlater : scope.Extends later) : expected.Resolved table later := by
  cases expected with
  | value => trivial
  | spanOf name slot =>
    obtain ⟨capture, hcapture, hname⟩ := h
    exact ⟨capture, hlater.capture hcapture, hname⟩
  | readingOf name slot accessor read =>
    obtain ⟨capture, kindAlias, hcapture, hrest⟩ := h
    exact ⟨capture, kindAlias, hlater.capture hcapture, hrest⟩

theorem LabelTerm.Resolved.extend {term : LabelTerm} {registered : RegisteredKind}
    (h : term.Resolved table scope registered) (hlater : scope.Extends later) :
    term.Resolved table later registered where
  kindAlias := h.kindAlias
  slot := hlater.kind h.slot
  reads := h.reads
  expected predicate hmem := (h.expected predicate hmem).extend hlater

theorem Node.Resolved.extend {node : Node} (h : node.Resolved table scope) (hlater : scope.Extends later) :
    node.Resolved table later := by
  cases node with
  | label term =>
    obtain ⟨registered, hterm⟩ := h
    exact ⟨registered, hterm.extend hlater⟩
  | pinned term seek exact conditions =>
    obtain ⟨registered, hterm⟩ := h
    exact ⟨registered, hterm.extend hlater⟩
  | literal literal => exact ⟨h.read, hlater.kind h.slot, h.eq_ofText, h.nonempty⟩
  | capture slot body =>
    obtain ⟨name, hcapture⟩ := h
    exact ⟨name, hlater.capture hcapture⟩
  | _ => trivial

end

/-- The scope with an open capture more, of which it is not known yet what it binds. -/
def Scope.declare (scope : Scope) (name : String) : Scope where
  kinds := scope.kinds
  captures := scope.captures ++ [{ name }]

/-- The scope in which a capture that was open so far is known to bind the labels of an alias. -/
def Scope.bind (scope : Scope) (slot : Nat) (boundAlias? : Option String) : Scope where
  kinds := scope.kinds
  captures := scope.captures.modify slot fun capture => { capture with boundAlias? }

section
variable {table : AliasTable} {scope : Scope} {slot : Nat} {name : String} {boundAlias? : Option String}

theorem Scope.capture_bind_of_ne {other : Nat} (hne : other ≠ slot) :
    (scope.bind slot boundAlias?).captures[other]? = scope.captures[other]? := by
  simp only [Scope.bind, List.getElem?_modify, if_neg hne.symm, id_map']

theorem Scope.capture_bind_self (hopen : scope.captures[slot]? = some ⟨name, none⟩) :
    (scope.bind slot boundAlias?).captures[slot]? = some ⟨name, boundAlias?⟩ := by
  simp [Scope.bind, hopen]

theorem Scope.extends_declare (scope : Scope) (name : String) : scope.Extends (scope.declare name) :=
  ⟨List.prefix_rfl, List.prefix_append _ _⟩

theorem Scope.capture_declare (scope : Scope) (name : String) :
    (scope.declare name).captures[scope.captures.length]? = some ⟨name, none⟩ := by
  simp [Scope.declare]

theorem Scope.Extends.bind {earlier : Scope} (h : earlier.Extends scope)
    (hslot : earlier.captures.length ≤ slot) : earlier.Extends (scope.bind slot boundAlias?) := by
  refine ⟨h.kinds, List.prefix_iff_getElem?.2 fun other hother => ?_⟩
  rw [Scope.capture_bind_of_ne (by omega)]
  exact List.prefix_iff_getElem?.1 h.captures other hother

theorem Expected.Resolved.bind {expected : Expected} (h : expected.Resolved table scope)
    (hopen : scope.captures[slot]? = some ⟨name, none⟩) :
    expected.Resolved table (scope.bind slot boundAlias?) := by
  cases expected with
  | value => trivial
  | spanOf other found =>
    obtain ⟨capture, hcapture, hname⟩ := h
    by_cases hfound : found = slot
    · subst hfound
      rw [hopen] at hcapture
      cases hcapture
      exact ⟨_, Scope.capture_bind_self hopen, hname⟩
    · exact ⟨capture, by rwa [Scope.capture_bind_of_ne hfound], hname⟩
  | readingOf other found accessor read =>
    obtain ⟨capture, kindAlias, hcapture, hname, hbound, hread⟩ := h
    have hfound : found ≠ slot := by
      intro heq
      rw [heq, hopen] at hcapture
      cases hcapture
      cases hbound
    exact ⟨capture, kindAlias, by rwa [Scope.capture_bind_of_ne hfound], hname, hbound, hread⟩

theorem LabelTerm.Resolved.bind {term : LabelTerm} {registered : RegisteredKind}
    (h : term.Resolved table scope registered) (hopen : scope.captures[slot]? = some ⟨name, none⟩) :
    term.Resolved table (scope.bind slot boundAlias?) registered where
  kindAlias := h.kindAlias
  slot := h.slot
  reads := h.reads
  expected predicate hmem := (h.expected predicate hmem).bind hopen

/-- A reference to an open capture asks for its span only, so the binding of the capture changes nothing. -/
theorem Node.Resolved.bind {node : Node} (h : node.Resolved table scope)
    (hopen : scope.captures[slot]? = some ⟨name, none⟩) (hfrom : node.DeclaresFrom (slot + 1)) :
    node.Resolved table (scope.bind slot boundAlias?) := by
  cases node with
  | label term =>
    obtain ⟨registered, hterm⟩ := h
    exact ⟨registered, hterm.bind hopen⟩
  | pinned term seek exact conditions =>
    obtain ⟨registered, hterm⟩ := h
    exact ⟨registered, hterm.bind hopen⟩
  | literal literal => exact ⟨h.read, h.slot, h.eq_ofText, h.nonempty⟩
  | capture other body =>
    obtain ⟨found, hcapture⟩ := h
    have hne : other ≠ slot := Nat.ne_of_gt hfrom
    exact ⟨found, by rwa [Scope.capture_bind_of_ne hne]⟩
  | _ => trivial

end

end TextAnnotation.Pattern
