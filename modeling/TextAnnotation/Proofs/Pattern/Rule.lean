import TextAnnotation.Proofs.Pattern.Progress

/-!
The rules of the grammar as parsers follow them. A rule is given by its derivations; series of derivations, and
derivations that stand for something else, are derivations of other rules.
-/

namespace TextAnnotation.Pattern.Grammar

/-- A rule by its derivations: what each of them spells, what it mentions, and what it stands for after what has
been mentioned before it. -/
structure Rule (α β : Type) where
  spell : α → List Lexeme
  mentions : α → List Mention
  resolve? : List Mention → α → Option β

namespace Rule

/-- One derivation or more, with lexemes between them. -/
def series (separator : List Lexeme) (rule : Rule α β) : Rule (Series α) (List β) where
  spell := Series.spell separator rule.spell
  mentions := Series.mentions rule.mentions
  resolve? := Series.resolve? rule.mentions rule.resolve?

def map (f : β → γ) (rule : Rule α β) : Rule α γ where
  spell := rule.spell
  mentions := rule.mentions
  resolve? before tree := (rule.resolve? before tree).map f

/-- A derivation, or nothing. -/
def optional (rule : Rule α (List β)) : Rule (Option α) (List β) where
  spell tree? := tree?.elim [] rule.spell
  mentions tree? := tree?.elim [] rule.mentions
  resolve? before tree? := tree?.elim (some []) (rule.resolve? before)

/-- A derivation has been read off the front of lexemes, with every mention permitted. -/
def Derived (rule : Rule α β) (table : AliasTable) (lexemes : List Lexeme) (past : List Mention) (b : β)
    (after : Progress) : Prop :=
  ∃ tree rest, lexemes = rule.spell tree ++ rest ∧ Permitted table past (rule.mentions tree) ∧
    rule.resolve? past tree = some b ∧ after.At table rest (past ++ rule.mentions tree)

/-- A parser that gives nothing but what derivations of the rule stand for. -/
def Sound (rule : Rule α β) (table : AliasTable) (p : Parse β) : Prop :=
  ∀ ⦃left past before⦄, before.At table left past → p.Ensures before (rule.Derived table left past)

/-- A parser gives what a derivation stands for, and leaves the lexemes after it. -/
def Gives (rule : Rule α β) (table : AliasTable) (tree : α) (rest : List Lexeme) (past : List Mention)
    (p : Parse β) (before : Progress) : Prop :=
  p.Succeeds before fun b after => rule.resolve? past tree = some b ∧ after.At table rest (past ++ rule.mentions tree)

/-- A parser that gives what a derivation stands for wherever the derivation is permitted, unless the lexeme after
it could belong to it. -/
def Accepts (rule : Rule α β) (table : AliasTable) (follows : Lexeme → Prop) (p : Parse β) (tree : α) : Prop :=
  ∀ ⦃next rest past before⦄, before.At table (rule.spell tree ++ next :: rest) past → follows next →
    Permitted table past (rule.mentions tree) → rule.Gives table tree (next :: rest) past p before

end Rule

section
variable (table : AliasTable)

def operandRule : Rule Operand Expected := ⟨Operand.spell, Operand.mentions, Operand.resolve? table⟩

def predicateRule (kindAlias : String) : Rule Predicate Pattern.Predicate :=
  ⟨Predicate.spell, Predicate.mentions kindAlias, Predicate.resolve? table kindAlias⟩

def labelRule : Rule Label LabelTerm := ⟨Label.spell, Label.mentions, Label.resolve? table⟩

/-- A quantifier stands for the node that it makes of the one before it. -/
def quantifierRule (node : Node) : Rule (Option Quantifier) Node :=
  ⟨spellQuantifier, mentionsQuantifier, fun _ quantifier? => some (quantify node quantifier?)⟩

def primaryRule : Rule Primary Node := ⟨Primary.spell, Primary.mentions, Primary.node? table⟩

def elementRule : Rule Element Node := ⟨Element.spell, Element.mentions, Element.node? table⟩

def sequenceRule : Rule Sequence Node := ((elementRule table).series []).map joinSequence

def alternationRule : Rule Alternation Node := ((sequenceRule table).series [.pipe]).map joinAlternation

def conditionsRule : Rule (Series Alternation) (List Node) := (alternationRule table).series [.ampersand]

theorem spell_sequence (sequence : Sequence) : (sequenceRule table).spell sequence = spellSequence sequence := by
  change Series.spell [] Element.spell sequence = _
  induction sequence with
  | last element => rfl
  | next element rest ih => rw [Series.spell, List.append_nil, ih, spellSequence]

theorem mentions_sequence (sequence : Sequence) :
    (sequenceRule table).mentions sequence = mentionsSequence sequence := by
  change Series.mentions Element.mentions sequence = _
  induction sequence with
  | last element => rfl
  | next element rest ih => rw [Series.mentions, ih, mentionsSequence]

theorem resolve_elements (before : List Mention) (sequence : Sequence) :
    ((elementRule table).series []).resolve? before sequence = elements? table before sequence := by
  change Series.resolve? Element.mentions (Element.node? table) before sequence = _
  induction sequence generalizing before with
  | last element => rfl
  | next element rest ih => rw [Series.resolve?, ih, elements?]

theorem spell_alternation (alternation : Alternation) :
    (alternationRule table).spell alternation = spellAlternation alternation := by
  change Series.spell [.pipe] (sequenceRule table).spell alternation = _
  induction alternation with
  | last sequence => exact spell_sequence table sequence
  | next sequence rest ih =>
    rw [Series.spell, ih, spell_sequence, spellAlternation, List.append_assoc, List.singleton_append]

theorem mentions_alternation (alternation : Alternation) :
    (alternationRule table).mentions alternation = mentionsAlternation alternation := by
  change Series.mentions (sequenceRule table).mentions alternation = _
  induction alternation with
  | last sequence => exact mentions_sequence table sequence
  | next sequence rest ih => rw [Series.mentions, ih, mentions_sequence, mentionsAlternation]

theorem resolve_alternatives (before : List Mention) (alternation : Alternation) :
    ((sequenceRule table).series [.pipe]).resolve? before alternation = alternatives? table before alternation := by
  change Series.resolve? (sequenceRule table).mentions (sequenceRule table).resolve? before alternation = _
  have hresolve (before : List Mention) (sequence : Sequence) :
      (sequenceRule table).resolve? before sequence = (elements? table before sequence).map joinSequence :=
    congrArg (Option.map joinSequence) (resolve_elements table before sequence)
  induction alternation generalizing before with
  | last sequence => rw [Series.resolve?, hresolve, alternatives?]
  | next sequence rest ih => rw [Series.resolve?, ih, hresolve, mentions_sequence, alternatives?]

theorem resolve_alternation (before : List Mention) (alternation : Alternation) :
    (alternationRule table).resolve? before alternation =
      (alternatives? table before alternation).map joinAlternation :=
  congrArg (Option.map joinAlternation) (resolve_alternatives table before alternation)

theorem spell_conditions (conditions : Series Alternation) :
    (conditionsRule table).spell conditions = spellConditions conditions := by
  change Series.spell [.ampersand] (alternationRule table).spell conditions = _
  induction conditions with
  | last condition => exact spell_alternation table condition
  | next condition rest ih =>
    rw [Series.spell, ih, spell_alternation, spellConditions, List.append_assoc, List.singleton_append]

theorem mentions_conditions (conditions : Series Alternation) :
    (conditionsRule table).mentions conditions = mentionsConditions conditions := by
  change Series.mentions (alternationRule table).mentions conditions = _
  induction conditions with
  | last condition => exact mentions_alternation table condition
  | next condition rest ih => rw [Series.mentions, ih, mentions_alternation, mentionsConditions]

theorem resolve_conditions (before : List Mention) (conditions : Series Alternation) :
    (conditionsRule table).resolve? before conditions = conditions? table before conditions := by
  change Series.resolve? (alternationRule table).mentions (alternationRule table).resolve? before conditions = _
  induction conditions generalizing before with
  | last condition => rw [Series.resolve?, resolve_alternation, conditions?]
  | next condition rest ih => rw [Series.resolve?, ih, resolve_alternation, mentions_alternation, conditions?]

theorem resolve_label {kindAlias : String} {registered : RegisteredKind}
    (h : table.find? kindAlias = some registered) (before : List Mention) :
    (labelRule table).resolve? before ⟨kindAlias, none⟩ =
      some { kindAlias, slot := kindSlot table before registered.kind } := by
  change Label.resolve? table before _ = _
  rw [Label.resolve?, h]
  rfl

theorem resolve_label_predicates {kindAlias : String} {registered : RegisteredKind}
    (h : table.find? kindAlias = some registered) (before : List Mention) (predicates : Series Predicate) :
    (labelRule table).resolve? before ⟨kindAlias, some predicates⟩ =
      (((predicateRule table kindAlias).series [.comma]).resolve? (before ++ [.label kindAlias]) predicates).map
        fun resolved => { kindAlias, slot := kindSlot table before registered.kind, predicates := resolved } := by
  change Label.resolve? table before _ = _
  rw [Label.resolve?, h, Option.map_eq_bind]
  rfl

section
variable (capture? : Option String) (primary : Primary) (quantifier? : Option Quantifier)

theorem spell_item :
    (elementRule table).spell (.item capture? primary quantifier?) =
      spellCapture capture? ++ (primary.spell ++ spellQuantifier quantifier?) := by
  change Element.spell _ = _
  rw [Element.spell, List.append_assoc]

theorem mentions_item :
    (elementRule table).mentions (.item capture? primary quantifier?) =
      opening capture? ++ (primary.mentions ++ mentionsQuantifier quantifier?) ++
        closing primary.boundAlias? capture? := by
  change Element.mentions _ = _
  rw [Element.mentions, List.append_assoc (opening capture?)]

theorem resolve_item {before : List Mention} {node : Node}
    (h : (primaryRule table).resolve? (before ++ opening capture?) primary = some node) :
    (elementRule table).resolve? before (.item capture? primary quantifier?) =
      some (enclose before (quantify node quantifier?) capture?) := by
  have h : primary.node? table (before ++ opening capture?) = some node := h
  change Element.node? table before _ = _
  rw [Element.node?, h]
  rfl

end

section
variable (flags : List Flag) (capture? : Option String) (label : Label) (conditions? : Option (Series Alternation))

theorem spell_pinned :
    (primaryRule table).spell (.pinned flags capture? label conditions?) =
      .leftBracket :: (flags.map Flag.spell ++ (spellCapture capture? ++
        (label.spell ++ ((conditionsRule table).optional.spell conditions? ++ [.rightBracket])))) := by
  change Primary.spell _ = _
  cases conditions? with
  | none => simp [Primary.spell, Rule.optional]
  | some conditions => simp [Primary.spell, Rule.optional, spell_conditions]

theorem mentions_pinned :
    (primaryRule table).mentions (.pinned flags capture? label conditions?) =
      opening capture? ++ closing (some label.kindAlias) capture? ++
        (label.mentions ++ (conditionsRule table).optional.mentions conditions?) := by
  change Primary.mentions _ = _
  cases conditions? with
  | none => simp [Primary.mentions, Rule.optional]
  | some conditions => simp [Primary.mentions, Rule.optional, mentions_conditions]

theorem resolve_pinned {before opened : List Mention} {term : LabelTerm} {nodes : List Node}
    (hopened : opened = before ++ (opening capture? ++ closing (some label.kindAlias) capture?))
    (hterm : (labelRule table).resolve? opened label = some term)
    (hnodes : (conditionsRule table).optional.resolve? (opened ++ label.mentions) conditions? = some nodes) :
    (primaryRule table).resolve? before (.pinned flags capture? label conditions?) =
      some (enclose before (.pinned term (flags.contains .seek) (flags.contains .exact) nodes) capture?) := by
  have hterm : label.resolve? table opened = some term := hterm
  change Primary.node? table before _ = _
  rw [← List.append_assoc] at hopened
  subst hopened
  cases conditions? with
  | none =>
    cases hnodes
    rw [Primary.node?, hterm]
    rfl
  | some conditions =>
    have hnodes : (conditionsRule table).resolve? _ conditions = some nodes := hnodes
    rw [resolve_conditions] at hnodes
    simp only [Primary.node?, hterm, hnodes, Option.bind_eq_bind, Option.bind_some, Option.pure_def]

end

end

section
variable {rule : Rule α β} {separator : List Lexeme} {before : List Mention} {x : α} {bs : List β}

theorem Rule.resolve_cons {rest : Series α} {b : β} (hb : rule.resolve? before x = some b)
    (hbs : (rule.series separator).resolve? (before ++ rule.mentions x) rest = some bs) :
    (rule.series separator).resolve? before (.next x rest) = some (b :: bs) := by
  have hbs : rest.resolve? rule.mentions rule.resolve? (before ++ rule.mentions x) = some bs := hbs
  change (rule.resolve? before x >>= fun b => _) = _
  rw [hb]
  simp only [hbs, Option.bind_eq_bind, Option.bind_some, Option.pure_def]

theorem Rule.resolve_last (h : (rule.series separator).resolve? before (.last x) = some bs) :
    ∃ b, rule.resolve? before x = some b ∧ bs = [b] := by
  obtain ⟨b, hb, rfl⟩ := Option.map_eq_some_iff.1 h
  exact ⟨b, hb, rfl⟩

theorem Rule.resolve_ne_nil {trees : Series α} (h : (rule.series separator).resolve? before trees = some bs) :
    bs ≠ [] := by
  rintro rfl
  cases trees with
  | last x =>
    obtain ⟨b, _, hnil⟩ := Rule.resolve_last h
    cases hnil
  | next x rest =>
    obtain ⟨b, _, hb⟩ := Option.bind_eq_some_iff.1 h
    obtain ⟨bs, _, hnil⟩ := Option.bind_eq_some_iff.1 hb
    cases hnil

theorem Rule.resolve_next {rest : Series α} (h : (rule.series separator).resolve? before (.next x rest) = some bs) :
    ∃ first second more, bs = first :: second :: more := by
  obtain ⟨first, _, hfirst⟩ := Option.bind_eq_some_iff.1 h
  obtain ⟨others, hothers, hall⟩ := Option.bind_eq_some_iff.1 hfirst
  cases hall
  have hothers : (rule.series separator).resolve? (before ++ rule.mentions x) rest = some others := hothers
  obtain ⟨second, more, rfl⟩ := List.exists_cons_of_ne_nil (Rule.resolve_ne_nil hothers)
  exact ⟨first, second, more, rfl⟩

end

section
variable {table : AliasTable} {before : List Mention} {node : Node}

theorem boundAlias_quantify (node : Node) (quantifier? : Option Quantifier) :
    (quantify node quantifier?).boundAlias? = node.boundAlias? := by
  cases quantifier? <;> rfl

theorem kindAlias_label {label : Label} {term : LabelTerm} (h : (labelRule table).resolve? before label = some term) :
    term.kindAlias = label.kindAlias := by
  obtain ⟨kindAlias, predicates?⟩ := label
  rcases hregistered : table.find? kindAlias with _ | registered
  · change Label.resolve? table before _ = _ at h
    rw [Label.resolve?, hregistered] at h
    cases h
  cases predicates? with
  | none =>
    rw [resolve_label table hregistered] at h
    cases h
    rfl
  | some predicates =>
    rw [resolve_label_predicates table hregistered] at h
    obtain ⟨resolved, _, rfl⟩ := Option.map_eq_some_iff.1 h
    rfl

theorem boundAlias_pinned {flags : List Flag} {capture? : Option String} {label : Label}
    {conditions? : Option (Series Alternation)}
    (h : (primaryRule table).resolve? before (.pinned flags capture? label conditions?) = some node) :
    node.boundAlias? = if capture?.isNone then some label.kindAlias else none := by
  have henclose {term : LabelTerm} {seek exact : Bool} {nodes : List Node} {opened : List Mention}
      (hterm : label.resolve? table opened = some term) :
      (enclose before (.pinned term seek exact nodes) capture?).boundAlias? =
        if capture?.isNone then some label.kindAlias else none := by
    cases capture? with
    | none => exact congrArg some (kindAlias_label hterm)
    | some name => rfl
  change Primary.node? table before _ = _ at h
  cases conditions? with
  | none =>
    obtain ⟨term, hterm, rfl⟩ := Option.map_eq_some_iff.1 h
    exact henclose hterm
  | some conditions =>
    obtain ⟨term, hterm, hmore⟩ := Option.bind_eq_some_iff.1 h
    obtain ⟨nodes, _, hnode⟩ := Option.bind_eq_some_iff.1 hmore
    cases hnode
    exact henclose hterm

theorem boundAlias_primary {primary : Primary}
    (h : (primaryRule table).resolve? before primary = some node) : node.boundAlias? = primary.boundAlias? := by
  change primary.node? table before = some node at h
  fun_induction Primary.boundAlias? primary generalizing before node with
  | case1 primary quantifier? ih =>
    obtain ⟨_, hsequences, rfl⟩ := Option.map_eq_some_iff.1 h
    obtain ⟨_, hsequence, rfl⟩ := Option.map_eq_some_iff.1 hsequences
    obtain ⟨_, helements, rfl⟩ := Option.map_eq_some_iff.1 hsequence
    obtain ⟨_, helement, rfl⟩ := Option.map_eq_some_iff.1 helements
    obtain ⟨inner, hinner, rfl⟩ := Option.map_eq_some_iff.1 helement
    exact (boundAlias_quantify inner quantifier?).trans (ih hinner)
  | case2 flags term conditions? => exact boundAlias_pinned h
  | case3 term =>
    obtain ⟨resolved, hresolved, rfl⟩ := Option.map_eq_some_iff.1 h
    exact congrArg some (kindAlias_label hresolved)
  | case4 primary hgroup hpinned hlabel =>
    cases primary with
    | group body =>
      obtain ⟨nodes, hnodes, rfl⟩ := Option.map_eq_some_iff.1 h
      rw [← resolve_alternatives] at hnodes
      cases body with
      | next sequence rest =>
        obtain ⟨first, second, more, rfl⟩ := Rule.resolve_next hnodes
        rfl
      | last sequence =>
        obtain ⟨_, hsequence, rfl⟩ := Rule.resolve_last hnodes
        obtain ⟨elements, helements, rfl⟩ := Option.map_eq_some_iff.1 hsequence
        cases sequence with
        | next element rest =>
          obtain ⟨first, second, more, rfl⟩ := Rule.resolve_next helements
          rfl
        | last element =>
          obtain ⟨_, helement, rfl⟩ := Rule.resolve_last helements
          cases element with
          | arrow =>
            cases helement
            rfl
          | item capture? primary quantifier? =>
            cases capture? with
            | none => exact (hgroup _ _ rfl).elim
            | some name =>
              obtain ⟨inner, _, rfl⟩ := Option.map_eq_some_iff.1 helement
              rfl
    | lookahead negated body =>
      obtain ⟨nodes, _, rfl⟩ := Option.map_eq_some_iff.1 h
      rfl
    | pinned flags capture? label conditions? =>
      cases capture? with
      | none => exact (hpinned _ _ _ rfl).elim
      | some name => exact boundAlias_pinned h
    | label label => exact (hlabel _ rfl).elim
    | literal text =>
      obtain ⟨read, _, rfl⟩ := Option.map_eq_some_iff.1 h
      rfl

end

end TextAnnotation.Pattern.Grammar
