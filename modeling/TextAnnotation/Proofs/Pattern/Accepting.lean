import TextAnnotation.Proofs.Pattern.Deriving

/-!
What the grammar spells is taken by parsers. Wherever a derivation stands at the front of the lexemes left, with
everything permitted that it mentions and a lexeme after it that cannot belong to it, its parser gives what it
stands for and stops behind it. One lexeme ahead tells what comes next.
-/

namespace TextAnnotation.Pattern

def Series.items : Series α → List α
  | last x => [x]
  | next x rest => x :: rest.items

theorem Series.length_items_le (separator : Lexeme) (spell : α → List Lexeme) (series : Series α) :
    series.items.length ≤ (series.spell [separator] spell).length + 1 := by
  induction series with
  | last x => simp [Series.items]
  | next x rest ih =>
    simp only [Series.items, Series.spell, List.length_cons, List.length_append, List.length_nil]
    omega

theorem Series.length_items_le_spell {spell : α → List Lexeme} (series : Series α)
    (h : ∀ x ∈ series.items, spell x ≠ []) : series.items.length ≤ (series.spell [] spell).length := by
  induction series with
  | last x => exact List.length_pos_iff.2 (h x List.mem_cons_self)
  | next x rest ih =>
    have hfirst := List.length_pos_iff.2 (h x List.mem_cons_self)
    have hrest := ih fun y hy => h y (List.mem_cons_of_mem _ hy)
    simp only [Series.items, Series.spell, List.length_cons, List.length_append, List.length_nil]
    omega

theorem Series.length_spell_le (separator : List Lexeme) (spell : α → List Lexeme) (series : Series α) {x : α}
    (h : x ∈ series.items) : (spell x).length ≤ (series.spell separator spell).length := by
  induction series with
  | last y =>
    rw [List.mem_singleton.1 h]
    exact Nat.le_refl _
  | next y rest ih =>
    simp only [Series.spell, List.length_append]
    rcases List.mem_cons.1 h with rfl | hrest
    · omega
    · have := ih hrest
      omega

theorem Series.spell_eq_cons {P : Lexeme → Prop} (separator : List Lexeme) {spell : α → List Lexeme}
    (series : Series α) (h : ∀ x ∈ series.items, ∃ first more, spell x = first :: more ∧ P first) :
    ∃ first more, series.spell separator spell = first :: more ∧ P first := by
  cases series with
  | last x => exact h x List.mem_cons_self
  | next x rest =>
    obtain ⟨first, more, hspell, hfirst⟩ := h x List.mem_cons_self
    exact ⟨first, _, by rw [Series.spell, hspell]; rfl, hfirst⟩

namespace Grammar

/-- The lexemes that an element can begin with. -/
def opens : Lexeme → Bool
  | .arrow | .leftParen | .leftBracket | .name _ | .text _ => true
  | _ => false

/-- The lexemes that can come after an element. -/
def Follows (lexeme : Lexeme) : Prop := opens lexeme = true ∨ Parse.endsSequence lexeme = true

/-- The lexemes that can come after a label. -/
structure Separates (lexeme : Lexeme) : Prop where
  angle : lexeme ≠ .leftAngle
  colon : lexeme ≠ .colon

/-- The lexemes that can come after an alternation. -/
def Closes (lexeme : Lexeme) : Prop := Parse.endsSequence lexeme = true ∧ lexeme ≠ .pipe

theorem Closes.follows {lexeme : Lexeme} (h : Closes lexeme) : Follows lexeme := .inr h.1

theorem endsSequence_of_opens {lexeme : Lexeme} (h : opens lexeme = true) : Parse.endsSequence lexeme = false := by
  cases lexeme <;> first | rfl | cases h

theorem not_follows {lexeme : Lexeme} (hopens : opens lexeme = false)
    (hends : Parse.endsSequence lexeme = false) : ¬ Follows lexeme := by
  simp [Follows, hopens, hends]

theorem Follows.separates {lexeme : Lexeme} (h : Follows lexeme) : Separates lexeme := by
  constructor
  · rintro rfl
    exact not_follows rfl rfl h
  · rintro rfl
    exact not_follows rfl rfl h

/-- Only the name of a capture has a colon after it. -/
theorem exists_label_spell (label : Label) {first : Lexeme} (hfirst : Separates first) (more : List Lexeme) :
    ∃ second others, label.spell ++ first :: more = .name label.kindAlias :: second :: others ∧
      second ≠ .colon := by
  obtain ⟨kindAlias, predicates?⟩ := label
  cases predicates? with
  | none => exact ⟨first, more, rfl, hfirst.colon⟩
  | some predicates => exact ⟨.leftAngle, _, rfl, Lexeme.noConfusion⟩

theorem exists_quantifier_spell (quantifier? : Option Quantifier) {next : Lexeme} (hnext : Follows next)
    (rest : List Lexeme) :
    ∃ first more, spellQuantifier quantifier? ++ next :: rest = first :: more ∧ Separates first := by
  cases quantifier? with
  | none => exact ⟨next, rest, rfl, hnext.separates⟩
  | some quantifier =>
    obtain ⟨bounds, possessive⟩ := quantifier
    cases bounds <;> exact ⟨_, _, rfl, Lexeme.noConfusion, Lexeme.noConfusion⟩

/-- A primary that is not a label begins with no name. -/
theorem exists_enclosed_spell {primary : Primary} (hlabel : ∀ label, primary ≠ .label label) :
    ∃ first more, primary.spell = first :: more ∧ opens first = true ∧ first ≠ .arrow ∧
      ∀ name, first ≠ .name name := by
  cases primary with
  | group body => exact ⟨.leftParen, _, rfl, rfl, Lexeme.noConfusion, fun _ => Lexeme.noConfusion⟩
  | lookahead negated body => exact ⟨.leftParen, _, rfl, rfl, Lexeme.noConfusion, fun _ => Lexeme.noConfusion⟩
  | pinned flags capture? label conditions? =>
    cases conditions? <;> exact ⟨.leftBracket, _, rfl, rfl, Lexeme.noConfusion, fun _ => Lexeme.noConfusion⟩
  | label label => exact absurd rfl (hlabel label)
  | literal text => exact ⟨.text text, _, rfl, rfl, Lexeme.noConfusion, fun _ => Lexeme.noConfusion⟩

theorem exists_element_spell (element : Element) :
    ∃ first more, element.spell = first :: more ∧ opens first = true := by
  cases element with
  | arrow => exact ⟨.arrow, [], rfl, rfl⟩
  | item capture? primary quantifier? =>
    cases capture? with
    | some name => exact ⟨.name name, _, rfl, rfl⟩
    | none =>
      by_cases hlabel : ∃ label, primary = .label label
      · obtain ⟨label, rfl⟩ := hlabel
        exact ⟨.name label.kindAlias, _, rfl, rfl⟩
      · obtain ⟨first, more, hspell, hfirst, -⟩ := exists_enclosed_spell fun label heq => hlabel ⟨label, heq⟩
        refine ⟨first, more ++ spellQuantifier quantifier?, ?_, hfirst⟩
        rw [Element.spell, hspell]
        rfl

theorem exists_sequence_spell (table : AliasTable) (sequence : Sequence) :
    ∃ first more, (sequenceRule table).spell sequence = first :: more ∧ opens first = true :=
  sequence.spell_eq_cons [] fun element _ => exists_element_spell element

theorem exists_alternation_spell (table : AliasTable) (alternation : Alternation) :
    ∃ first more, (alternationRule table).spell alternation = first :: more ∧ opens first = true :=
  alternation.spell_eq_cons [.pipe] fun sequence _ => exists_sequence_spell table sequence

theorem exists_conditions_spell (table : AliasTable) (conditions : Series Alternation) :
    ∃ first more, (conditionsRule table).spell conditions = first :: more ∧ opens first = true :=
  conditions.spell_eq_cons [.ampersand] fun condition _ => exists_alternation_spell table condition

end Grammar

open Grammar

namespace Parse

variable {rule : Rule α β} {item : Parse β} {table : AliasTable} {left : List Lexeme} {past : List Mention}
  {before : Progress}

section
variable {follows : Lexeme → Prop}

theorem accepts_separatedUpTo {separator : Lexeme} (hne : separator ≠ .finish) (hfollows : ¬ follows separator)
    {series : Series α}
    (hitems : ∀ x ∈ series.items, rule.Accepts table (fun next => next = separator ∨ follows next) item x)
    {more : Nat} (hmore : series.items.length ≤ more + 1) :
    (rule.series [separator]).Accepts table follows (separatedUpTo separator item more) series := by
  intro next rest past before h hnext hpermitted
  induction series generalizing more past before with
  | last x =>
    have hlast {b : β} (hresolve : rule.resolve? past x = some b) :
        (rule.series [separator]).resolve? past (.last x) = some [b] := congrArg (Option.map ([·])) hresolve
    have hitem := hitems x List.mem_cons_self h (.inr hnext) hpermitted
    cases more with
    | zero => exact hitem.andThen fun b after hafter => .pure ⟨hlast hafter.1, hafter.2⟩
    | succ more =>
      refine hitem.andThen fun b middle hmiddle => (yields_accept_of_ne hmiddle.2 ?_).andThen fun after hafter => ?_
      · rintro rfl
        exact hfollows hnext
      · exact .pure ⟨hlast hmiddle.1, hafter⟩
  | next x series ih =>
    obtain ⟨more, rfl⟩ : ∃ fewer, more = fewer + 1 := by
      cases series <;> cases more <;> simp_all [Series.items]
    obtain ⟨hfirst, hothers⟩ := permitted_append.1 hpermitted
    have hspell : (rule.series [separator]).spell (.next x series) ++ next :: rest =
        rule.spell x ++ separator :: ((rule.series [separator]).spell series ++ next :: rest) := by
      change rule.spell x ++ [separator] ++ (rule.series [separator]).spell series ++ next :: rest = _
      simp only [List.append_assoc, List.cons_append, List.nil_append]
    refine (hitems x List.mem_cons_self (hspell ▸ h) (.inl rfl) hfirst).andThen fun b middle hmiddle => ?_
    refine (yields_accept hmiddle.2 hne).andThen fun later hlater => ?_
    have hrest := ih (fun y hy => hitems y (List.mem_cons_of_mem _ hy)) (Nat.le_of_succ_le_succ hmore) hlater hothers
    refine hrest.andThen fun bs after hafter => .pure ⟨Rule.resolve_cons hmiddle.1 hafter.1, ?_⟩
    rw [List.append_assoc] at hafter
    exact hafter.2

theorem accepts_separated {separator : Lexeme} (hne : separator ≠ .finish) (hfollows : ¬ follows separator)
    {series : Series α}
    (hitems : ∀ x ∈ series.items, rule.Accepts table (fun next => next = separator ∨ follows next) item x) :
    (rule.series [separator]).Accepts table follows (separated separator item) series := by
  intro next rest past before h hnext hpermitted
  refine (looks_get _).succeeds ?_
  refine accepts_separatedUpTo hne hfollows hitems ?_ h hnext hpermitted
  have hlength := h.length_ahead
  have hitems_length : series.items.length ≤ ((rule.series [separator]).spell series).length + 1 :=
    series.length_items_le separator rule.spell
  simp only [List.length_append, List.length_cons] at hlength
  omega

theorem yields_nothing {next : Lexeme} {rest : List Lexeme} (h : before.At table (next :: rest) past)
    (hnext : endsSequence next = true) (item : Parse β) (most : Nat) :
    (untilEndUpTo item most).Yields before [] (·.At table (next :: rest) past) := by
  cases most with
  | zero => exact .pure h
  | succ most =>
    refine (looks_current h).yields ?_
    rw [if_pos hnext]
    exact .pure h

theorem succeeds_untilEndUpTo {first : Lexeme} (h : before.At table (first :: left) past)
    (hfirst : endsSequence first = false) {most : Nat} {Q : List β → Progress → Prop}
    (hitems : (do return (← item) :: (← untilEndUpTo item most) : Parse (List β)).Succeeds before Q) :
    (untilEndUpTo item (most + 1)).Succeeds before Q := by
  refine (looks_current h).succeeds ?_
  rw [if_neg (by simp [hfirst])]
  exact hitems

/-- Items are told from the end of a sequence by their first lexemes. -/
theorem accepts_untilEndUpTo {series : Series α} (hitems : ∀ x ∈ series.items, rule.Accepts table follows item x)
    (hopens : ∀ x ∈ series.items, ∃ first more, rule.spell x = first :: more ∧ endsSequence first = false ∧
      follows first) {most : Nat} (hmost : series.items.length ≤ most) :
    (rule.series []).Accepts table (fun next => endsSequence next = true ∧ follows next)
      (untilEndUpTo item most) series := by
  intro next rest past before h hnext hpermitted
  induction series generalizing most past before with
  | last x =>
    obtain ⟨most, rfl⟩ := Nat.exists_eq_add_of_le' hmost
    obtain ⟨first, more, hspell, hfirst, -⟩ := hopens x List.mem_cons_self
    change before.At table (rule.spell x ++ next :: rest) past at h
    have hitem := hitems x List.mem_cons_self h hnext.2 hpermitted
    rw [hspell] at h
    apply succeeds_untilEndUpTo h hfirst
    refine hitem.andThen fun b middle hmiddle => ?_
    refine (yields_nothing hmiddle.2 hnext.1 item most).andThen fun after hafter => ?_
    exact .pure ⟨congrArg (Option.map ([·])) hmiddle.1, hafter⟩
  | next x series ih =>
    obtain ⟨most, rfl⟩ := Nat.exists_eq_add_of_le' (Nat.le_trans (Nat.le_add_left 1 _) hmost)
    obtain ⟨hfirstPermitted, hothers⟩ := permitted_append.1 hpermitted
    obtain ⟨first, more, hspell, hfirst, -⟩ := hopens x List.mem_cons_self
    obtain ⟨second, others, hseries, hsecond⟩ : ∃ second others,
        (rule.series []).spell series ++ next :: rest = second :: others ∧ follows second := by
      obtain ⟨second, others, hspell, hsecond⟩ := series.spell_eq_cons (P := follows) [] fun y hy => by
        obtain ⟨first, more, hspell, -, hfirst⟩ := hopens y (List.mem_cons_of_mem _ hy)
        exact ⟨first, more, hspell, hfirst⟩
      exact ⟨second, others ++ next :: rest, congrArg (· ++ next :: rest) hspell, hsecond⟩
    have hleft : (rule.series []).spell (.next x series) ++ next :: rest = rule.spell x ++ second :: others := by
      change rule.spell x ++ [] ++ (rule.series []).spell series ++ next :: rest = _
      rw [List.append_nil, List.append_assoc, hseries]
    rw [hleft] at h
    have hitem := hitems x List.mem_cons_self h hsecond hfirstPermitted
    rw [hspell] at h
    apply succeeds_untilEndUpTo h hfirst
    refine hitem.andThen fun b middle hmiddle => ?_
    rw [← hseries] at hmiddle
    refine (ih (fun y hy => hitems y (List.mem_cons_of_mem _ hy)) (fun y hy => hopens y (List.mem_cons_of_mem _ hy))
      (Nat.le_of_succ_le_succ hmost) hmiddle.2 hothers).andThen fun bs after hafter => ?_
    rw [List.append_assoc] at hafter
    exact .pure ⟨Rule.resolve_cons hmiddle.1 hafter.1, hafter.2⟩

end

section
variable {next : Lexeme} {rest : List Lexeme}

theorem exists_slot {name : String} (h : (Mention.refersTo name).Permitted table past) :
    ∃ slot, (declared past).findIdx? (·.name == name) = some slot := by
  obtain ⟨capture, hmem, hname⟩ := List.mem_map.1 h
  rcases hslot : (declared past).findIdx? (·.name == name) with _ | slot
  · exact absurd (beq_iff_eq.2 hname) (by simpa using List.findIdx?_eq_none_iff.1 hslot capture hmem)
  · exact ⟨slot, hslot⟩

theorem gives_capture {name : String} (h : before.At table (.name name :: next :: rest) past) (hnext : next ≠ .dot)
    (hpermitted : (Mention.refersTo name).Permitted table past) :
    (operandRule table).Gives table (.capture name) (next :: rest) past (captured table) before := by
  obtain ⟨slot, hslot⟩ := exists_slot hpermitted
  refine (yields_name h .captureName).andThen fun middle hmiddle => ?_
  refine (looks_get _).succeeds ?_
  dsimp only
  rw [hmiddle.captures, hslot]
  refine (yields_accept_of_ne hmiddle hnext).andThen fun after hafter => .pure ⟨?_, hafter.mention _ rfl rfl⟩
  change Option.map _ (List.findIdx? _ _) = _
  rw [hslot]
  rfl

theorem gives_reading {name accessor : String}
    (h : before.At table (.name name :: .dot :: .name accessor :: rest) past)
    (hpermitted : Permitted table past [.refersTo name, .reads name accessor]) :
    (operandRule table).Gives table (.reading name accessor) rest past (captured table) before := by
  obtain ⟨hknown, hreads, -⟩ := hpermitted
  obtain ⟨slot, hslot⟩ := exists_slot hknown
  rw [Mention.Permitted, boundAlias?, declared_quiet past rfl] at hreads
  obtain ⟨read, hread⟩ := Option.isSome_iff_exists.1 hreads
  obtain ⟨kindAlias, hkindAlias, hread⟩ := Option.bind_eq_some_iff.1 hread
  have hbound : (declared past)[slot]?.bind (·.boundAlias?) = some kindAlias := by
    rwa [List.find?_eq_bind_findIdx?_getElem?, hslot] at hkindAlias
  refine (yields_name h .captureName).andThen fun middle hmiddle => ?_
  refine (looks_get _).succeeds ?_
  dsimp only
  rw [hmiddle.captures, hslot]
  refine (yields_accept hmiddle Lexeme.noConfusion).andThen fun next hnext => ?_
  refine (yields_name hnext .accessor).andThen fun after hafter => ?_
  dsimp only
  rw [hbound]
  dsimp only
  rw [hread]
  refine .pure ⟨?_, ?_⟩
  · change Operand.resolve? table past (.reading name accessor) = some (.readingOf name slot accessor read)
    rw [Operand.resolve?, hslot, boundAlias?, hkindAlias]
    change (table.accessor? kindAlias accessor >>= _) = _
    rw [hread]
    rfl
  · have hmentions := (hafter.mention (.refersTo name) rfl rfl).mention (.reads name accessor) rfl rfl
    rwa [List.append_assoc] at hmentions

theorem accepts_predicate {kindAlias : String} {registered : RegisteredKind}
    (hregistered : table.find? kindAlias = some registered) (tree : Grammar.Predicate) :
    (predicateRule table kindAlias).Accepts table (· ≠ .dot) (predicate table kindAlias registered) tree := by
  intro next rest past before h hnext hpermitted
  obtain ⟨accessor, operand⟩ := tree
  obtain ⟨hasks, hoperand⟩ := hpermitted
  obtain ⟨read, hread⟩ := Option.isSome_iff_exists.1 hasks
  have haccessor : registered.accessors.find? accessor = some read := by
    rwa [AliasTable.accessor?, hregistered] at hread
  have hdone {expected : Expected} {after : Progress}
      (hafter : operand.resolve? table (past ++ [.asks kindAlias accessor]) = some expected ∧
        after.At table (next :: rest) (past ++ [.asks kindAlias accessor] ++ operand.mentions)) :
      (predicateRule table kindAlias).resolve? past ⟨accessor, operand⟩ = some { accessor, expected, read } ∧
        after.At table (next :: rest) (past ++ (predicateRule table kindAlias).mentions ⟨accessor, operand⟩) := by
    rw [List.append_assoc] at hafter
    refine ⟨?_, hafter.2⟩
    change Predicate.resolve? table kindAlias past _ = _
    rw [Predicate.resolve?, hread, hafter.1]
    rfl
  refine (yields_name h .accessor).andThen fun middle hmiddle => ?_
  dsimp only
  rw [haccessor]
  have hmiddle := hmiddle.mention (.asks kindAlias accessor) rfl rfl
  refine (yields_expect hmiddle Lexeme.noConfusion .equals).andThen fun later hlater => ?_
  have hvalue {found : AttributeValue} {progress : Progress}
      (hfound : operand.resolve? table (past ++ [.asks kindAlias accessor]) = some (.value found))
      (hmentions : operand.mentions = [])
      (hprogress : progress.At table (operand.spell ++ next :: rest) (past ++ [.asks kindAlias accessor])) :
      (predicateRule table kindAlias).Gives table ⟨accessor, operand⟩ (next :: rest) past (do
        let expected ← pure (.value (← value))
        return { accessor, expected, read }) progress := by
    refine (yields_value hfound hprogress).andThen fun after hafter => (Yields.pure hafter).andThen fun _ hafter => ?_
    exact .pure (hdone ⟨hfound, by rwa [hmentions, List.append_nil]⟩)
  cases operand with
  | text value =>
    exact (yields_accept_of_ne hlater Lexeme.noConfusion).andThen fun _ hfinal => hvalue rfl rfl hfinal
  | integer value =>
    exact (yields_accept_of_ne hlater Lexeme.noConfusion).andThen fun _ hfinal => hvalue rfl rfl hfinal
  | bare value =>
    exact (yields_accept_of_ne hlater Lexeme.noConfusion).andThen fun _ hfinal => hvalue rfl rfl hfinal
  | capture name =>
    refine (yields_accept hlater Lexeme.noConfusion).andThen fun final hfinal => ?_
    exact (gives_capture hfinal hnext hoperand.1).andThen fun expected after hafter => .pure (hdone hafter)
  | reading name other =>
    refine (yields_accept hlater Lexeme.noConfusion).andThen fun final hfinal => ?_
    exact (gives_reading hfinal hoperand).andThen fun expected after hafter => .pure (hdone hafter)

theorem gives_labelTerm {label : Grammar.Label} (h : before.At table left past)
    (hspell : .name label.kindAlias :: left = label.spell ++ next :: rest) (hnext : next ≠ .leftAngle)
    (hpermitted : Permitted table past label.mentions) (offset : Nat) :
    (labelRule table).Gives table label (next :: rest) past (labelTerm table label.kindAlias offset) before := by
  obtain ⟨kindAlias, predicates?⟩ := label
  obtain ⟨registered, hregistered⟩ := Option.isSome_iff_exists.1 hpermitted.1
  have hkind : (Mention.label kindAlias).kind? table = some registered.kind := by
    rw [Mention.kind?, hregistered]
    rfl
  unfold labelTerm
  dsimp only
  rw [hregistered]
  refine (yields_kindSlot h rfl hkind).andThen fun middle hmiddle => ?_
  cases predicates? with
  | none =>
    obtain rfl : left = next :: rest := (List.cons.inj hspell).2
    refine (yields_accept_of_ne hmiddle hnext).andThen fun after hafter => ?_
    exact .pure ⟨resolve_label table hregistered past, hafter⟩
  | some predicates =>
    have hleft : left = .leftAngle :: (predicates.spell [.comma] Predicate.spell ++ .rightAngle :: next :: rest) := by
      refine (List.cons.inj hspell).2.trans ?_
      simp
    subst hleft
    refine (yields_accept hmiddle Lexeme.noConfusion).andThen fun later hlater => ?_
    have hpredicates : ((predicateRule table kindAlias).series [.comma]).Accepts table (· = .rightAngle)
        (separated .comma (predicate table kindAlias registered)) predicates := by
      apply accepts_separated Lexeme.noConfusion Lexeme.noConfusion
      intro tree _ next rest past before h hnext hpermitted
      apply accepts_predicate hregistered tree h _ hpermitted
      rcases hnext with rfl | rfl <;> exact Lexeme.noConfusion
    refine (hpredicates hlater rfl hpermitted.2).andThen fun resolved final hfinal => ?_
    refine (yields_expect hfinal.2 Lexeme.noConfusion .closingAngle).andThen fun after hafter => .pure ⟨?_, ?_⟩
    · rw [resolve_label_predicates table hregistered, hfinal.1]
      rfl
    · rw [List.append_assoc] at hafter
      exact hafter

theorem gives_literal {text : String} (h : before.At table (next :: rest) past)
    (hpermitted : (Mention.literal text).Permitted table past) (offset : Nat) :
    (primaryRule table).Gives table (.literal text) (next :: rest) past (literal table text offset) before := by
  obtain ⟨hwords, htoken⟩ := hpermitted
  obtain ⟨read, hread⟩ := Option.isSome_iff_exists.1 htoken
  have hkind : (Mention.literal text).kind? table = some read.kind := by
    rw [Mention.kind?, hread]
    rfl
  unfold literal
  rw [hread]
  refine (yields_kindSlot h rfl hkind).andThen fun after hafter => ?_
  have hcount : (Literal.ofText text (Grammar.kindSlot table past read.kind) read).wordCount ≠ 0 :=
    fun hzero => hwords (List.length_eq_zero_iff.1 hzero)
  dsimp only
  rw [if_neg hcount]
  refine .pure ⟨?_, hafter⟩
  change literalNode? table past text = _
  rw [literalNode?, hread]
  rfl

theorem yields_noBounds (h : before.At table (next :: rest) past) (hnext : Follows next) :
    quantifierBounds?.Yields before none (·.At table (next :: rest) past) := by
  refine (looks_current h).yields ?_
  split
  · exact (not_follows rfl rfl hnext).elim
  · exact (not_follows rfl rfl hnext).elim
  · exact (not_follows rfl rfl hnext).elim
  · exact (not_follows rfl rfl hnext).elim
  · exact .pure h

theorem yields_closingBrace (h : before.At table (.rightBrace :: rest) past) (range : Nat × Option Nat) :
    (do if (← current) = .rightBrace then return range else unexpected .closingBrace :
      Parse (Nat × Option Nat)).Yields before range (·.At table (.rightBrace :: rest) past) := by
  refine (looks_current h).yields ?_
  rw [if_pos rfl]
  exact .pure h

/-- The last lexeme is still to be stepped over. -/
theorem yields_bounds {tree : Bounds} (h : before.At table (tree.spell ++ rest) past)
    (hpermitted : Permitted table past tree.mentions) :
    quantifierBounds?.Yields before (some tree.range) fun after =>
      ∃ last, last ≠ .finish ∧ after.At table (last :: rest) past := by
  have hbraces {least : Int} {left : List Lexeme} (h : before.At table (.leftBrace :: .integer least :: left) past)
      (hbounds : ∀ ⦃progress⦄, progress.At table (.integer least :: left) past →
        bounds.Yields progress tree.range (·.At table (.rightBrace :: rest) past)) :
      quantifierBounds?.Yields before (some tree.range) fun after =>
        ∃ last, last ≠ .finish ∧ after.At table (last :: rest) past := by
    refine (looks_current h).yields ?_
    refine (yields_advance h Lexeme.noConfusion).bind fun opened hopened => ?_
    exact (hbounds hopened).bind fun after hafter => .pure ⟨_, Lexeme.noConfusion, hafter⟩
  cases tree with
  | optional => exact (looks_current h).yields (.pure ⟨_, Lexeme.noConfusion, h⟩)
  | any => exact (looks_current h).yields (.pure ⟨_, Lexeme.noConfusion, h⟩)
  | some => exact (looks_current h).yields (.pure ⟨_, Lexeme.noConfusion, h⟩)
  | exactly n =>
    obtain ⟨⟨hn, -⟩, -⟩ := hpermitted
    refine hbraces h fun progress hprogress => (yields_count hprogress hn).bind fun middle hmiddle => ?_
    refine (yields_accept_of_ne hmiddle Lexeme.noConfusion).bind fun later hlater => ?_
    refine Yields.bind (.pure hlater) fun last hlast => ?_
    dsimp only
    rw [if_neg (Nat.lt_irrefl _)]
    exact yields_closingBrace hlast _
  | atLeast least =>
    obtain ⟨⟨hleast, -⟩, -⟩ := hpermitted
    refine hbraces h fun progress hprogress => (yields_count hprogress hleast).bind fun middle hmiddle => ?_
    refine (yields_accept hmiddle Lexeme.noConfusion).bind fun later hlater => ?_
    refine (looks_current hlater).yields ?_
    exact .bind (.pure hlater) fun last hlast => yields_closingBrace hlast _
  | between least most =>
    obtain ⟨⟨hleast, hmost⟩, -⟩ := hpermitted
    obtain ⟨hmost, hle⟩ := hmost most rfl
    refine hbraces h fun progress hprogress => (yields_count hprogress hleast).bind fun middle hmiddle => ?_
    refine (yields_accept hmiddle Lexeme.noConfusion).bind fun later hlater => ?_
    refine (looks_current hlater).yields ?_
    have hmaximum : (count >>= fun n => pure (some n)).Yields later (some most.toNat)
        (·.At table (.rightBrace :: rest) past) :=
      (yields_count hlater hmost).bind fun _ hcounted => .pure hcounted
    refine Yields.bind hmaximum fun last hlast => ?_
    have hnot : ¬ most.toNat < least.toNat := by omega
    dsimp only
    rw [if_neg hnot]
    exact yields_closingBrace hlast _

theorem accepts_quantified (node : Node) (quantifier? : Option Quantifier) :
    (quantifierRule node).Accepts table Follows (quantified node) quantifier? := by
  intro next rest past before h hnext hpermitted
  cases quantifier? with
  | none =>
    refine (yields_noBounds h hnext).andThen fun after hafter => .pure ⟨rfl, ?_⟩
    exact (List.append_nil past).symm ▸ hafter
  | some quantifier =>
    obtain ⟨tree, possessive⟩ := quantifier
    have hleft : (quantifierRule node).spell (some ⟨tree, possessive⟩) ++ next :: rest =
        tree.spell ++ ((if possessive then [.plus] else []) ++ next :: rest) := List.append_assoc _ _ _
    rw [hleft] at h
    have hbounds := yields_bounds h hpermitted
    obtain ⟨⟨minimum, maximum?⟩, hrange⟩ : ∃ range, tree.range = range := ⟨_, rfl⟩
    rw [hrange] at hbounds
    have hresolve : (quantifierRule node).resolve? past (some ⟨tree, possessive⟩) =
        some (.repetition node minimum maximum?) := by
      change some (Node.repetition node tree.range.1 tree.range.2) = _
      rw [hrange]
    refine hbounds.andThen fun middle ⟨last, hlast, hmiddle⟩ => ?_
    refine (yields_advance hmiddle hlast).andThen fun later hlater => ?_
    cases possessive with
    | true =>
      refine (looks_current hlater).succeeds ?_
      refine (yields_advance hlater Lexeme.noConfusion).andThen fun after hafter => ?_
      exact .pure ⟨hresolve, hafter.bounds tree⟩
    | false =>
      refine (looks_current hlater).succeeds ?_
      split
      · exact (not_follows rfl rfl hnext).elim
      · exact (not_follows rfl rfl hnext).elim
      · exact .pure ⟨hresolve, hlater.bounds tree⟩

theorem yields_flagsUpTo {flags : List Flag} {name : String} (seek exact : Bool) {most : Nat}
    (hmost : flags.length ≤ most) (h : before.At table (flags.map Flag.spell ++ .name name :: rest) past) :
    (flagsUpTo seek exact most).Yields before (seek || flags.contains .seek, exact || flags.contains .exact)
      (·.At table (.name name :: rest) past) := by
  induction flags generalizing seek exact most before with
  | nil =>
    rw [List.contains_nil, List.contains_nil, Bool.or_false, Bool.or_false]
    cases most with
    | zero => exact .pure h
    | succ most =>
      refine (yields_accept_of_ne h Lexeme.noConfusion).bind fun middle hmiddle => ?_
      exact (yields_accept_of_ne hmiddle Lexeme.noConfusion).bind fun after hafter => .pure hafter
  | cons flag flags ih =>
    obtain ⟨most, rfl⟩ := Nat.exists_eq_add_of_le' (Nat.le_trans (Nat.le_add_left 1 _) hmost)
    have hfewer : flags.length ≤ most := Nat.le_of_succ_le_succ hmost
    cases flag with
    | seek =>
      refine (yields_accept h Lexeme.noConfusion).bind fun middle hmiddle => ?_
      simpa using ih true exact hfewer hmiddle
    | exact =>
      refine (yields_accept_of_ne h Lexeme.noConfusion).bind fun middle hmiddle => ?_
      refine (yields_accept hmiddle Lexeme.noConfusion).bind fun later hlater => ?_
      simpa using ih seek true hfewer hlater

section
variable {inner : Parse Node} {limit : Nat}

/-- Every alternation of fewer lexemes than the limit is accepted. -/
def AcceptsShort (table : AliasTable) (inner : Parse Node) (limit : Nat) : Prop :=
  ∀ body, ((alternationRule table).spell body).length < limit →
    (alternationRule table).Accepts table Closes inner body

theorem gives_lookahead (hinner : AcceptsShort table inner limit) (negated : Bool) {body : Alternation}
    (hbody : ((alternationRule table).spell body).length < limit)
    (h : before.At table
      ((if negated then .bang else .equals) ::
        ((alternationRule table).spell body ++ .rightParen :: next :: rest)) past)
    (hpermitted : Permitted table past ((alternationRule table).mentions body)) :
    (primaryRule table).Gives table (.lookahead negated body) (next :: rest) past (lookahead inner) before := by
  have hrest {progress : Progress}
      (h : progress.At table ((alternationRule table).spell body ++ .rightParen :: next :: rest) past) :
      (primaryRule table).Gives table (.lookahead negated body) (next :: rest) past (do
        let body ← inner
        expect .rightParen .closingParen
        return .lookahead body negated) progress := by
    refine (hinner body hbody h ⟨rfl, Lexeme.noConfusion⟩ hpermitted).andThen fun node middle hmiddle => ?_
    refine (yields_expect hmiddle.2 Lexeme.noConfusion .closingParen).andThen fun after hafter => .pure ⟨?_, ?_⟩
    · have hresolve := hmiddle.1
      rw [resolve_alternation] at hresolve
      obtain ⟨nodes, hnodes, rfl⟩ := Option.map_eq_some_iff.1 hresolve
      exact congrArg (Option.map _) hnodes
    · rw [mentions_alternation] at hafter
      exact hafter
  refine (looks_current h).succeeds ?_
  cases negated with
  | false => exact (Yields.pure h).andThen fun _ h => (yields_advance h Lexeme.noConfusion).andThen fun _ h => hrest h
  | true => exact (Yields.pure h).andThen fun _ h => (yields_advance h Lexeme.noConfusion).andThen fun _ h => hrest h

/-- The rest of a pinned label after its term. -/
theorem gives_pinnedConditions (hinner : AcceptsShort table inner limit) (flags : List Flag)
    {capture? : Option String} {label : Grammar.Label} {term : LabelTerm} {conditions? : Option (Series Alternation)}
    {opened : List Mention} (hlimit : ((conditionsRule table).optional.spell conditions?).length < limit)
    (hopened : opened = past ++ (opening capture? ++ closing (some label.kindAlias) capture?))
    (hterm : (labelRule table).resolve? opened label = some term)
    (hpermitted : Permitted table (opened ++ label.mentions) ((conditionsRule table).optional.mentions conditions?))
    (h : before.At table ((conditionsRule table).optional.spell conditions? ++ .rightBracket :: next :: rest)
      (opened ++ label.mentions)) :
    (primaryRule table).Gives table (.pinned flags capture? label conditions?) (next :: rest) past (do
      let conditions ← if (← current) = .rightBracket then Pure.pure [] else separated .ampersand inner
      expect .rightBracket .closingBracket
      let node := Node.pinned term (flags.contains .seek) (flags.contains .exact) conditions
      match capture?.map fun _ => (declared past).length with
      | some slot => return .capture slot node
      | none => return node) before := by
  have hclose {nodes : List Node} {progress : Progress}
      (hnodes : (conditionsRule table).optional.resolve? (opened ++ label.mentions) conditions? = some nodes)
      (hprogress : progress.At table (.rightBracket :: next :: rest)
        (opened ++ label.mentions ++ (conditionsRule table).optional.mentions conditions?)) :
      (primaryRule table).Gives table (.pinned flags capture? label conditions?) (next :: rest) past (do
        expect .rightBracket .closingBracket
        let node := Node.pinned term (flags.contains .seek) (flags.contains .exact) nodes
        match capture?.map fun _ => (declared past).length with
        | some slot => return .capture slot node
        | none => return node) progress := by
    refine (yields_expect hprogress Lexeme.noConfusion .closingBracket).andThen fun after hafter => ?_
    have hresolve := resolve_pinned table flags capture? label conditions? hopened hterm hnodes
    have hat : after.At table (next :: rest)
        (past ++ (primaryRule table).mentions (.pinned flags capture? label conditions?)) := by
      rw [mentions_pinned, ← List.append_assoc, ← List.append_assoc, ← hopened]
      exact hafter
    cases capture? with
    | none => exact .pure ⟨hresolve, hat⟩
    | some name => exact .pure ⟨hresolve, hat⟩
  cases conditions? with
  | none =>
    refine (looks_current h).succeeds ?_
    exact (Yields.pure h).andThen fun _ h => hclose rfl ((List.append_nil (opened ++ label.mentions)).symm ▸ h)
  | some conditions =>
    obtain ⟨first, more, hspell, hfirst⟩ := exists_conditions_spell table conditions
    have hcurrent : before.At table (first :: (more ++ .rightBracket :: next :: rest)) (opened ++ label.mentions) := by
      have h : before.At table ((conditionsRule table).spell conditions ++ _) _ := h
      rwa [hspell] at h
    have hne : first ≠ .rightBracket := by
      rintro rfl
      cases hfirst
    refine (looks_current hcurrent).succeeds ?_
    rw [if_neg hne]
    have hconditions : (conditionsRule table).Accepts table (· = .rightBracket)
        (separated .ampersand inner) conditions := by
      apply accepts_separated Lexeme.noConfusion Lexeme.noConfusion
      intro condition hmem next rest past before h hnext hpermitted
      have hlength := conditions.length_spell_le [.ampersand] (alternationRule table).spell hmem
      apply hinner condition (Nat.lt_of_le_of_lt hlength hlimit) h _ hpermitted
      rcases hnext with rfl | rfl <;> exact ⟨rfl, Lexeme.noConfusion⟩
    exact (hconditions h rfl hpermitted).andThen fun nodes middle hmiddle => hclose hmiddle.1 hmiddle.2

theorem gives_pinned (hinner : AcceptsShort table inner limit) {flags : List Flag} {capture? : Option String}
    {label : Grammar.Label} {conditions? : Option (Series Alternation)}
    (hlimit : ((conditionsRule table).optional.spell conditions?).length < limit)
    (h : before.At table (flags.map Flag.spell ++ (spellCapture capture? ++
      (label.spell ++ ((conditionsRule table).optional.spell conditions? ++ .rightBracket :: next :: rest)))) past)
    (hpermitted : Permitted table past ((primaryRule table).mentions (.pinned flags capture? label conditions?))) :
    (primaryRule table).Gives table (.pinned flags capture? label conditions?) (next :: rest) past
      (pinned table inner) before := by
  rw [mentions_pinned] at hpermitted
  obtain ⟨hopening, hterm⟩ := permitted_append.1 hpermitted
  obtain ⟨hlabel, hconditions⟩ := permitted_append.1 hterm
  obtain ⟨first, more, hmore, hfirst⟩ : ∃ first more,
      (conditionsRule table).optional.spell conditions? ++ .rightBracket :: next :: rest = first :: more ∧
        Separates first := by
    cases conditions? with
    | none => exact ⟨.rightBracket, next :: rest, rfl, Lexeme.noConfusion, Lexeme.noConfusion⟩
    | some conditions =>
      obtain ⟨first, more, hspell, hfirst⟩ := exists_conditions_spell table conditions
      have hfirst : Separates first := Follows.separates (.inl hfirst)
      exact ⟨first, more ++ .rightBracket :: next :: rest, congrArg (· ++ _) hspell, hfirst⟩
  rw [hmore] at h
  have hmost : flags.length ≤ before.ahead.length + 1 := by
    have hlength := h.length_ahead
    simp only [List.length_append, List.length_map] at hlength
    omega
  refine (looks_get _).succeeds ?_
  obtain ⟨second, others, hlabelSpell, hcolon⟩ := exists_label_spell label hfirst more
  rw [hlabelSpell] at h
  cases capture? with
  | none =>
    have hpast : past ++ (opening none ++ closing (some label.kindAlias) none) = past := List.append_nil past
    rw [hpast] at hlabel hconditions
    refine (yields_flagsUpTo false false hmost h).andThen fun middle hmiddle => ?_
    simp only [Bool.false_or]
    refine (yields_name hmiddle .labelKind).andThen fun named hnamed => ?_
    refine (yields_accept_of_ne hnamed hcolon).andThen fun later hlater => ?_
    refine (gives_labelTerm hlater hlabelSpell.symm hfirst.angle hlabel _).andThen fun term after hafter => ?_
    refine (Yields.pure hafter.2).andThen fun _ hat => ?_
    exact gives_pinnedConditions hinner flags hlimit hpast.symm hafter.1 hconditions (hmore ▸ hat)
  | some name =>
    refine (yields_flagsUpTo false false hmost h).andThen fun middle hmiddle => ?_
    simp only [Bool.false_or]
    refine (yields_name hmiddle .labelKind).andThen fun named hnamed => ?_
    refine (yields_accept hnamed Lexeme.noConfusion).andThen fun later hlater => ?_
    refine (yields_declareCapture hlater hopening.1 _).andThen fun declared hdeclared => ?_
    refine (yields_name hdeclared .labelKind).andThen fun aliased haliased => ?_
    have hname := name_opens past name []
    rw [List.append_nil] at hname
    refine (yields_bindAlias haliased hname (some label.kindAlias)).andThen fun bound hbound => ?_
    have hopened : past ++ [.opens name] ++ [.closes name (some label.kindAlias)] =
        past ++ (opening (some name) ++ closing (some label.kindAlias) (some name)) := List.append_assoc _ _ _
    rw [hopened] at hbound
    refine (gives_labelTerm hbound hlabelSpell.symm hfirst.angle hlabel _).andThen fun term after hafter => ?_
    refine (Yields.pure hafter.2).andThen fun _ hat => ?_
    exact gives_pinnedConditions hinner flags hlimit rfl hafter.1 hconditions (hmore ▸ hat)

theorem gives_group (hinner : AcceptsShort table inner limit) {body : Alternation}
    (hbody : ((alternationRule table).spell body).length < limit)
    (h : before.At table ((alternationRule table).spell body ++ .rightParen :: next :: rest) past)
    (hpermitted : Permitted table past ((alternationRule table).mentions body)) :
    (primaryRule table).Gives table (.group body) (next :: rest) past (do
      if ← accept .question then lookahead inner
      else
        let node ← inner
        expect .rightParen .closingParen
        return node) before := by
  obtain ⟨first, more, hspell, hfirst⟩ := exists_alternation_spell table body
  have hne : first ≠ .question := by
    rintro rfl
    cases hfirst
  rw [hspell] at h
  refine (yields_accept_of_ne h hne).andThen fun middle hmiddle => ?_
  have hmiddle : middle.At table (first :: more ++ .rightParen :: next :: rest) past := hmiddle
  rw [← hspell] at hmiddle
  refine (hinner body hbody hmiddle ⟨rfl, Lexeme.noConfusion⟩ hpermitted).andThen fun node later hlater => ?_
  refine (yields_expect hlater.2 Lexeme.noConfusion .closingParen).andThen fun after hafter => .pure ⟨?_, ?_⟩
  · rw [← hlater.1, resolve_alternation]
    rfl
  · rw [mentions_alternation] at hafter
    exact hafter

theorem accepts_enclosed (hinner : AcceptsShort table inner limit) {primary : Primary}
    (hlimit : primary.spell.length ≤ limit) (hlabel : ∀ label, primary ≠ .label label) :
    (primaryRule table).Accepts table (fun _ => True) (enclosed table inner) primary := by
  intro next rest past before h _ hpermitted
  cases primary with
  | group body =>
    have hspell : (primaryRule table).spell (.group body) =
        .leftParen :: ((alternationRule table).spell body ++ [.rightParen]) := by
      rw [spell_alternation]
      rfl
    have hbody : ((alternationRule table).spell body).length < limit := by
      rw [show Primary.spell _ = _ from hspell] at hlimit
      simp at hlimit
      omega
    rw [hspell, List.cons_append, List.append_assoc] at h
    refine (looks_current h).succeeds ?_
    refine (yields_advance h Lexeme.noConfusion).andThen fun middle hmiddle => ?_
    apply gives_group hinner hbody hmiddle
    rw [mentions_alternation]
    exact hpermitted
  | lookahead negated body =>
    have hspell : (primaryRule table).spell (.lookahead negated body) =
        .leftParen :: .question :: (if negated then .bang else .equals) ::
          ((alternationRule table).spell body ++ [.rightParen]) := by
      rw [spell_alternation]
      rfl
    have hbody : ((alternationRule table).spell body).length < limit := by
      rw [show Primary.spell _ = _ from hspell] at hlimit
      simp at hlimit
      omega
    rw [hspell, List.cons_append, List.cons_append, List.cons_append, List.append_assoc] at h
    refine (looks_current h).succeeds ?_
    refine (yields_advance h Lexeme.noConfusion).andThen fun middle hmiddle => ?_
    refine (yields_accept hmiddle Lexeme.noConfusion).andThen fun later hlater => ?_
    apply gives_lookahead hinner negated hbody hlater
    rw [mentions_alternation]
    exact hpermitted
  | pinned flags capture? label conditions? =>
    have hspell := spell_pinned table flags capture? label conditions?
    have hconditions : ((conditionsRule table).optional.spell conditions?).length < limit := by
      rw [show Primary.spell _ = _ from hspell] at hlimit
      simp at hlimit
      omega
    rw [hspell] at h
    simp only [List.cons_append, List.append_assoc, List.nil_append] at h
    refine (looks_current h).succeeds ?_
    refine (yields_advance h Lexeme.noConfusion).andThen fun middle hmiddle => ?_
    exact gives_pinned hinner hconditions hmiddle hpermitted
  | label label => exact absurd rfl (hlabel label)
  | literal text =>
    refine (looks_current h).succeeds ?_
    refine (looks_offset _).succeeds ?_
    exact (yields_advance h Lexeme.noConfusion).andThen fun middle hmiddle => gives_literal hmiddle hpermitted.1 _

theorem accepts_primary (hinner : AcceptsShort table inner limit) {tree : Primary}
    (hlimit : tree.spell.length ≤ limit) :
    (primaryRule table).Accepts table (· ≠ .leftAngle) (primary table inner) tree := by
  intro next rest past before h hnext hpermitted
  by_cases hlabel : ∃ label, tree = .label label
  · obtain ⟨label, rfl⟩ := hlabel
    refine (looks_current h).succeeds ?_
    refine (looks_offset _).succeeds ?_
    refine (yields_advance h Lexeme.noConfusion).andThen fun middle hmiddle => ?_
    refine (gives_labelTerm hmiddle rfl hnext hpermitted _).andThen fun term after hafter => ?_
    exact .pure ⟨congrArg (Option.map Node.label) hafter.1, hafter.2⟩
  · have hlabel : ∀ label, tree ≠ .label label := fun label heq => hlabel ⟨label, heq⟩
    have henclosed := accepts_enclosed hinner hlimit hlabel h trivial hpermitted
    obtain ⟨first, more, hspell, -, -, hname⟩ := exists_enclosed_spell hlabel
    rw [show (primaryRule table).spell tree = _ from hspell] at h
    refine (looks_current h).succeeds ?_
    split
    · exact absurd rfl (hname _)
    · exact henclosed

/-- A primary without a capture, and the quantifier after it. -/
theorem gives_item {primary : Primary} {quantifier? : Option Quantifier} {node : Node}
    (hresolve : (primaryRule table).resolve? past primary = some node)
    (h : before.At table (spellQuantifier quantifier? ++ next :: rest) (past ++ primary.mentions))
    (hnext : Follows next) (hpermitted : Permitted table (past ++ primary.mentions) (mentionsQuantifier quantifier?)) :
    (elementRule table).Gives table (.item none primary quantifier?) (next :: rest) past (quantified node) before := by
  obtain ⟨body, after, hrun, hbody, hafter⟩ := accepts_quantified node quantifier? h hnext hpermitted
  cases hbody
  have hitem := resolve_item table none primary quantifier? ((List.append_nil past).symm ▸ hresolve)
  refine ⟨_, after, hrun, hitem, ?_⟩
  rw [mentions_item]
  simp only [opening, closing, List.nil_append, List.append_nil, ← List.append_assoc]
  exact hafter

theorem accepts_element (hinner : AcceptsShort table inner limit) {tree : Element}
    (hlimit : tree.spell.length ≤ limit) :
    (elementRule table).Accepts table Follows (element table inner) tree := by
  intro next rest past before h hnext hpermitted
  cases tree with
  | arrow =>
    refine (looks_current h).succeeds ?_
    refine (yields_advance h Lexeme.noConfusion).andThen fun after hafter => .pure ⟨rfl, ?_⟩
    exact (List.append_nil past).symm ▸ hafter
  | item capture? primary quantifier? =>
    rw [spell_item, List.append_assoc, List.append_assoc] at h
    rw [mentions_item] at hpermitted
    obtain ⟨hbody, -⟩ := permitted_append.1 hpermitted
    obtain ⟨hopening, hbody⟩ := permitted_append.1 hbody
    obtain ⟨hprimary, hquantifier⟩ := permitted_append.1 hbody
    have hshort : primary.spell.length ≤ limit := by
      rw [show Element.spell _ = _ from spell_item table capture? primary quantifier?] at hlimit
      simp only [List.length_append] at hlimit
      omega
    obtain ⟨first, more, hmore, hfirst⟩ := exists_quantifier_spell quantifier? hnext rest
    rw [hmore] at h
    cases capture? with
    | some name =>
      refine (looks_current h).succeeds ?_
      refine (looks_offset _).succeeds ?_
      refine (yields_advance h Lexeme.noConfusion).andThen fun named hnamed => ?_
      refine (yields_accept hnamed Lexeme.noConfusion).andThen fun opened hopened => ?_
      refine (yields_declareCapture hopened hopening.1 _).andThen fun declared hdeclared => ?_
      refine (accepts_primary hinner hshort hdeclared hfirst.angle hprimary).andThen fun node middle hmiddle => ?_
      rw [← hmore] at hmiddle
      refine (accepts_quantified node quantifier? hmiddle.2 hnext hquantifier).andThen fun body closed hclosed => ?_
      obtain ⟨hbody, hclosed⟩ := hclosed
      cases hbody
      have hbound : (quantify node quantifier?).boundAlias? = primary.boundAlias? :=
        (boundAlias_quantify node quantifier?).trans (boundAlias_primary hmiddle.1)
      rw [hbound]
      rw [List.append_assoc] at hclosed
      refine (yields_bindAlias hclosed (name_opens past name _) primary.boundAlias?).andThen fun after hafter => ?_
      refine .pure ⟨resolve_item table (some name) primary quantifier? hmiddle.1, ?_⟩
      rw [mentions_item, ← List.append_assoc, ← List.append_assoc]
      exact hafter
    | none =>
      have hpast : past ++ opening none = past := List.append_nil past
      rw [hpast] at hprimary hquantifier
      by_cases hlabel : ∃ label, primary = .label label
      · obtain ⟨label, rfl⟩ := hlabel
        obtain ⟨second, others, hlabelSpell, hcolon⟩ := exists_label_spell label hfirst more
        have h : before.At table (label.spell ++ first :: more) past := h
        rw [hlabelSpell] at h
        refine (looks_current h).succeeds ?_
        refine (looks_offset _).succeeds ?_
        refine (yields_advance h Lexeme.noConfusion).andThen fun named hnamed => ?_
        refine (yields_accept_of_ne hnamed hcolon).andThen fun later hlater => ?_
        refine (gives_labelTerm hlater hlabelSpell.symm hfirst.angle hprimary _).andThen fun term middle hmiddle => ?_
        rw [← hmore] at hmiddle
        exact gives_item (congrArg (Option.map Node.label) hmiddle.1) hmiddle.2 hnext hquantifier
      · have hlabel : ∀ label, primary ≠ .label label := fun label heq => hlabel ⟨label, heq⟩
        have henclosed := accepts_enclosed hinner hshort hlabel h trivial hprimary
        obtain ⟨opener, others, hspell, -, harrow, hname⟩ := exists_enclosed_spell hlabel
        rw [hspell] at h
        refine (looks_current h).succeeds ?_
        split
        · exact absurd rfl harrow
        · exact absurd rfl (hname _)
        · refine henclosed.andThen fun node middle hmiddle => ?_
          rw [← hmore] at hmiddle
          exact gives_item hmiddle.1 hmiddle.2 hnext hquantifier

theorem accepts_sequence (hinner : AcceptsShort table inner limit) {tree : Sequence}
    (hlimit : ((sequenceRule table).spell tree).length ≤ limit) :
    (sequenceRule table).Accepts table (fun next => endsSequence next = true) (sequence table inner) tree := by
  intro next rest past before h hnext hpermitted
  have hopens (element : Element) : ∃ first more, (elementRule table).spell element = first :: more ∧
      endsSequence first = false ∧ Follows first := by
    obtain ⟨first, more, hspell, hfirst⟩ := exists_element_spell element
    exact ⟨first, more, hspell, endsSequence_of_opens hfirst, .inl hfirst⟩
  have helements : ((elementRule table).series []).Accepts table
      (fun next => endsSequence next = true ∧ Follows next)
      (untilEndUpTo (element table inner) (before.ahead.length + 1)) tree := by
    apply accepts_untilEndUpTo
    · intro element hmem
      exact accepts_element hinner (Nat.le_trans (tree.length_spell_le [] Element.spell hmem) hlimit)
    · exact fun element _ => hopens element
    · have hitems : tree.items.length ≤ ((sequenceRule table).spell tree).length := by
        apply tree.length_items_le_spell
        intro element _ hnil
        obtain ⟨first, more, hspell, -⟩ := hopens element
        exact List.cons_ne_nil first more (hspell.symm.trans hnil)
      have hlength := h.length_ahead
      simp only [List.length_append, List.length_cons] at hlength
      omega
  refine Succeeds.andThen (p := untilEnd (element table inner)) (R := fun nodes after =>
    ((elementRule table).series []).resolve? past tree = some nodes ∧
      after.At table (next :: rest) (past ++ (sequenceRule table).mentions tree)) ?_ fun nodes after hafter => ?_
  · refine (looks_get _).succeeds ?_
    exact helements h ⟨hnext, .inr hnext⟩ hpermitted
  have hresolve : (sequenceRule table).resolve? past tree = some (joinSequence nodes) :=
    congrArg (Option.map joinSequence) hafter.1
  rcases nodes with _ | ⟨node, _ | ⟨second, others⟩⟩
  · exact absurd rfl (Rule.resolve_ne_nil hafter.1)
  · exact .pure ⟨hresolve, hafter.2⟩
  · exact .pure ⟨hresolve, hafter.2⟩

/-- Brackets that are open at a time take lexemes each, so the depth is never exhausted. -/
theorem accepts_alternation (table : AliasTable) (depth : Nat) :
    AcceptsShort table (alternation table depth) depth := by
  induction depth with
  | zero => exact fun body hbody => absurd hbody (Nat.not_lt_zero _)
  | succ depth ih =>
    intro tree htree next rest past before h hnext hpermitted
    have hsequences : ((sequenceRule table).series [.pipe]).Accepts table Closes
        (separated .pipe (sequence table (alternation table depth))) tree := by
      apply accepts_separated Lexeme.noConfusion fun hpipe => hpipe.2 rfl
      intro sequence hmem next rest past before h hnext hpermitted
      have hlength := tree.length_spell_le [.pipe] (sequenceRule table).spell hmem
      apply accepts_sequence ih (Nat.le_trans hlength (Nat.le_of_lt_succ htree)) h _ hpermitted
      rcases hnext with rfl | hnext
      · rfl
      · exact hnext.1
    refine (hsequences h hnext hpermitted).andThen fun nodes after hafter => ?_
    have hresolve : (alternationRule table).resolve? past tree = some (joinAlternation nodes) :=
      congrArg (Option.map joinAlternation) hafter.1
    rcases nodes with _ | ⟨node, _ | ⟨second, others⟩⟩
    · exact .pure ⟨hresolve, hafter.2⟩
    · exact .pure ⟨hresolve, hafter.2⟩
    · exact .pure ⟨hresolve, hafter.2⟩

end

end

end Parse

end TextAnnotation.Pattern
