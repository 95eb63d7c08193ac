import TextAnnotation.Pattern.Parser
import TextAnnotation.Proofs.Pattern.Locating

/-!
Where patterns are refused. A parser reports the error that the text of the pattern breaks off with, or an error at the
offset of the lexeme that is to blame, which need not be the lexeme under it any more.
-/

namespace TextAnnotation.Pattern

open Text (byteLength)

/-- The lexeme at which a fault is reported. -/
def Fault.IsAt : Fault → Lexeme → Prop
  | expected _ found, lexeme => lexeme = found
  | invalidCount value, lexeme => lexeme = .integer value
  | maximumBelowMinimum _ _, _ => True
  | reluctantRepetition, lexeme => lexeme = .question
  | severalKinds capture, lexeme => lexeme = .name capture
  | emptyLiteral, lexeme => ∃ text, lexeme = .text text
  | _, _ => False

/-- The lexeme at which a problem is reported. -/
def Problem.IsAt : Problem → Lexeme → Prop
  | malformed fault, lexeme => fault.IsAt lexeme
  | unknownAlias kindAlias, lexeme => lexeme = .name kindAlias
  | unknownAccessor _ accessor, lexeme => lexeme = .name accessor
  | duplicateCapture name, lexeme => lexeme = .name name
  | unknownCapture name, lexeme => lexeme = .name name
  | noTokenKind, lexeme => ∃ text, lexeme = .text text

/-- An error that lexemes account for: the text breaks off with it, or it is at one of them. -/
def Lexed.Blames (lexed : Lexed) (e : PatternError) : Prop :=
  lexed.failure? = some e ∨ ∃ located ∈ lexed.lexemes, e.offset = located.offset ∧ e.problem.IsAt located.lexeme

/-- Parsing has got somewhere in the lexemes of a text. -/
structure Progress.Within (lexed : Lexed) (progress : Progress) : Prop where
  current : progress.current ∈ lexed.lexemes
  ahead : ∀ located ∈ progress.ahead, located ∈ lexed.lexemes
  failure : progress.failure? = lexed.failure?

namespace Parse

variable {lexed : Lexed}

/-- What holds of a result, and that an error is accounted for. -/
def Answers (lexed : Lexed) (p : Parse α) (before : Progress) (Q : α → Prop) : Prop :=
  match p before with
  | .ok (a, after) => after.Within lexed ∧ Q a
  | .error e => lexed.Blames e

/-- A parser all errors of which are accounted for, and what holds of its results. -/
def Careful (lexed : Lexed) (p : Parse α) (Q : α → Prop) : Prop :=
  ∀ before, before.Within lexed → p.Answers lexed before Q

theorem Answers.bind {p : Parse α} {f : α → Parse β} {before : Progress} {R : α → Prop} {Q : β → Prop}
    (h : p.Answers lexed before R) (hf : ∀ a, R a → (f a).Careful lexed Q) : (p >>= f).Answers lexed before Q := by
  rcases hp : p before with e | ⟨a, after⟩
  · simp only [Answers, hp] at h
    simpa only [Answers, Bind.bind, StateT.bind, hp, Except.bind] using h
  · simp only [Answers, hp] at h
    simpa only [Answers, Bind.bind, StateT.bind, hp, Except.bind] using hf a h.2 after h.1

section
variable {p : Parse α} {f : α → Parse β} {R : α → Prop} {Q : β → Prop}

theorem Careful.bind (hp : p.Careful lexed R) (hf : ∀ a, R a → (f a).Careful lexed Q) :
    (p >>= f).Careful lexed Q :=
  fun before hbefore => (hp before hbefore).bind hf

theorem Careful.pure {a : α} (h : R a) : (Pure.pure a : Parse α).Careful lexed R :=
  fun _ hbefore => ⟨hbefore, h⟩

theorem Careful.done (a : α) : (Pure.pure a : Parse α).Careful lexed fun _ => True := .pure trivial

theorem Careful.throw {e : PatternError} (h : lexed.Blames e) :
    (MonadExcept.throw e : Parse α).Careful lexed R := fun _ _ => h

theorem Careful.get : (MonadState.get : Parse Progress).Careful lexed fun _ => True :=
  fun _ hbefore => ⟨hbefore, trivial⟩

/-- A parser that looks at the current lexeme first, and is still there then. -/
theorem Careful.current {f : Lexeme → Parse β}
    (h : ∀ before, before.Within lexed → (f before.current.lexeme).Answers lexed before Q) :
    (Parse.current >>= f).Careful lexed Q := h

/-- A parser that looks at the whole progress first. -/
theorem Careful.progress {f : Progress → Parse β}
    (h : ∀ before, before.Within lexed → (f before).Answers lexed before Q) :
    (MonadState.get >>= f).Careful lexed Q := h

theorem Answers.offset {f : Nat → Parse β} {before : Progress}
    (h : (f before.current.offset).Answers lexed before Q) : (Parse.offset >>= f).Answers lexed before Q := h

end

theorem blames_at {located : Located} (h : located ∈ lexed.lexemes) {problem : Problem}
    (hat : problem.IsAt located.lexeme) : lexed.Blames ⟨problem, located.offset⟩ :=
  .inr ⟨located, h, rfl, hat⟩

theorem answers_malformed (fault : Fault) {before : Progress} (hbefore : before.Within lexed)
    (h : fault.IsAt before.current.lexeme) (Q : α → Prop) : (malformed fault).Answers lexed before Q :=
  blames_at hbefore.current h

theorem careful_unexpected (what : Expectation) (Q : α → Prop) : (unexpected what).Careful lexed Q :=
  fun _ hbefore => blames_at hbefore.current rfl

theorem careful_advance : advance.Careful lexed fun _ => True := by
  rintro ⟨current, ahead, failure?, kinds, captures⟩ ⟨hcurrent, hahead, hfailure⟩
  cases ahead with
  | nil =>
    cases failure? with
    | none => exact ⟨⟨hcurrent, hahead, hfailure⟩, trivial⟩
    | some e => exact .inl hfailure.symm
  | cons next ahead =>
    obtain ⟨hnext, hahead⟩ := List.forall_mem_cons.1 hahead
    exact ⟨⟨hnext, hahead, hfailure⟩, trivial⟩

theorem careful_advanced {a : α} {Q : α → Prop} (h : Q a) :
    (do advance; return a : Parse α).Careful lexed Q :=
  careful_advance.bind fun _ _ => .pure h

theorem careful_expect (lexeme : Lexeme) (what : Expectation) :
    (expect lexeme what).Careful lexed fun _ => True := by
  apply Careful.current
  intro before hbefore
  split
  · exact careful_advance before hbefore
  · exact careful_unexpected what _ before hbefore

theorem careful_accept (lexeme : Lexeme) : (accept lexeme).Careful lexed fun _ => True := by
  apply Careful.current
  intro before hbefore
  split
  · exact careful_advanced trivial before hbefore
  · exact Careful.done _ before hbefore

/-- A name that has been read stands among the lexemes, wherever the parser has come to by then. -/
theorem careful_name (what : Expectation) :
    (name what).Careful lexed fun found => ⟨.name found.1, found.2⟩ ∈ lexed.lexemes := by
  apply Careful.current
  intro before hbefore
  have hcurrent := hbefore.current
  split
  · rename_i value hvalue
    have hat : ⟨.name value, before.current.offset⟩ ∈ lexed.lexemes := hvalue ▸ hcurrent
    apply Answers.offset
    refine careful_advanced ?_ before hbefore
    exact hat
  · exact careful_unexpected what _ before hbefore

section
variable {item : Parse α}

theorem careful_separated (hitem : item.Careful lexed fun _ => True) (separator : Lexeme) :
    (separated separator item).Careful lexed fun _ => True := by
  have hupTo (more : Nat) : (separatedUpTo separator item more).Careful lexed fun _ => True := by
    induction more with
    | zero => exact hitem.bind fun _ _ => .done _
    | succ more ih =>
      apply hitem.bind
      intro first _
      apply (careful_accept separator).bind
      intro found _
      split
      · exact ih.bind fun _ _ => .done _
      · exact .done _
  exact Careful.get.bind fun _ _ => hupTo _

theorem careful_untilEnd (hitem : item.Careful lexed fun _ => True) :
    (untilEnd item).Careful lexed fun _ => True := by
  have hupTo (most : Nat) : (untilEndUpTo item most).Careful lexed fun _ => True := by
    induction most with
    | zero => exact .done _
    | succ most ih =>
      apply Careful.current
      intro before hbefore
      split
      · exact Careful.done _ before hbefore
      · apply (hitem before hbefore).bind
        intro _ _
        exact ih.bind fun _ _ => .done _
  exact Careful.get.bind fun _ _ => hupTo _

end

theorem careful_kindSlot (kind : LabelKind) : (kindSlot kind).Careful lexed fun _ => True := by
  -- The parser stays where it is, and `Within` says nothing of the kinds.
  apply Careful.progress
  intro before hbefore
  split
  · exact Careful.done _ before hbefore
  · exact ⟨⟨hbefore.current, hbefore.ahead, hbefore.failure⟩, trivial⟩

theorem careful_declareCapture {name : String} {offset : Nat} (h : ⟨.name name, offset⟩ ∈ lexed.lexemes) :
    (declareCapture name offset).Careful lexed fun _ => True := by
  apply Careful.progress
  intro before hbefore
  split
  · exact blames_at h rfl
  · exact ⟨⟨hbefore.current, hbefore.ahead, hbefore.failure⟩, trivial⟩

theorem careful_bindAlias (slot : Nat) (boundAlias? : Option String) :
    (bindAlias slot boundAlias?).Careful lexed fun _ => True :=
  fun _ hbefore => ⟨⟨hbefore.current, hbefore.ahead, hbefore.failure⟩, trivial⟩

theorem careful_value : value.Careful lexed fun _ => True := by
  have hread (found : AttributeValue) : (do
      let value ← (Pure.pure found : Parse AttributeValue)
      advance
      return value : Parse AttributeValue).Careful lexed fun _ => True :=
    (Careful.done _).bind fun _ _ => careful_advanced trivial
  apply Careful.current
  intro before hbefore
  split
  · exact hread _ before hbefore
  · exact hread _ before hbefore
  · exact hread _ before hbefore
  · exact hread _ before hbefore
  · exact hread _ before hbefore
  · exact (careful_unexpected .value (fun _ => True)).bind (fun _ _ => careful_advanced trivial) before hbefore

theorem careful_captured (table : AliasTable) : (captured table).Careful lexed fun _ => True := by
  -- Both names have been passed over by the time that they are found to be unknown.
  apply (careful_name .captureName).bind
  intro found hfound
  apply Careful.get.bind
  intro progress _
  obtain ⟨name, offset⟩ := found
  dsimp only
  split
  · exact .throw (blames_at hfound rfl)
  apply (careful_accept .dot).bind
  intro dot _
  split
  · apply (careful_name .accessor).bind
    intro accessor haccessor
    split
    · exact .throw (blames_at hfound rfl)
    · split
      · exact .throw (blames_at haccessor rfl)
      · exact .done _
  · exact .done _

theorem careful_predicate (table : AliasTable) (kindAlias : String) (registered : RegisteredKind) :
    (predicate table kindAlias registered).Careful lexed fun _ => True := by
  apply (careful_name .accessor).bind
  intro accessor haccessor
  dsimp only
  split
  · exact .throw (blames_at haccessor rfl)
  apply (careful_expect .equals .equals).bind
  intro _ _
  apply (careful_accept .dollar).bind
  intro dollar _
  split
  · exact (careful_captured table).bind fun _ _ => .done _
  · exact careful_value.bind fun _ _ => (Careful.done _).bind fun _ _ => .done _

theorem careful_labelTerm (table : AliasTable) {kindAlias : String} {offset : Nat}
    (h : ⟨.name kindAlias, offset⟩ ∈ lexed.lexemes) :
    (labelTerm table kindAlias offset).Careful lexed fun _ => True := by
  unfold labelTerm
  split
  · exact .throw (blames_at h rfl)
  rename_i registered hregistered
  apply (careful_kindSlot registered.kind).bind
  intro slot _
  apply (careful_accept .leftAngle).bind
  intro angle _
  split
  · apply (careful_separated (careful_predicate table kindAlias registered) .comma).bind
    intro _ _
    exact (careful_expect .rightAngle .closingAngle).bind fun _ _ => .done _
  · exact .done _

theorem careful_literal (table : AliasTable) {text : String} {offset : Nat}
    (h : ⟨.text text, offset⟩ ∈ lexed.lexemes) : (literal table text offset).Careful lexed fun _ => True := by
  unfold literal
  split
  · exact .throw (blames_at h ⟨text, rfl⟩)
  rename_i read hread
  apply (careful_kindSlot read.kind).bind
  intro slot _
  dsimp only
  split
  · exact .throw (blames_at h ⟨text, rfl⟩)
  · exact .done _

theorem careful_count : count.Careful lexed fun _ => True := by
  apply Careful.current
  intro before hbefore
  split
  · rename_i n hn
    split
    · exact careful_advanced trivial before hbefore
    · exact answers_malformed (.invalidCount n) hbefore hn _
  · exact careful_unexpected .count _ before hbefore

theorem careful_bounds : bounds.Careful lexed fun _ => True := by
  apply careful_count.bind
  intro minimum _
  apply (careful_accept .comma).bind
  intro comma _
  extract_lets check
  have hcheck (maximum? : Option Nat) : (check maximum?).Careful lexed fun _ => True := by
    unfold check
    extract_lets close
    have hclose (checked : PUnit) : (close checked).Careful lexed fun _ => True := by
      apply Careful.current
      intro before hbefore
      split
      · exact Careful.done _ before hbefore
      · exact careful_unexpected .closingBrace _ before hbefore
    split
    · split
      · intro before hbefore
        apply (answers_malformed (.maximumBelowMinimum _ _) hbefore trivial fun _ => True).bind
        intro checked _
        exact hclose checked
      · exact hclose ⟨⟩
    · exact hclose ⟨⟩
  split
  · apply Careful.current
    intro before hbefore
    split
    · exact (Careful.done _).bind (fun found _ => hcheck found) before hbefore
    · have hmaximum : (some <$> count).Careful lexed fun _ => True := careful_count.bind fun _ _ => .done _
      exact hmaximum.bind (fun found _ => hcheck found) before hbefore
  · exact (Careful.done _).bind fun found _ => hcheck found

theorem careful_quantifierBounds? : quantifierBounds?.Careful lexed fun _ => True := by
  apply Careful.current
  intro before hbefore
  split
  · exact Careful.done _ before hbefore
  · exact Careful.done _ before hbefore
  · exact Careful.done _ before hbefore
  · apply (careful_advance before hbefore).bind
    intro _ _
    exact careful_bounds.bind fun _ _ => .done _
  · exact Careful.done _ before hbefore

theorem careful_quantified (node : Node) : (quantified node).Careful lexed fun _ => True := by
  apply careful_quantifierBounds?.bind
  intro found _
  split
  · exact .done _
  apply careful_advance.bind
  intro _ _
  apply Careful.current
  intro before hbefore
  dsimp only
  split
  · exact careful_advanced trivial before hbefore
  · rename_i hquestion
    exact (answers_malformed .reluctantRepetition hbefore hquestion fun _ => True).bind fun _ _ => .done _
  · exact Careful.done _ before hbefore

section
variable {inner : Parse Node}

theorem careful_lookahead (hinner : inner.Careful lexed fun _ => True) :
    (lookahead inner).Careful lexed fun _ => True := by
  have hrest (negated : Bool) : (do
      advance
      let body ← inner
      expect .rightParen .closingParen
      return .lookahead body negated : Parse Node).Careful lexed fun _ => True := by
    apply careful_advance.bind
    intro _ _
    apply hinner.bind
    intro body _
    exact (careful_expect .rightParen .closingParen).bind fun _ _ => .done _
  apply Careful.current
  intro before hbefore
  dsimp only
  split
  · exact hrest false before hbefore
  · exact hrest true before hbefore
  · exact (careful_unexpected .lookaheadSign fun _ => True).bind (fun negated _ => hrest negated) before hbefore

theorem careful_flagsUpTo (seek exact : Bool) (most : Nat) :
    (flagsUpTo seek exact most).Careful lexed fun _ => True := by
  induction most generalizing seek exact with
  | zero => exact .done _
  | succ most ih =>
    apply (careful_accept .question).bind
    intro question _
    split
    · exact ih true exact
    apply (careful_accept .bang).bind
    intro bang _
    split
    · exact ih seek true
    · exact .done _

theorem careful_conditions {Q : Node → Prop} (hinner : inner.Careful lexed fun _ => True) {f : List Node → Parse Node}
    (hf : ∀ conditions, (f conditions).Careful lexed Q) : (do
      let conditions ← if (← current) = .rightBracket then Pure.pure [] else separated .ampersand inner
      f conditions : Parse Node).Careful lexed Q := by
  apply Careful.current
  intro before hbefore
  split
  · exact (Careful.done []).bind (fun conditions _ => hf conditions) before hbefore
  · exact (careful_separated hinner .ampersand).bind (fun conditions _ => hf conditions) before hbefore

theorem careful_pinnedEnd (capture? : Option Nat) (term : LabelTerm) (seek exact : Bool)
    (conditions : List Node) : (do
      expect .rightBracket .closingBracket
      let node := Node.pinned term seek exact conditions
      match capture? with
      | some slot => return .capture slot node
      | none => return node : Parse Node).Careful lexed fun _ => True := by
  apply (careful_expect .rightBracket .closingBracket).bind
  intro _ _
  dsimp only
  split
  · exact .done _
  · exact .done _

theorem careful_pinned (table : AliasTable) (hinner : inner.Careful lexed fun _ => True) :
    (pinned table inner).Careful lexed fun _ => True := by
  apply Careful.get.bind
  intro progress _
  apply (careful_flagsUpTo false false _).bind
  intro flags _
  apply (careful_name .labelKind).bind
  intro found hfound
  obtain ⟨seek, exact⟩ := flags
  obtain ⟨name, offset⟩ := found
  dsimp only
  apply (careful_accept .colon).bind
  intro colon _
  split
  · apply (careful_declareCapture hfound).bind
    intro slot _
    apply (careful_name .labelKind).bind
    intro label hlabel
    apply (careful_bindAlias slot (some label.1)).bind
    intro _ _
    apply (careful_labelTerm table hlabel).bind
    intro term _
    exact (Careful.done _).bind fun pinned _ => careful_conditions hinner (careful_pinnedEnd pinned.1 pinned.2 seek exact)
  · apply (careful_labelTerm table hfound).bind
    intro term _
    exact (Careful.done _).bind fun pinned _ => careful_conditions hinner (careful_pinnedEnd pinned.1 pinned.2 seek exact)

theorem careful_enclosed (table : AliasTable) (hinner : inner.Careful lexed fun _ => True) :
    (enclosed table inner).Careful lexed fun _ => True := by
  apply Careful.current
  intro before hbefore
  have hcurrent := hbefore.current
  split
  · apply (careful_advance before hbefore).bind
    intro _ _
    apply (careful_accept .question).bind
    intro question _
    split
    · exact careful_lookahead hinner
    · apply hinner.bind
      intro node _
      exact (careful_expect .rightParen .closingParen).bind fun _ _ => .done _
  · exact careful_advance.bind (fun _ _ => careful_pinned table hinner) before hbefore
  · rename_i text htext
    apply Answers.offset
    have hat : ⟨.text text, before.current.offset⟩ ∈ lexed.lexemes := htext ▸ hcurrent
    exact careful_advance.bind (fun _ _ => careful_literal table hat) before hbefore
  · exact careful_unexpected .term _ before hbefore

theorem careful_primary (table : AliasTable) (hinner : inner.Careful lexed fun _ => True) :
    (primary table inner).Careful lexed fun _ => True := by
  apply Careful.current
  intro before hbefore
  have hcurrent := hbefore.current
  split
  · rename_i kindAlias hname
    apply Answers.offset
    have hat : ⟨.name kindAlias, before.current.offset⟩ ∈ lexed.lexemes := hname ▸ hcurrent
    apply (careful_advance before hbefore).bind
    intro _ _
    exact (careful_labelTerm table hat).bind fun _ _ => .done _
  · exact careful_enclosed table hinner before hbefore

theorem careful_element (table : AliasTable) (hinner : inner.Careful lexed fun _ => True) :
    (element table inner).Careful lexed fun _ => True := by
  apply Careful.current
  intro before hbefore
  have hcurrent := hbefore.current
  split
  · exact careful_advanced trivial before hbefore
  · rename_i name hname
    apply Answers.offset
    have hat : ⟨.name name, before.current.offset⟩ ∈ lexed.lexemes := hname ▸ hcurrent
    apply (careful_advance before hbefore).bind
    intro _ _
    apply (careful_accept .colon).bind
    intro colon _
    split
    · apply (careful_declareCapture hat).bind
      intro slot _
      apply (careful_primary table hinner).bind
      intro node _
      apply (careful_quantified node).bind
      intro body _
      exact (careful_bindAlias slot body.boundAlias?).bind fun _ _ => .done _
    · exact (careful_labelTerm table hat).bind fun term _ => careful_quantified _
  · exact (careful_enclosed table hinner).bind (fun node _ => careful_quantified node) before hbefore

theorem careful_sequence (table : AliasTable) (hinner : inner.Careful lexed fun _ => True) :
    (sequence table inner).Careful lexed fun _ => True := by
  apply (careful_untilEnd (careful_element table hinner)).bind
  intro elements _
  split
  · exact careful_unexpected .term _
  · exact .done _
  · exact .done _

theorem careful_alternation (table : AliasTable) (depth : Nat) :
    (alternation table depth).Careful lexed fun _ => True := by
  induction depth with
  | zero => exact careful_unexpected .term _
  | succ depth ih =>
    apply (careful_separated (careful_sequence table ih) .pipe).bind
    intro alternatives _
    split
    · exact .done _
    · exact .done _

end

end Parse

/-- A pattern that is accepted has been lexed to its end, and an error of one that is refused is accounted for. -/
theorem parse_answers (table : AliasTable) (source : String) :
    match parse table source with
    | .ok _ => (lex source).failure? = none
    | .error e => (lex source).Blames e := by
  have hnil (h : (lex source).lexemes = []) : ∃ e, (lex source).failure? = some e := failure?_of_nil h
  have hlast {last : Located} (h : last ∈ (lex source).lexemes) (hfinish : last.lexeme = .finish) :
      (lex source).failure? = none := failure?_of_finish h hfinish
  unfold parse
  generalize lex source = lexed at hnil hlast ⊢
  obtain ⟨_ | ⟨first, ahead⟩, failure?⟩ := lexed
  · obtain ⟨e, he⟩ := hnil rfl
    cases he
    exact .inl rfl
  have hstart : Progress.Within ⟨first :: ahead, failure?⟩ { current := first, ahead, failure? } :=
    ⟨List.mem_cons_self, fun _ => List.mem_cons_of_mem _, rfl⟩
  have hrun := Parse.careful_alternation table (ahead.length + 2) _ hstart
  unfold Parse.Answers at hrun
  simp only [StateT.run, bind, Except.bind]
  rcases hresult : Parse.alternation table (ahead.length + 2) { current := first, ahead, failure? } with
    e | ⟨root, progress⟩
  · rw [hresult] at hrun
    exact hrun
  rw [hresult] at hrun
  have hcurrent := hrun.1.current
  by_cases hfinish : progress.current.lexeme = .finish
  · simp only [if_pos hfinish]
    exact hlast hcurrent hfinish
  · simp only [if_neg hfinish]
    have hat : (Problem.malformed (.expected .finish progress.current.lexeme)).IsAt progress.current.lexeme := rfl
    exact Parse.blames_at hcurrent hat

/-- What a text begins with where a problem of it is reported. -/
def Problem.BeginsAt : Problem → List Char → Prop
  | unknownAlias name, cs => BeginsWithName name cs
  | unknownAccessor _ name, cs => BeginsWithName name cs
  | duplicateCapture name, cs => BeginsWithName name cs
  | unknownCapture name, cs => BeginsWithName name cs
  | noTokenKind, cs => cs.head? = some '"'
  | malformed _, _ => True

theorem beginsAt_of_isAt {problem : Problem} {lexeme : Lexeme} {cs : List Char} (hat : problem.IsAt lexeme)
    (h : lexeme.FitsAt cs) : problem.BeginsAt cs := by
  cases problem with
  | malformed fault => trivial
  | unknownAlias name =>
    cases hat
    exact h
  | unknownAccessor kindAlias name =>
    cases hat
    exact h
  | duplicateCapture name =>
    cases hat
    exact h
  | unknownCapture name =>
    cases hat
    exact h
  | noTokenKind =>
    obtain ⟨text, rfl⟩ := hat
    exact h

theorem stands_of_blames {source : String} {e : PatternError} (h : (lex source).Blames e) :
    Stands source.toList e.offset e.problem.BeginsAt := by
  have hsource : source.toList = [] ++ source.toList := rfl
  obtain ⟨hlexemes, hfailure⟩ := lexFrom_located hsource rfl
  rcases h with hbreaks | ⟨located, hmem, hoffset, hat⟩
  · obtain ⟨⟨fault, hfault⟩, hstands⟩ := hfailure e hbreaks
    rw [hfault]
    exact hstands
  · rw [hoffset]
    exact (hlexemes located hmem).imp fun _ => beginsAt_of_isAt hat

/-- The offset of an error is a place in the text of the pattern, at which the name that the error complains of begins,
or the literal that no tokens are registered for. -/
theorem error_stands_at_cause {table : AliasTable} {source : String} {e : PatternError}
    (h : parse table source = .error e) :
    e.offset ≤ byteLength source.toList ∧
      ∃ before after, Text.splitAt? source.toList e.offset = some (before, after) ∧ e.problem.BeginsAt after := by
  have hblames := parse_answers table source
  rw [h] at hblames
  obtain ⟨before, after, hsource, hoffset, hbegins⟩ := stands_of_blames hblames
  have hlength := congrArg byteLength hsource
  rw [Text.byteLength_append, hoffset] at hlength
  have hsplit := Text.splitAt?_byteLength before after
  rw [← hsource, hoffset] at hsplit
  exact ⟨by omega, before, after, hsplit, hbegins⟩

/-- What a text is refused for. -/
def refusal? (table : AliasTable) (source : String) : Option PatternError :=
  match parse table source with
  | .error e => some e
  | .ok _ => none

theorem refusal?_eq_some_iff {table : AliasTable} {source : String} {e : PatternError} :
    refusal? table source = some e ↔ parse table source = .error e := by
  unfold refusal?
  split <;> simp [*]

def twiceAliases : AliasTable := AliasTable.registerToken ⟨.empty, none⟩ "Word" { name := "Word" } []

/-- The second of two captures of one name is refused where it stands, behind characters of two bytes each. -/
theorem error_stands_at_cause_twice :
    parse twiceAliases "w:\"ééé\" w:Word" = .error ⟨.duplicateCapture "w", 11⟩ ∧
      ∃ before after, Text.splitAt? "w:\"ééé\" w:Word".toList 11 = some (before, after) ∧ BeginsWithName "w" after := by
  have hparse : parse twiceAliases "w:\"ééé\" w:Word" = .error ⟨.duplicateCapture "w", 11⟩ :=
    refusal?_eq_some_iff.1 (by decide +kernel)
  obtain ⟨_, hplace⟩ := error_stands_at_cause hparse
  exact ⟨hparse, hplace⟩

end TextAnnotation.Pattern
