import TextAnnotation.Proofs.Pattern.Rule

/-!
What parsers take is spelled by the grammar. Whenever a parser gives something, the lexemes that it has stepped
over are those of a derivation, everything that the derivation mentions is permitted, and what the parser gives is
what the derivation stands for.
-/

namespace TextAnnotation.Pattern

open Grammar

namespace Grammar.Rule

variable {rule : Rule α β} {table : AliasTable} {left : List Lexeme} {past : List Mention} {b : β}
  {after : Progress}

theorem Derived.map (h : rule.Derived table left past b after) (f : β → γ) :
    (rule.map f).Derived table left past (f b) after := by
  obtain ⟨tree, rest, hspell, hpermitted, hresolve, hafter⟩ := h
  exact ⟨tree, rest, hspell, hpermitted, congrArg (Option.map f) hresolve, hafter⟩

theorem Derived.last (h : rule.Derived table left past b after) (separator : List Lexeme) :
    (rule.series separator).Derived table left past [b] after := by
  obtain ⟨tree, rest, hspell, hpermitted, hresolve, hafter⟩ := h
  exact ⟨.last tree, rest, hspell, hpermitted, congrArg (Option.map ([·])) hresolve, hafter⟩

theorem Derived.next {separator middle : List Lexeme} {tree : α} {bs : List β}
    (hpermitted : Permitted table past (rule.mentions tree)) (hresolve : rule.resolve? past tree = some b)
    (h : (rule.series separator).Derived table middle (past ++ rule.mentions tree) bs after) :
    (rule.series separator).Derived table (rule.spell tree ++ (separator ++ middle)) past (b :: bs) after := by
  obtain ⟨trees, rest, rfl, hpermitteds, hresolves, hafter⟩ := h
  have hall : (rule.series separator).resolve? past (.next tree trees) = some (b :: bs) :=
    resolve_cons hresolve hresolves
  refine ⟨.next tree trees, rest, ?_, permitted_append.2 ⟨hpermitted, hpermitteds⟩, hall, ?_⟩
  · change _ = rule.spell tree ++ separator ++ (rule.series separator).spell trees ++ rest
    rw [List.append_assoc, List.append_assoc]
  · rw [List.append_assoc] at hafter
    exact hafter

end Grammar.Rule

namespace Parse

variable {rule : Rule α β} {item : Parse β} {table : AliasTable} {left : List Lexeme} {past : List Mention}
  {before : Progress}

theorem sound_separatedUpTo {separator : Lexeme} (hitem : rule.Sound table item) (hne : separator ≠ .finish)
    (more : Nat) : (rule.series [separator]).Sound table (separatedUpTo separator item more) := by
  induction more with
  | zero =>
    intro left past before h
    exact (hitem h).andThen fun b after hafter => .pure (hafter.last _)
  | succ more ih =>
    intro left past before h
    refine (hitem h).andThen fun b middle hmiddle => ?_
    have hlast := hmiddle.last [separator]
    obtain ⟨tree, rest, rfl, hpermitted, hresolve, hmiddle⟩ := hmiddle
    refine (ensures_accept hmiddle hne).andThen fun accepted next hnext => ?_
    rcases hnext with ⟨rfl, rest, rfl, hnext⟩ | ⟨rfl, hnext⟩
    · exact (ih hnext).andThen fun bs after hafter => .pure (.next hpermitted hresolve hafter)
    · exact .pure (Rule.Derived.last ⟨tree, rest, rfl, hpermitted, hresolve, hnext⟩ _)

theorem sound_separated {separator : Lexeme} (hitem : rule.Sound table item) (hne : separator ≠ .finish) :
    (rule.series [separator]).Sound table (separated separator item) := by
  intro left past before h
  refine (looks_get _).ensures ?_
  exact sound_separatedUpTo hitem hne _ h

/-- No item may come before the end of a sequence. -/
theorem ensures_items (hitem : rule.Sound table item) (most : Nat) (h : before.At table left past) :
    (untilEndUpTo item most).Ensures before fun bs after =>
      bs = [] ∧ after.At table left past ∨ (rule.series []).Derived table left past bs after := by
  induction most generalizing left past before with
  | zero => exact .pure (.inl ⟨rfl, h⟩)
  | succ most ih =>
    obtain ⟨lexeme, rest, rfl⟩ := h.exists_cons
    refine (looks_current h).ensures ?_
    split
    · exact .pure (.inl ⟨rfl, h⟩)
    refine (hitem h).andThen fun b middle hmiddle => ?_
    obtain ⟨tree, rest, hspell, hpermitted, hresolve, hmiddle⟩ := hmiddle
    refine (ih hmiddle).andThen fun bs after hafter => ?_
    rw [hspell]
    rcases hafter with ⟨rfl, hafter⟩ | hafter
    · exact .pure (.inr (Rule.Derived.last ⟨tree, rest, rfl, hpermitted, hresolve, hafter⟩ _))
    · exact .pure (.inr (.next hpermitted hresolve hafter))

theorem yields_value {operand : Operand} {found : AttributeValue} {rest : List Lexeme}
    (hvalue : operand.resolve? table past = some (.value found))
    (h : before.At table (operand.spell ++ rest) past) : value.Yields before found (·.At table rest past) := by
  have hfinish {lexeme : Lexeme} (h : before.At table (lexeme :: rest) past) (hne : lexeme ≠ .finish)
      (found : AttributeValue) : (do advance; return found : Parse AttributeValue).Yields before found
        (·.At table rest past) :=
    (yields_advance h hne).bind fun after hafter => .pure hafter
  cases operand with
  | text text =>
    cases hvalue
    exact (looks_current h).yields (hfinish h Lexeme.noConfusion _)
  | integer n =>
    cases hvalue
    exact (looks_current h).yields (hfinish h Lexeme.noConfusion _)
  | bare name =>
    cases hvalue
    refine (looks_current h).yields ?_
    have hgives := hfinish h Lexeme.noConfusion
    by_cases htrue : name = "true"
    · subst htrue
      exact hgives _
    by_cases hfalse : name = "false"
    · subst hfalse
      exact hgives _
    rw [if_neg htrue, if_neg hfalse]
    split
    · contradiction
    · contradiction
    · rename_i heq
      exact absurd (Lexeme.name.inj heq) htrue
    · rename_i heq
      exact absurd (Lexeme.name.inj heq) hfalse
    · rename_i heq
      cases heq
      exact hgives _
    · rename_i hother
      exact absurd rfl (hother name)
  | capture name =>
    obtain ⟨slot, _, hslot⟩ := Option.map_eq_some_iff.1 hvalue
    cases hslot
  | reading name accessor =>
    simp only [Operand.resolve?, Option.bind_eq_bind, Option.bind_eq_some_iff, Option.pure_def,
      Option.some_inj] at hvalue
    obtain ⟨_, _, _, _, _, _, hread⟩ := hvalue
    cases hread

theorem ensures_value (h : before.At table left past) :
    value.Ensures before fun found after => (operandRule table).Derived table left past (.value found) after := by
  obtain ⟨lexeme, rest, rfl⟩ := h.exists_cons
  have hplain (operand : Operand) {found : AttributeValue} (hmentions : operand.mentions = [])
      (hspell : lexeme :: rest = operand.spell ++ rest)
      (hvalue : operand.resolve? table past = some (.value found)) :
      value.Ensures before fun found after =>
        (operandRule table).Derived table (lexeme :: rest) past (.value found) after := by
    refine (yields_value hvalue (hspell ▸ h)).ensures.imp fun other after hafter => ?_
    rw [hafter.1]
    refine ⟨operand, rest, hspell, ?_, hvalue, ?_⟩
    · change Permitted table past operand.mentions
      rw [hmentions]
      trivial
    · change after.At table rest (past ++ operand.mentions)
      rw [hmentions, List.append_nil]
      exact hafter.2
  cases lexeme with
  | name name => exact hplain (.bare name) rfl rfl rfl
  | text text => exact hplain (.text text) rfl rfl rfl
  | integer n => exact hplain (.integer n) rfl rfl rfl
  | _ =>
    exact (looks_current h).ensures ((ensures_unexpected _ _ _).bind)

theorem sound_captured (h : before.At table left past) :
    (captured table).Ensures before ((operandRule table).Derived table (.dollar :: left) past) := by
  refine (ensures_name h .captureName).andThen fun found middle hmiddle => ?_
  obtain ⟨name, offset⟩ := found
  obtain ⟨rest, rfl, hmiddle⟩ := hmiddle
  refine (looks_get _).ensures ?_
  dsimp only
  rw [hmiddle.captures]
  split
  · exact .throw _
  rename_i slot hslot
  have hknown : name ∈ (declared past).map (·.name) := by
    obtain ⟨hlt, hname, _⟩ := List.findIdx?_eq_some_iff_getElem.1 hslot
    exact List.mem_map.2 ⟨_, List.getElem_mem hlt, beq_iff_eq.1 hname⟩
  refine (ensures_accept hmiddle Lexeme.noConfusion).andThen fun dot next hnext => ?_
  rcases hnext with ⟨rfl, rest, rfl, hnext⟩ | ⟨rfl, hnext⟩
  · refine (ensures_name hnext .accessor).andThen fun found after hafter => ?_
    obtain ⟨accessor, accessorOffset⟩ := found
    obtain ⟨rest, rfl, hafter⟩ := hafter
    split
    · exact .throw _
    rename_i kindAlias hkindAlias
    split
    · exact .throw _
    rename_i read hread
    have hbound : boundAlias? past name = some kindAlias := by
      rw [boundAlias?, List.find?_eq_bind_findIdx?_getElem?, hslot]
      exact hkindAlias
    refine .pure ⟨.reading name accessor, rest, rfl, ⟨hknown, ?_, trivial⟩, ?_, ?_⟩
    · have hbound : boundAlias? (past ++ [.refersTo name]) name = some kindAlias := by
        rwa [boundAlias?, declared_quiet past rfl]
      rw [Mention.Permitted, hbound, Option.bind_some, hread]
      rfl
    · change Operand.resolve? table past (.reading name accessor) = some (.readingOf name slot accessor read)
      rw [Operand.resolve?, hslot, hbound]
      change (table.accessor? kindAlias accessor >>= _) = _
      rw [hread]
      rfl
    · have hreads := (hafter.mention (.refersTo name) rfl rfl).mention
        (.reads name accessor) rfl rfl
      rwa [List.append_assoc] at hreads
  · refine .pure ⟨.capture name, rest, rfl, ⟨hknown, trivial⟩, ?_, hnext.mention _ rfl rfl⟩
    change Option.map _ (List.findIdx? _ _) = _
    rw [hslot]
    rfl

theorem sound_predicate {kindAlias : String} {registered : RegisteredKind}
    (hregistered : table.find? kindAlias = some registered) :
    (predicateRule table kindAlias).Sound table (predicate table kindAlias registered) := by
  intro left past before h
  refine (ensures_name h .accessor).andThen fun found middle hmiddle => ?_
  obtain ⟨accessor, offset⟩ := found
  obtain ⟨rest, rfl, hmiddle⟩ := hmiddle
  dsimp only
  split
  · exact .throw _
  rename_i read hread
  have haccessor : table.accessor? kindAlias accessor = some read := by
    rw [AliasTable.accessor?, hregistered]
    exact hread
  have hmiddle := hmiddle.mention (.asks kindAlias accessor) rfl rfl
  refine (ensures_expect hmiddle Lexeme.noConfusion .equals).andThen fun _ next hnext => ?_
  obtain ⟨rest, rfl, hnext⟩ := hnext
  have hfinish {expected : Expected} {after : Progress}
      (hafter : (operandRule table).Derived table rest (past ++ [.asks kindAlias accessor]) expected after) :
      (predicateRule table kindAlias).Derived table (.name accessor :: .equals :: rest) past
        { accessor, expected, read } after := by
    obtain ⟨operand, rest, rfl, hpermitted, hresolve, hafter⟩ := hafter
    refine ⟨⟨accessor, operand⟩, rest, rfl, ⟨?_, hpermitted⟩, ?_, ?_⟩
    · rw [Mention.Permitted, haccessor]
      rfl
    · have hresolve : operand.resolve? table (past ++ [.asks kindAlias accessor]) = some expected := hresolve
      change Predicate.resolve? table kindAlias past _ = _
      rw [Predicate.resolve?, haccessor, hresolve]
      rfl
    · rw [List.append_assoc] at hafter
      exact hafter
  refine (ensures_accept hnext Lexeme.noConfusion).andThen fun dollar later hlater => ?_
  rcases hlater with ⟨rfl, rest, rfl, hlater⟩ | ⟨rfl, hlater⟩
  · exact (sound_captured hlater).andThen fun expected after hafter => .pure (hfinish hafter)
  · exact (ensures_value hlater).andThen fun found after hafter => .bind (.pure (.pure (hfinish hafter)))

theorem sound_labelTerm (h : before.At table left past) (kindAlias : String) (offset : Nat) :
    (labelTerm table kindAlias offset).Ensures before
      ((labelRule table).Derived table (.name kindAlias :: left) past) := by
  unfold labelTerm
  split
  · exact .throw _
  rename_i registered hregistered
  have hkind : (Mention.label kindAlias).kind? table = some registered.kind := by
    rw [Mention.kind?, hregistered]
    rfl
  have hknown : (Mention.label kindAlias).Permitted table past := by
    rw [Mention.Permitted, hregistered]
    rfl
  refine (yields_kindSlot h rfl hkind).ensures_bind fun middle hmiddle => ?_
  refine (ensures_accept hmiddle Lexeme.noConfusion).andThen fun angle next hnext => ?_
  rcases hnext with ⟨rfl, rest, rfl, hnext⟩ | ⟨rfl, hnext⟩
  · refine (sound_separated (sound_predicate hregistered) Lexeme.noConfusion hnext).andThen
      fun predicates later hlater => ?_
    obtain ⟨series, rest, rfl, hpermitted, hresolve, hlater⟩ := hlater
    refine (ensures_expect hlater Lexeme.noConfusion .closingAngle).andThen fun _ after hafter => ?_
    obtain ⟨rest, rfl, hafter⟩ := hafter
    refine .pure ⟨⟨kindAlias, some series⟩, rest, ?_, ⟨hknown, hpermitted⟩, ?_, ?_⟩
    · change _ = .name kindAlias :: (.leftAngle :: series.spell [.comma] Predicate.spell ++ [.rightAngle]) ++ rest
      simp only [List.cons_append, List.append_assoc, List.nil_append]
      rfl
    · rw [resolve_label_predicates table hregistered, hresolve]
      rfl
    · rw [List.append_assoc] at hafter
      exact hafter
  · have hresolve := resolve_label table hregistered past
    exact .pure ⟨⟨kindAlias, none⟩, left, rfl, ⟨hknown, trivial⟩, hresolve, hnext⟩

theorem sound_literal (h : before.At table left past) (text : String) (offset : Nat) :
    (literal table text offset).Ensures before ((primaryRule table).Derived table (.text text :: left) past) := by
  unfold literal
  split
  · exact .throw _
  rename_i read hread
  have hkind : (Mention.literal text).kind? table = some read.kind := by
    rw [Mention.kind?, hread]
    rfl
  refine (yields_kindSlot h rfl hkind).ensures_bind fun after hafter => ?_
  dsimp only
  split
  · exact .throw _
  rename_i hwords
  refine .pure ⟨.literal text, left, rfl, ⟨⟨?_, ?_⟩, trivial⟩, ?_, hafter⟩
  · intro hnil
    exact hwords (by rw [Literal.ofText, hnil]; rfl)
  · rw [hread]
    rfl
  · change literalNode? table past text = _
    rw [literalNode?, hread]
    rfl

/-- Bounds have been read off the front of lexemes, but for their last lexeme. -/
def BoundsDerived (table : AliasTable) (lexemes : List Lexeme) (past : List Mention) (range : Nat × Option Nat)
    (after : Progress) : Prop :=
  ∃ bounds last rest, lexemes = Bounds.spell bounds ++ rest ∧ Permitted table past bounds.mentions ∧
    range = bounds.range ∧ last ≠ .finish ∧ after.At table (last :: rest) past

theorem ensures_bounds (h : before.At table left past) :
    bounds.Ensures before (BoundsDerived table (.leftBrace :: left) past) := by
  refine (ensures_count h).andThen fun minimum middle hmiddle => ?_
  obtain ⟨least, rest, rfl, hleast, rfl, hmiddle⟩ := hmiddle
  refine (ensures_accept hmiddle Lexeme.noConfusion).andThen fun comma next hnext => ?_
  extract_lets check
  have hcheck (tree : Bounds) {maximum? : Option Nat} {found : List Lexeme} {progress : Progress}
      (hat : progress.At table found past) (hrange : tree.range = (least.toNat, maximum?))
      (hspell : ∀ final, found = .rightBrace :: final → .leftBrace :: .integer least :: rest = tree.spell ++ final)
      (hpermitted : (∀ maximum ∈ maximum?, least.toNat ≤ maximum) → Permitted table past tree.mentions) :
      (check maximum?).Ensures progress
        (BoundsDerived table (.leftBrace :: .integer least :: rest) past) := by
    unfold check
    extract_lets close
    have hclose (hle : ∀ maximum ∈ maximum?, least.toNat ≤ maximum) : (close ⟨⟩).Ensures progress
        (BoundsDerived table (.leftBrace :: .integer least :: rest) past) := by
      obtain ⟨lexeme, final, rfl⟩ := hat.exists_cons
      refine (looks_current hat).ensures ?_
      split
      · rename_i heq
        subst heq
        exact .pure ⟨tree, _, final, hspell final rfl, hpermitted hle, hrange.symm, Lexeme.noConfusion, hat⟩
      · exact ensures_unexpected _ _ _
    split
    · split
      · exact (ensures_malformed _ _ _).bind
      · rename_i maximum hmaximum
        exact hclose fun _ hmem => Option.mem_some_iff.1 hmem ▸ Nat.le_of_not_lt hmaximum
    · exact hclose fun _ hmem => absurd hmem (Option.not_mem_none _)
  have hlast {most? : Option Int} (hmost : ∀ most ∈ most?, Counts most ∧ least ≤ most) :
      Permitted table past [.repeats least most?] := ⟨⟨hleast, hmost⟩, trivial⟩
  rcases hnext with ⟨rfl, rest, rfl, hnext⟩ | ⟨rfl, hnext⟩
  · obtain ⟨lexeme, rest, rfl⟩ := hnext.exists_cons
    refine (looks_current hnext).ensures ?_
    split
    · rename_i heq
      subst heq
      refine .bind (.pure (hcheck (.atLeast least) hnext rfl ?_ ?_))
      · rintro final hfinal
        cases hfinal
        rfl
      · exact fun _ => hlast fun _ hmem => absurd hmem (Option.not_mem_none _)
    · refine Ensures.bind (p := count >>= fun n => pure (some n)) ?_
      refine (ensures_count hnext).andThen fun maximum later hlater => ?_
      obtain ⟨most, final, hrest, hmost, rfl, hlater⟩ := hlater
      cases hrest
      refine .pure (hcheck (.between least most) hlater rfl ?_ ?_)
      · rintro final rfl
        rfl
      · refine fun hle => hlast fun _ hmem => ?_
        cases hmem
        have := hle _ rfl
        have := hmost.1
        exact ⟨hmost, by omega⟩
  · refine .bind (.pure (hcheck (.exactly least) hnext rfl ?_ ?_))
    · rintro final rfl
      rfl
    · refine fun _ => hlast fun _ hmem => ?_
      cases hmem
      exact ⟨hleast, Int.le_refl _⟩

theorem ensures_quantifierBounds? (h : before.At table left past) :
    quantifierBounds?.Ensures before fun found after =>
      (found = none ∧ after.At table left past) ∨
        ∃ range, found = some range ∧ BoundsDerived table left past range after := by
  obtain ⟨lexeme, rest, rfl⟩ := h.exists_cons
  refine (looks_current h).ensures ?_
  split
  · exact .pure (.inr ⟨_, rfl, .optional, _, rest, rfl, trivial, rfl, Lexeme.noConfusion, h⟩)
  · exact .pure (.inr ⟨_, rfl, .any, _, rest, rfl, trivial, rfl, Lexeme.noConfusion, h⟩)
  · exact .pure (.inr ⟨_, rfl, .some, _, rest, rfl, trivial, rfl, Lexeme.noConfusion, h⟩)
  · refine (ensures_advance h Lexeme.noConfusion).andThen fun _ next hnext => ?_
    exact (ensures_bounds hnext).andThen fun range after hafter => .pure (.inr ⟨range, rfl, hafter⟩)
  · exact .pure (.inl ⟨rfl, h⟩)

theorem sound_quantified (node : Node) : (quantifierRule node).Sound table (quantified node) := by
  intro left past before h
  refine (ensures_quantifierBounds? h).andThen fun found middle hmiddle => ?_
  rcases hmiddle with ⟨rfl, hmiddle⟩ | ⟨⟨minimum, maximum?⟩, rfl, hbounds⟩
  · exact .pure ⟨none, left, rfl, trivial, rfl, (List.append_nil past).symm ▸ hmiddle⟩
  obtain ⟨tree, last, rest, rfl, hpermitted, hrange, hlast, hmiddle⟩ := hbounds
  have hdone (possessive : Bool) {final : List Lexeme} {after : Progress} (hafter : after.At table final past)
      (hrest : rest = (if possessive then [.plus] else []) ++ final) :
      (quantifierRule node).Derived table (tree.spell ++ rest) past (.repetition node minimum maximum?) after := by
    refine ⟨some ⟨tree, possessive⟩, final, ?_, hpermitted, ?_, hafter.bounds tree⟩
    · change _ = (tree.spell ++ _) ++ final
      rw [hrest, List.append_assoc]
    · change some (Node.repetition node tree.range.1 tree.range.2) = _
      rw [← hrange]
  refine (ensures_advance hmiddle hlast).andThen fun _ next hnext => ?_
  obtain ⟨lexeme, rest, rfl⟩ := hnext.exists_cons
  refine (looks_current hnext).ensures ?_
  split
  · exact (ensures_advance hnext Lexeme.noConfusion).andThen fun _ after hafter =>
      .pure (hdone true hafter rfl)
  · exact (ensures_malformed _ _ _).bind
  · exact .pure (hdone false hnext rfl)

theorem ensures_flagsUpTo (seek exact : Bool) (most : Nat) (h : before.At table left past) :
    (flagsUpTo seek exact most).Ensures before fun found after =>
      ∃ (flags : List Flag) (rest : List Lexeme), left = flags.map Flag.spell ++ rest ∧
      found = (seek || flags.contains .seek, exact || flags.contains .exact) ∧ after.At table rest past := by
  induction most generalizing seek exact left before with
  | zero => exact .pure ⟨[], left, rfl, by simp, h⟩
  | succ most ih =>
    refine (ensures_accept h Lexeme.noConfusion).andThen fun question middle hmiddle => ?_
    rcases hmiddle with ⟨rfl, rest, rfl, hmiddle⟩ | ⟨rfl, hmiddle⟩
    · refine (ih true exact hmiddle).imp fun found after hafter => ?_
      obtain ⟨flags, rest, rfl, rfl, hafter⟩ := hafter
      exact ⟨.seek :: flags, rest, rfl, by simp, hafter⟩
    refine (ensures_accept hmiddle Lexeme.noConfusion).andThen fun bang next hnext => ?_
    rcases hnext with ⟨rfl, rest, rfl, hnext⟩ | ⟨rfl, hnext⟩
    · refine (ih seek true hnext).imp fun found after hafter => ?_
      obtain ⟨flags, rest, rfl, rfl, hafter⟩ := hafter
      exact ⟨.exact :: flags, rest, rfl, by simp, hafter⟩
    · exact .pure ⟨[], left, rfl, by simp, hnext⟩

section
variable {inner : Parse Node}

theorem sound_lookahead (hinner : (alternationRule table).Sound table inner) (h : before.At table left past) :
    (lookahead inner).Ensures before ((primaryRule table).Derived table (.leftParen :: .question :: left) past) := by
  have hrest (negated : Bool) {lexeme : Lexeme} {rest : List Lexeme} (h : before.At table (lexeme :: rest) past)
      (hsign : lexeme = if negated then .bang else .equals) :
      (do
        advance
        let body ← inner
        expect .rightParen .closingParen
        return .lookahead body negated : Parse Node).Ensures before
          ((primaryRule table).Derived table (.leftParen :: .question :: lexeme :: rest) past) := by
    refine (ensures_advance h (by cases negated <;> simp [hsign])).andThen fun _ next hnext => ?_
    refine (hinner hnext).andThen fun node middle hmiddle => ?_
    obtain ⟨body, rest, hrest, hpermitted, hresolve, hmiddle⟩ := hmiddle
    refine (ensures_expect hmiddle Lexeme.noConfusion .closingParen).andThen fun _ after hafter => ?_
    obtain ⟨final, rfl, hafter⟩ := hafter
    subst hrest
    rw [mentions_alternation] at hpermitted hafter
    refine .pure ⟨.lookahead negated body, final, ?_, hpermitted, ?_, hafter⟩
    · change _ = Primary.spell _ ++ final
      simp [Primary.spell, spell_alternation, hsign]
    · rw [resolve_alternation] at hresolve
      obtain ⟨nodes, hnodes, rfl⟩ := Option.map_eq_some_iff.1 hresolve
      exact congrArg (Option.map _) hnodes
  obtain ⟨lexeme, rest, rfl⟩ := h.exists_cons
  refine (looks_current h).ensures ?_
  dsimp only
  split
  · exact hrest false h rfl
  · exact hrest true h rfl
  · exact (ensures_unexpected _ _ _).bind

/-- The rest of a pinned label after its term. -/
theorem sound_pinnedConditions (hinner : (alternationRule table).Sound table inner) (flags : List Flag)
    (capture? : Option String) {label : Grammar.Label} {term : LabelTerm} {opened : List Mention}
    (hopened : opened = past ++ (opening capture? ++ closing (some label.kindAlias) capture?))
    (hpermitted : Permitted table past (opening capture? ++ closing (some label.kindAlias) capture? ++ label.mentions))
    (hterm : (labelRule table).resolve? opened label = some term)
    (h : before.At table left (opened ++ label.mentions)) :
    (do
      let conditions ← if (← current) = .rightBracket then Pure.pure [] else separated .ampersand inner
      expect .rightBracket .closingBracket
      let node := Node.pinned term (flags.contains .seek) (flags.contains .exact) conditions
      match capture?.map fun _ => (declared past).length with
      | some slot => return .capture slot node
      | none => return node : Parse Node).Ensures before
        ((primaryRule table).Derived table
          (.leftBracket :: (flags.map Flag.spell ++ (spellCapture capture? ++ (label.spell ++ left)))) past) := by
  have hclose (conditions? : Option (Series Alternation)) {nodes : List Node} {rest : List Lexeme}
      {progress : Progress} (hspell : left = (conditionsRule table).optional.spell conditions? ++ rest)
      (hmore : Permitted table (opened ++ label.mentions) ((conditionsRule table).optional.mentions conditions?))
      (hnodes : (conditionsRule table).optional.resolve? (opened ++ label.mentions) conditions? = some nodes)
      (hprogress : progress.At table rest
        (opened ++ label.mentions ++ (conditionsRule table).optional.mentions conditions?)) :
      (do
        expect .rightBracket .closingBracket
        let node := Node.pinned term (flags.contains .seek) (flags.contains .exact) nodes
        match capture?.map fun _ => (declared past).length with
        | some slot => return .capture slot node
        | none => return node : Parse Node).Ensures progress
          ((primaryRule table).Derived table
            (.leftBracket :: (flags.map Flag.spell ++ (spellCapture capture? ++ (label.spell ++ left)))) past) := by
    refine (ensures_expect hprogress Lexeme.noConfusion .closingBracket).andThen
      fun _ after hafter => ?_
    obtain ⟨final, rfl, hafter⟩ := hafter
    subst hspell
    have hresolve := resolve_pinned table flags capture? label conditions? hopened hterm hnodes
    have hderived : (primaryRule table).Derived table (.leftBracket :: (flags.map Flag.spell ++
        (spellCapture capture? ++ (label.spell ++
          ((conditionsRule table).optional.spell conditions? ++ .rightBracket :: final))))) past
        (enclose past (.pinned term (flags.contains .seek) (flags.contains .exact) nodes) capture?) after := by
      refine ⟨.pinned flags capture? label conditions?, final, ?_, ?_, hresolve, ?_⟩
      · rw [spell_pinned]
        simp only [List.cons_append, List.append_assoc, List.nil_append]
      · rw [mentions_pinned, ← List.append_assoc, permitted_append]
        rw [hopened, List.append_assoc] at hmore
        exact ⟨hpermitted, hmore⟩
      · rw [mentions_pinned, ← List.append_assoc, ← List.append_assoc, ← hopened]
        exact hafter
    cases capture? with
    | none => exact .pure hderived
    | some name => exact .pure hderived
  obtain ⟨lexeme, rest, rfl⟩ := h.exists_cons
  refine (looks_current h).ensures ?_
  dsimp only
  split
  · exact .bind (.pure (hclose none rfl trivial rfl ((List.append_nil _).symm ▸ h)))
  · refine (sound_separated hinner Lexeme.noConfusion h).andThen fun nodes middle hmiddle => ?_
    obtain ⟨conditions, rest, hspell, hmore, hnodes, hmiddle⟩ := hmiddle
    exact hclose (some conditions) hspell hmore hnodes hmiddle

theorem sound_pinned (hinner : (alternationRule table).Sound table inner) (h : before.At table left past) :
    (pinned table inner).Ensures before ((primaryRule table).Derived table (.leftBracket :: left) past) := by
  refine (looks_get _).ensures ?_
  refine (ensures_flagsUpTo false false _ h).andThen fun found next hnext => ?_
  obtain ⟨flags, rest, rfl, rfl, hnext⟩ := hnext
  refine (ensures_name hnext .labelKind).andThen fun found middle hmiddle => ?_
  obtain ⟨name, offset⟩ := found
  obtain ⟨rest, rfl, hmiddle⟩ := hmiddle
  simp only [Bool.false_or]
  refine (ensures_accept hmiddle Lexeme.noConfusion).andThen fun colon opened hopened => ?_
  rcases hopened with ⟨rfl, rest, rfl, hopened⟩ | ⟨rfl, hopened⟩
  · refine (ensures_fresh hopened name offset).andThen fun slot declared hdeclared => ?_
    obtain ⟨hfresh, rfl, hdeclared⟩ := hdeclared
    refine (ensures_name hdeclared .labelKind).andThen fun found named hnamed => ?_
    obtain ⟨kindAlias, aliasOffset⟩ := found
    obtain ⟨rest, rfl, hnamed⟩ := hnamed
    have hname := name_opens past name []
    rw [List.append_nil] at hname
    refine (yields_bindAlias hnamed hname (some kindAlias)).ensures_bind fun bound hbound => ?_
    refine (sound_labelTerm hbound kindAlias aliasOffset).andThen fun term after hafter => ?_
    obtain ⟨label, rest, hspell, hpermitted, hresolve, hafter⟩ := hafter
    obtain rfl : kindAlias = label.kindAlias := Lexeme.name.inj (List.cons.inj hspell).1
    rw [hspell]
    refine .bind (.pure ?_)
    have hopening : Permitted table past [.opens name, .closes name (some label.kindAlias)] :=
      ⟨hfresh, trivial, trivial⟩
    exact sound_pinnedConditions hinner flags (some name) (List.append_assoc _ _ _)
      (permitted_append.2 ⟨hopening, by rwa [List.append_assoc] at hpermitted⟩) hresolve hafter
  · refine (sound_labelTerm hopened name offset).andThen fun term after hafter => ?_
    obtain ⟨label, rest, hspell, hpermitted, hresolve, hafter⟩ := hafter
    rw [hspell]
    refine .bind (.pure ?_)
    exact sound_pinnedConditions hinner flags none (List.append_nil past).symm hpermitted hresolve hafter

theorem sound_enclosed (hinner : (alternationRule table).Sound table inner) :
    (primaryRule table).Sound table (enclosed table inner) := by
  intro left past before h
  obtain ⟨lexeme, rest, rfl⟩ := h.exists_cons
  refine (looks_current h).ensures ?_
  split
  · refine (ensures_advance h Lexeme.noConfusion).andThen fun _ next hnext => ?_
    refine (ensures_accept hnext Lexeme.noConfusion).andThen fun question middle hmiddle => ?_
    rcases hmiddle with ⟨rfl, rest, rfl, hmiddle⟩ | ⟨rfl, hmiddle⟩
    · exact sound_lookahead hinner hmiddle
    refine (hinner hmiddle).andThen fun node later hlater => ?_
    obtain ⟨body, rest, hrest, hpermitted, hresolve, hlater⟩ := hlater
    refine (ensures_expect hlater Lexeme.noConfusion .closingParen).andThen fun _ after hafter => ?_
    obtain ⟨final, rfl, hafter⟩ := hafter
    subst hrest
    rw [mentions_alternation] at hpermitted hafter
    refine .pure ⟨.group body, final, ?_, hpermitted, ?_, hafter⟩
    · change _ = Primary.spell _ ++ final
      simp [Primary.spell, spell_alternation]
    · rwa [resolve_alternation] at hresolve
  · refine (ensures_advance h Lexeme.noConfusion).andThen fun _ next hnext => ?_
    exact sound_pinned hinner hnext
  · refine (looks_offset _).ensures ?_
    refine (ensures_advance h Lexeme.noConfusion).andThen fun _ next hnext => ?_
    exact sound_literal hnext _ _
  · exact ensures_unexpected _ _ _

theorem derived_label {lexemes : List Lexeme} {term : LabelTerm}
    (h : (labelRule table).Derived table lexemes past term before) :
    (primaryRule table).Derived table lexemes past (.label term) before := by
  obtain ⟨label, rest, hspell, hpermitted, hresolve, hbefore⟩ := h
  exact ⟨.label label, rest, hspell, hpermitted, congrArg (Option.map Node.label) hresolve, hbefore⟩

theorem sound_primary (hinner : (alternationRule table).Sound table inner) :
    (primaryRule table).Sound table (primary table inner) := by
  intro left past before h
  obtain ⟨lexeme, rest, rfl⟩ := h.exists_cons
  refine (looks_current h).ensures ?_
  split
  · refine (looks_offset _).ensures ?_
    refine (ensures_advance h Lexeme.noConfusion).andThen fun _ next hnext => ?_
    exact (sound_labelTerm hnext _ _).andThen fun term after hafter => .pure (derived_label hafter)
  · exact sound_enclosed hinner h

/-- A primary without a capture, and the quantifier after it. -/
theorem sound_item {lexemes : List Lexeme} {node : Node}
    (h : (primaryRule table).Derived table lexemes past node before) :
    (quantified node).Ensures before ((elementRule table).Derived table lexemes past) := by
  obtain ⟨primary, rest, rfl, hpermitted, hresolve, hbefore⟩ := h
  refine (sound_quantified node hbefore).imp fun body after hafter => ?_
  obtain ⟨quantifier?, final, rfl, hquantifier, hbody, hafter⟩ := hafter
  cases hbody
  have hmentions : (elementRule table).mentions (.item none primary quantifier?) =
      primary.mentions ++ mentionsQuantifier quantifier? :=
    (mentions_item table none primary quantifier?).trans (List.append_nil _)
  refine ⟨.item none primary quantifier?, final, ?_, ?_, ?_, ?_⟩
  · rw [spell_item]
    exact (List.append_assoc _ _ _).symm
  · rw [hmentions]
    exact permitted_append.2 ⟨hpermitted, hquantifier⟩
  · exact resolve_item table none primary quantifier? ((List.append_nil past).symm ▸ hresolve)
  · rw [hmentions, ← List.append_assoc]
    exact hafter

/-- A primary in a capture, and the quantifier after it. -/
theorem sound_capture (hinner : (alternationRule table).Sound table inner) (h : before.At table left past)
    (name : String) (offset : Nat) :
    (do
      let slot ← declareCapture name offset
      let body ← quantified (← primary table inner)
      bindAlias slot body.boundAlias?
      return .capture slot body : Parse Node).Ensures before
        ((elementRule table).Derived table (.name name :: .colon :: left) past) := by
  refine (ensures_fresh h name offset).andThen fun slot declared hdeclared => ?_
  obtain ⟨hfresh, rfl, hdeclared⟩ := hdeclared
  refine (sound_primary hinner hdeclared).andThen fun node middle hmiddle => ?_
  obtain ⟨primary, rest, rfl, hpermitted, hresolve, hmiddle⟩ := hmiddle
  refine (sound_quantified node hmiddle).andThen fun body next hnext => ?_
  obtain ⟨quantifier?, final, rfl, hquantifier, hbody, hnext⟩ := hnext
  cases hbody
  have hbound : (quantify node quantifier?).boundAlias? = primary.boundAlias? :=
    (boundAlias_quantify node quantifier?).trans (boundAlias_primary hresolve)
  rw [hbound]
  rw [List.append_assoc] at hnext
  refine (yields_bindAlias hnext (name_opens past name _) primary.boundAlias?).ensures_bind fun after hafter => ?_
  refine .pure ⟨.item (some name) primary quantifier?, final, ?_, ?_, ?_, ?_⟩
  · rw [spell_item]
    exact congrArg (spellCapture (some name) ++ ·) (List.append_assoc _ _ _).symm
  · rw [mentions_item, permitted_append, permitted_append, permitted_append]
    exact ⟨⟨⟨hfresh, trivial⟩, hpermitted, hquantifier⟩, trivial, trivial⟩
  · exact resolve_item table (some name) primary quantifier? hresolve
  · rw [mentions_item, ← List.append_assoc, ← List.append_assoc]
    exact hafter

theorem sound_element (hinner : (alternationRule table).Sound table inner) :
    (elementRule table).Sound table (element table inner) := by
  intro left past before h
  obtain ⟨lexeme, rest, rfl⟩ := h.exists_cons
  refine (looks_current h).ensures ?_
  split
  · refine (ensures_advance h Lexeme.noConfusion).andThen fun _ after hafter => ?_
    exact .pure ⟨.arrow, rest, rfl, trivial, rfl, (List.append_nil past).symm ▸ hafter⟩
  · rename_i name
    refine (looks_offset _).ensures ?_
    refine (ensures_advance h Lexeme.noConfusion).andThen fun _ next hnext => ?_
    refine (ensures_accept hnext Lexeme.noConfusion).andThen fun colon middle hmiddle => ?_
    rcases hmiddle with ⟨rfl, rest, rfl, hmiddle⟩ | ⟨rfl, hmiddle⟩
    · exact sound_capture hinner hmiddle name _
    · exact (sound_labelTerm hmiddle name _).andThen fun term after hafter => sound_item (derived_label hafter)
  · exact (sound_enclosed hinner h).andThen fun node after hafter => sound_item hafter

theorem sound_sequence (hinner : (alternationRule table).Sound table inner) :
    (sequenceRule table).Sound table (sequence table inner) := by
  intro left past before h
  refine Ensures.andThen (R := fun nodes after =>
    nodes = [] ∨ ((elementRule table).series []).Derived table left past nodes after) ?_ fun nodes after hafter => ?_
  · refine (looks_get _).ensures ?_
    exact (ensures_items (sound_element hinner) _ h).imp fun nodes after hafter => hafter.imp And.left id
  rcases nodes with _ | ⟨node, _ | ⟨next, rest⟩⟩
  · exact ensures_unexpected _ _ _
  · exact .pure ((hafter.resolve_left (List.cons_ne_nil _ _)).map joinSequence)
  · exact .pure ((hafter.resolve_left (List.cons_ne_nil _ _)).map joinSequence)

/-- A parser gives nothing but what the grammar assigns to the lexemes that it takes. -/
theorem sound_alternation (table : AliasTable) (depth : Nat) :
    (alternationRule table).Sound table (alternation table depth) := by
  induction depth with
  | zero => exact fun left past before h => ensures_unexpected _ _ _
  | succ depth ih =>
    intro left past before h
    refine (sound_separated (sound_sequence ih) Lexeme.noConfusion h).andThen fun nodes after hafter => ?_
    have hderived := hafter.map joinAlternation
    rcases nodes with _ | ⟨node, _ | ⟨next, rest⟩⟩
    · exact .pure hderived
    · exact .pure hderived
    · exact .pure hderived

end

end Parse

end TextAnnotation.Pattern
