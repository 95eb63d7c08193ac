import Mathlib.Data.List.Induction
import TextAnnotation.Proofs.Pattern.Grammar
import TextAnnotation.Proofs.Pattern.Parsing

/-!
How far a parser has come: which lexemes are left, and what has been mentioned before them. Every step of a
parser takes a lexeme or declares something, and the scope is always that of the mentions so far.
-/

namespace TextAnnotation.Pattern

namespace Grammar

theorem permitted_append {table : AliasTable} {before xs ys : List Mention} :
    Permitted table before (xs ++ ys) ↔ Permitted table before xs ∧ Permitted table (before ++ xs) ys := by
  induction xs generalizing before with
  | nil => simp [Permitted]
  | cons mention rest ih => simp [Permitted, ih, and_assoc]

theorem modify_eq_map {captures : List DeclaredCapture} {slot : Nat} {name : String}
    (hnodup : (captures.map (·.name)).Nodup) (hslot : (captures.map (·.name))[slot]? = some name)
    (f : DeclaredCapture → DeclaredCapture) :
    captures.modify slot f = captures.map fun capture => if capture.name = name then f capture else capture := by
  apply List.ext_getElem?
  intro i
  rw [List.getElem?_modify, List.getElem?_map]
  rcases hi : captures[i]? with _ | capture
  · rfl
  have hname : (captures.map (·.name))[i]? = some capture.name := by rw [List.getElem?_map, hi]; rfl
  have hslot_lt := (List.getElem?_eq_some_iff.1 hslot).1
  have hiff : slot = i ↔ capture.name = name := by
    rw [← List.getElem?_inj hslot_lt hnodup, hslot, hname, Option.some_inj, eq_comm]
  simp only [Option.map_some, hiff]
  rfl

section
variable (mentions : List Mention) (name : String)

theorem declared_opens : declared (mentions ++ [.opens name]) = declared mentions ++ [⟨name, none⟩] :=
  List.foldl_append

theorem declared_closes (boundAlias? : Option String) :
    declared (mentions ++ [.closes name boundAlias?]) = (declared mentions).map fun capture =>
      if capture.name = name then { capture with boundAlias? } else capture :=
  List.foldl_append

theorem names_closes (boundAlias? : Option String) :
    (declared (mentions ++ [.closes name boundAlias?])).map (·.name) = (declared mentions).map (·.name) := by
  rw [declared_closes, List.map_map]
  apply List.map_congr_left
  intro capture _
  simp only [Function.comp]
  split <;> rfl

end

/-- A mention that neither declares a capture nor settles what one binds. -/
def Mention.isQuiet : Mention → Bool
  | opens _ => false
  | closes _ _ => false
  | _ => true

theorem declared_quiet (mentions : List Mention) {mention : Mention} (h : mention.isQuiet = true) :
    declared (mentions ++ [mention]) = declared mentions := by
  rw [declared, List.foldl_append]
  cases mention with
  | opens => cases h
  | closes => cases h
  | _ => rfl

/-- A capture keeps its place among those declared. -/
theorem names_prefix (mentions more : List Mention) :
    (declared mentions).map (·.name) <+: (declared (mentions ++ more)).map (·.name) := by
  induction more generalizing mentions with
  | nil => exact (List.append_nil mentions).symm ▸ List.prefix_rfl
  | cons mention rest ih =>
    have hrest := ih (mentions ++ [mention])
    rw [List.append_assoc, List.singleton_append] at hrest
    refine List.IsPrefix.trans ?_ hrest
    by_cases hquiet : mention.isQuiet = true
    · exact (declared_quiet mentions hquiet).symm ▸ List.prefix_rfl
    cases mention with
    | opens name =>
      rw [declared_opens, List.map_append]
      exact List.prefix_append _ _
    | closes name boundAlias? => exact (names_closes mentions name boundAlias?).symm ▸ List.prefix_rfl
    | _ => exact absurd rfl hquiet

theorem name_opens (mentions : List Mention) (name : String) (more : List Mention) :
    ((declared (mentions ++ [.opens name] ++ more)).map (·.name))[(declared mentions).length]? = some name := by
  obtain ⟨later, hlater⟩ := names_prefix (mentions ++ [.opens name]) more
  rw [← hlater, declared_opens, List.map_append, List.append_assoc, List.getElem?_append_right (by simp)]
  simp

section
variable {table : AliasTable} {mentions : List Mention} {mention : Mention}

theorem eraseDups_concat [BEq α] [LawfulBEq α] (as : List α) (a : α) :
    (as ++ [a]).eraseDups = if a ∈ as then as.eraseDups else as.eraseDups ++ [a] := by
  rw [List.eraseDups_append]
  split
  · rename_i hmem
    rw [show [a].removeAll as = [] by simp [List.removeAll, hmem], List.eraseDups_nil, List.append_nil]
  · rename_i hmem
    rw [show [a].removeAll as = [a] by simp [List.removeAll, hmem], List.eraseDups_cons]
    rfl

theorem nodup_eraseDups [BEq α] [LawfulBEq α] (as : List α) : as.eraseDups.Nodup := by
  induction as using List.reverseRecOn with
  | nil => exact List.nodup_nil
  | append_singleton as a ih =>
    rw [eraseDups_concat]
    split
    · exact ih
    · rename_i hnew
      refine List.nodup_append.2 ⟨ih, List.pairwise_singleton _ _, fun b hb c hc heq => hnew ?_⟩
      rw [List.mem_singleton.1 hc] at heq
      exact List.mem_eraseDups.1 (heq ▸ hb)

theorem kinds_of_none (h : mention.kind? table = none) :
    kinds table (mentions ++ [mention]) = kinds table mentions := by
  simp [kinds, h]

theorem kinds_of_some (mentions : List Mention) {kind : LabelKind} (h : mention.kind? table = some kind) :
    kinds table (mentions ++ [mention]) =
      if kind ∈ kinds table mentions then kinds table mentions else kinds table mentions ++ [kind] := by
  simp only [kinds, List.filterMap_append, List.filterMap_cons, h, List.filterMap_nil, eraseDups_concat,
    List.mem_eraseDups]

end

/-- What has been declared after mentions. -/
def scopeOf (table : AliasTable) (mentions : List Mention) : Scope := ⟨kinds table mentions, declared mentions⟩

end Grammar

open Grammar (Mention Permitted scopeOf declared kinds)

def Progress.lexemes (progress : Progress) : List Lexeme := (progress.current :: progress.ahead).map (·.lexeme)

/-- A parser that has given lexemes before it, the end of the text after them, and given mentions behind it. -/
structure Progress.At (table : AliasTable) (left : List Lexeme) (past : List Mention)
    (progress : Progress) : Prop where
  lexemes : progress.lexemes = left
  finish : ∃ inner, left = inner ++ [.finish] ∧ .finish ∉ inner
  failure : progress.failure? = none
  scope : progress.scope = scopeOf table past
  nodup : ((declared past).map (·.name)).Nodup

namespace Progress.At

variable {table : AliasTable} {left rest : List Lexeme} {lexeme : Lexeme} {past : List Mention}
  {progress : Progress}

theorem current (h : progress.At table (lexeme :: rest) past) : progress.current.lexeme = lexeme :=
  (List.cons.inj h.lexemes).1

theorem exists_cons (h : progress.At table left past) : ∃ lexeme rest, left = lexeme :: rest :=
  ⟨_, _, h.lexemes.symm⟩

theorem captures (h : progress.At table left past) : progress.captures = declared past :=
  congrArg Scope.captures h.scope

theorem kinds (h : progress.At table left past) : progress.kinds = Grammar.kinds table past :=
  congrArg Scope.kinds h.scope

theorem length_ahead (h : progress.At table left past) : progress.ahead.length + 1 = left.length := by
  rw [← h.lexemes, Progress.lexemes, List.length_map, List.length_cons]

theorem eq_finish (h : progress.At table left past) (hfinish : progress.current.lexeme = .finish) :
    left = [.finish] := by
  obtain ⟨inner, hinner, hnot⟩ := h.finish
  cases inner with
  | nil => exact hinner
  | cons head tail =>
    subst hinner
    exact absurd (h.current.symm.trans hfinish ▸ List.mem_cons_self) hnot

/-- A mention that declares nothing, at the same lexeme. -/
theorem mention (h : progress.At table left past) (mention : Mention) (hquiet : mention.isQuiet = true)
    (hkind : mention.kind? table = none) : progress.At table left (past ++ [mention]) where
  lexemes := h.lexemes
  finish := h.finish
  failure := h.failure
  scope := by rw [h.scope, scopeOf, scopeOf, Grammar.declared_quiet _ hquiet, Grammar.kinds_of_none hkind]
  nodup := by rw [Grammar.declared_quiet _ hquiet]; exact h.nodup

theorem bounds (h : progress.At table left past) (bounds : Grammar.Bounds) :
    progress.At table left (past ++ bounds.mentions) := by
  cases bounds with
  | exactly | atLeast | between => exact h.mention _ rfl rfl
  | _ => exact (List.append_nil past).symm ▸ h

end Progress.At

namespace Parse

/-- What a parser gives, and what holds of the progress made. -/
def Yields (p : Parse α) (before : Progress) (a : α) (Q : Progress → Prop) : Prop :=
  ∃ after, p before = .ok (a, after) ∧ Q after

section
variable {p : Parse α} {before : Progress} {a : α} {Q R : Progress → Prop}

theorem Yields.bind {f : α → Parse β} {b : β} (h : p.Yields before a R)
    (hf : ∀ middle, R middle → (f a).Yields middle b Q) : (p >>= f).Yields before b Q := by
  obtain ⟨middle, hrun, hmiddle⟩ := h
  obtain ⟨after, hafter, hQ⟩ := hf middle hmiddle
  refine ⟨after, ?_, hQ⟩
  change (p before >>= fun result => f result.1 result.2) = .ok (b, after)
  rw [hrun]
  exact hafter

theorem Yields.pure (h : Q before) : (Pure.pure a : Parse α).Yields before a Q := ⟨before, rfl, h⟩

theorem Yields.set {after : Progress} (h : Q after) :
    (MonadStateOf.set after : Parse PUnit).Yields before ⟨⟩ Q := ⟨after, rfl, h⟩

/-- A parser has one result only. -/
theorem Yields.ensures (h : p.Yields before a Q) : p.Ensures before fun b after => b = a ∧ Q after := by
  obtain ⟨middle, hrun, hmiddle⟩ := h
  intro b after hb
  cases hrun.symm.trans hb
  exact ⟨rfl, hmiddle⟩

theorem Yields.ensures_bind {f : α → Parse β} {S : β → Progress → Prop} (h : p.Yields before a R)
    (hf : ∀ middle, R middle → (f a).Ensures middle S) : (p >>= f).Ensures before S := by
  refine h.ensures.andThen fun b middle hmiddle => ?_
  rw [hmiddle.1]
  exact hf middle hmiddle.2

end

/-- The parser does not refuse, and this holds of its result and of the progress made. -/
def Succeeds (p : Parse α) (before : Progress) (Q : α → Progress → Prop) : Prop :=
  ∃ a after, p before = .ok (a, after) ∧ Q a after

section
variable {p : Parse α} {f : α → Parse β} {before : Progress} {a : α} {R : α → Progress → Prop}
  {Q : β → Progress → Prop}

theorem Succeeds.andThen (h : p.Succeeds before R) (hf : ∀ a middle, R a middle → (f a).Succeeds middle Q) :
    (p >>= f).Succeeds before Q := by
  obtain ⟨a, middle, hrun, hmiddle⟩ := h
  obtain ⟨b, after, hafter, hQ⟩ := hf a middle hmiddle
  refine ⟨b, after, ?_, hQ⟩
  change (p before >>= fun result => f result.1 result.2) = .ok (b, after)
  rw [hrun]
  exact hafter

theorem Succeeds.pure {b : β} (h : Q b before) : (Pure.pure b : Parse β).Succeeds before Q := ⟨b, before, rfl, h⟩

theorem Yields.andThen {S : Progress → Prop} (h : p.Yields before a S)
    (hf : ∀ middle, S middle → (f a).Succeeds middle Q) : (p >>= f).Succeeds before Q := by
  obtain ⟨middle, hrun, hmiddle⟩ := h
  refine Succeeds.andThen (R := fun b after => b = a ∧ S after) ⟨a, middle, hrun, rfl, hmiddle⟩ ?_
  rintro _ middle ⟨rfl, hmiddle⟩
  exact hf middle hmiddle

end

/-- A parser that gives something and stays where it is. -/
def Looks (p : Parse α) (before : Progress) (a : α) : Prop := p before = .ok (a, before)

section
variable {p : Parse α} {f : α → Parse β} {before : Progress} {a : α}

theorem Looks.yields {b : β} {Q : Progress → Prop} (h : p.Looks before a) (hf : (f a).Yields before b Q) :
    (p >>= f).Yields before b Q :=
  Yields.bind ⟨before, h, rfl⟩ fun _ hsame => hsame ▸ hf

theorem Looks.succeeds {Q : β → Progress → Prop} (h : p.Looks before a) (hf : (f a).Succeeds before Q) :
    (p >>= f).Succeeds before Q :=
  Yields.andThen ⟨before, h, rfl⟩ fun _ hsame => hsame ▸ hf

theorem Looks.ensures {Q : β → Progress → Prop} (h : p.Looks before a) (hf : (f a).Ensures before Q) :
    (p >>= f).Ensures before Q :=
  Yields.ensures_bind ⟨before, h, rfl⟩ fun _ hsame => hsame ▸ hf

theorem looks_get (before : Progress) : (MonadState.get : Parse Progress).Looks before before := rfl

theorem looks_offset (before : Progress) : offset.Looks before before.current.offset := rfl

end

section
variable {table : AliasTable} {left rest : List Lexeme} {lexeme : Lexeme} {past : List Mention}
  {before : Progress}

theorem looks_current (h : before.At table (lexeme :: rest) past) : current.Looks before lexeme := by
  rw [← h.current]
  rfl

theorem yields_advance (h : before.At table (lexeme :: rest) past) (hne : lexeme ≠ .finish) :
    advance.Yields before ⟨⟩ (·.At table rest past) := by
  obtain ⟨hlexemes, ⟨inner, hinner, hfinish⟩, hfailure, hscope, hnodup⟩ := h
  obtain ⟨inner, rfl⟩ : ∃ tail, inner = lexeme :: tail := by
    cases inner with
    | nil => exact absurd (List.cons.inj hinner).1 hne
    | cons head tail => exact ⟨tail, by rw [(List.cons.inj hinner).1]⟩
  have hrest : rest = inner ++ [.finish] := (List.cons.inj hinner).2
  rcases hahead : before.ahead with _ | ⟨next, ahead⟩
  · simp [Progress.lexemes, hahead, hrest] at hlexemes
  refine (looks_get _).yields ?_
  rw [hahead]
  apply Yields.set
  refine ⟨?_, ⟨inner, hrest, fun hmem => hfinish (List.mem_cons_of_mem _ hmem)⟩, hfailure, hscope, hnodup⟩
  rw [Progress.lexemes, hahead] at hlexemes
  exact (List.cons.inj hlexemes).2

theorem ensures_advance (h : before.At table (lexeme :: rest) past) (hne : lexeme ≠ .finish) :
    advance.Ensures before fun _ after => after.At table rest past :=
  (yields_advance h hne).ensures.imp fun _ _ hafter => hafter.2

theorem yields_expect (h : before.At table (lexeme :: rest) past) (hne : lexeme ≠ .finish) (what : Expectation) :
    (expect lexeme what).Yields before ⟨⟩ (·.At table rest past) := by
  refine (looks_current h).yields ?_
  rw [if_pos rfl]
  exact yields_advance h hne

theorem ensures_expect (h : before.At table left past) (hne : lexeme ≠ .finish) (what : Expectation) :
    (expect lexeme what).Ensures before fun _ after =>
      ∃ rest, left = lexeme :: rest ∧ after.At table rest past := by
  obtain ⟨found, rest, rfl⟩ := h.exists_cons
  refine (looks_current h).ensures ?_
  split
  · rename_i heq
    subst heq
    exact (ensures_advance h hne).imp fun _ after hafter => ⟨rest, rfl, hafter⟩
  · exact ensures_unexpected what _ _

theorem yields_accept (h : before.At table (lexeme :: rest) past) (hne : lexeme ≠ .finish) :
    (accept lexeme).Yields before true (·.At table rest past) := by
  refine (looks_current h).yields ?_
  rw [if_pos rfl]
  exact (yields_advance h hne).bind fun after hafter => .pure hafter

theorem yields_accept_of_ne {found : Lexeme} (h : before.At table (found :: rest) past) (hne : found ≠ lexeme) :
    (accept lexeme).Yields before false (·.At table (found :: rest) past) := by
  refine (looks_current h).yields ?_
  rw [if_neg hne]
  exact .pure h

theorem ensures_accept (h : before.At table left past) (hne : lexeme ≠ .finish) :
    (accept lexeme).Ensures before fun accepted after =>
      (accepted = true ∧ ∃ rest, left = lexeme :: rest ∧ after.At table rest past) ∨
        (accepted = false ∧ after.At table left past) := by
  obtain ⟨found, rest, rfl⟩ := h.exists_cons
  by_cases heq : found = lexeme
  · subst heq
    exact (yields_accept h hne).ensures.imp fun _ after hafter => .inl ⟨hafter.1, rest, rfl, hafter.2⟩
  · exact (yields_accept_of_ne h heq).ensures.imp fun _ after hafter => .inr hafter

theorem yields_name {value : String} (h : before.At table (.name value :: rest) past) (what : Expectation) :
    (name what).Yields before (value, before.current.offset) (·.At table rest past) := by
  refine (looks_current h).yields ?_
  refine (looks_offset before).yields ?_
  exact (yields_advance h Lexeme.noConfusion).bind fun after hafter => .pure hafter

theorem ensures_name (h : before.At table left past) (what : Expectation) :
    (name what).Ensures before fun found after =>
      ∃ rest, left = .name found.1 :: rest ∧ after.At table rest past := by
  obtain ⟨found, rest, rfl⟩ := h.exists_cons
  cases found with
  | name value =>
    refine (yields_name h what).ensures.imp fun result after hafter => ⟨rest, ?_, hafter.2⟩
    rw [hafter.1]
  | _ =>
    exact (looks_current h).ensures (ensures_unexpected what before _)

theorem yields_count {value : Int} (h : before.At table (.integer value :: rest) past)
    (hcounts : Grammar.Counts value) : count.Yields before value.toNat (·.At table rest past) := by
  refine (looks_current h).yields ?_
  have hcounts : 0 ≤ value ∧ value ≤ maxCount := hcounts
  simp only [if_pos hcounts]
  exact (yields_advance h Lexeme.noConfusion).bind fun after hafter => .pure hafter

theorem ensures_count (h : before.At table left past) :
    count.Ensures before fun counted after => ∃ value rest, left = .integer value :: rest ∧
      Grammar.Counts value ∧ counted = value.toNat ∧ after.At table rest past := by
  obtain ⟨found, rest, rfl⟩ := h.exists_cons
  cases found with
  | integer value =>
    by_cases hcounts : Grammar.Counts value
    · exact (yields_count h hcounts).ensures.imp fun _ after hafter => ⟨value, rest, rfl, hcounts, hafter⟩
    · have hcounts : ¬ (0 ≤ value ∧ value ≤ maxCount) := hcounts
      refine (looks_current h).ensures ?_
      simp only [if_neg hcounts]
      exact ensures_malformed _ before _
  | _ =>
    exact (looks_current h).ensures (ensures_unexpected _ before _)

theorem yields_kindSlot (h : before.At table left past) {mention : Mention} (hquiet : mention.isQuiet = true)
    {kind : LabelKind} (hkind : mention.kind? table = some kind) :
    (kindSlot kind).Yields before (Grammar.kindSlot table past kind) (·.At table left (past ++ [mention])) := by
  have hdeclared := Grammar.declared_quiet past hquiet
  have hnodup : ((declared (past ++ [mention])).map (·.name)).Nodup := hdeclared.symm ▸ h.nodup
  have hkinds := Grammar.kinds_of_some past hkind
  refine (looks_get _).yields ?_
  rw [h.kinds, Grammar.kindSlot, List.idxOf_append]
  split
  · rename_i slot hslot
    obtain ⟨hlt, hidxOf⟩ := List.findIdx?_eq_some_iff_findIdx_eq.1 hslot
    have hidxOf : (Grammar.kinds table past).idxOf kind = slot := hidxOf
    have hmem : kind ∈ Grammar.kinds table past := List.idxOf_lt_length_iff.1 (hidxOf ▸ hlt)
    rw [if_pos hmem, hidxOf]
    apply Yields.pure
    refine ⟨h.lexemes, h.finish, h.failure, ?_, hnodup⟩
    rw [h.scope, scopeOf, scopeOf, hdeclared, hkinds, if_pos hmem]
  · rename_i hslot
    have hmem : kind ∉ Grammar.kinds table past := List.idxOf?_eq_none_iff.1 hslot
    rw [if_neg hmem, List.idxOf_cons_self, Nat.zero_add]
    apply Yields.bind (.set rfl)
    rintro _ rfl
    apply Yields.pure
    refine ⟨h.lexemes, h.finish, h.failure, ?_, hnodup⟩
    rw [scopeOf, hdeclared, hkinds, if_neg hmem, ← h.captures]
    rfl

theorem yields_declareCapture (h : before.At table left past) {name : String}
    (hfresh : name ∉ (declared past).map (·.name)) (offset : Nat) :
    (declareCapture name offset).Yields before (declared past).length
      (·.At table left (past ++ [.opens name])) := by
  have hany : (declared past).any (·.name == name) = false := by
    rw [List.any_eq_false]
    intro capture hmem heq
    exact hfresh (List.mem_map.2 ⟨capture, hmem, beq_iff_eq.1 heq⟩)
  refine (looks_get _).yields ?_
  simp only [h.captures, hany, Bool.false_eq_true, if_false]
  apply Yields.bind (.set rfl)
  rintro _ rfl
  apply Yields.pure
  refine ⟨h.lexemes, h.finish, h.failure, ?_, ?_⟩
  · rw [scopeOf, Grammar.declared_opens, Grammar.kinds_of_none rfl, ← h.kinds]
    rfl
  · rw [Grammar.declared_opens, List.map_append]
    refine List.nodup_append.2 ⟨h.nodup, List.pairwise_singleton _ _, fun other hmem _ hlast heq => ?_⟩
    rw [heq, List.mem_singleton.1 hlast] at hmem
    exact hfresh hmem

theorem ensures_fresh (h : before.At table left past) (name : String) (offset : Nat) :
    (declareCapture name offset).Ensures before fun slot after =>
      name ∉ (declared past).map (·.name) ∧ slot = (declared past).length ∧
        after.At table left (past ++ [.opens name]) := by
  by_cases hfresh : name ∉ (declared past).map (·.name)
  · exact (yields_declareCapture h hfresh offset).ensures.imp fun _ after hafter => ⟨hfresh, hafter⟩
  · obtain ⟨capture, hmem, hname⟩ := List.mem_map.1 (not_not.1 hfresh)
    have hany : before.captures.any (·.name == name) = true :=
      List.any_eq_true.2 ⟨capture, h.captures ▸ hmem, beq_iff_eq.2 hname⟩
    refine (looks_get _).ensures ?_
    rw [if_pos hany]
    exact .throw _

theorem yields_bindAlias (h : before.At table left past) {slot : Nat} {name : String}
    (hslot : ((declared past).map (·.name))[slot]? = some name) (boundAlias? : Option String) :
    (bindAlias slot boundAlias?).Yields before ⟨⟩ (·.At table left (past ++ [.closes name boundAlias?])) := by
  refine ⟨_, rfl, h.lexemes, h.finish, h.failure, ?_, ?_⟩
  · rw [scopeOf, Grammar.declared_closes, Grammar.kinds_of_none rfl, ← h.kinds, ← h.captures,
      ← Grammar.modify_eq_map (h.captures ▸ h.nodup) (h.captures ▸ hslot)]
    rfl
  · rw [Grammar.names_closes]
    exact h.nodup

end

end Parse

end TextAnnotation.Pattern
