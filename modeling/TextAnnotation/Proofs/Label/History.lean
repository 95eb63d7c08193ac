import TextAnnotation.Proofs.Pattern.Blaming
import TextAnnotation.Proofs.Pattern.Safety

/-!
What a view makes of a run of calls. A kind collects the labels that it is given until a call freezes it, and keeps the
index of those labels from then on. What becomes of one kind depends on no call that is about other kinds only.
-/

namespace TextAnnotation

namespace Pattern

open Grammar

/-- Whether a derivation mentions labels of a kind, by an alias or in a literal. -/
def RefersTo (table : AliasTable) (tree : Alternation) (kind : LabelKind) : Prop :=
  ∃ mention ∈ mentionsAlternation tree, mention.kind? table = some kind

theorem mem_kinds_iff_refersTo {table : AliasTable} {source : String} {pattern : Pattern}
    (h : parse table source = .ok pattern) :
    ∃ tree, Derivation table source tree ∧ ∀ kind, kind ∈ pattern.kinds ↔ RefersTo table tree kind := by
  have hlexes := parse_answers table source
  rw [h] at hlexes
  obtain ⟨tree, htree⟩ := derivation_of_parse hlexes h
  obtain ⟨found, hmeaning, hparse, _⟩ := parse_of_derivation hlexes htree
  cases h.symm.trans hparse
  obtain ⟨nodes, _, hpattern⟩ := Option.map_eq_some_iff.1 hmeaning
  refine ⟨tree, htree, fun kind => ?_⟩
  rw [← hpattern, Grammar.kinds, List.mem_eraseDups, List.mem_filterMap, RefersTo]

end Pattern

namespace View

/-- A call on a view. Whatever its labeler of a kind does when it is asked for, the view does as well: labels given to
the labeler are given to the view, and an index built by the labeler is the index that the view is asked for. -/
inductive Call where
  | add (kind : LabelKind) (label : Label)
  | addAll (kind : LabelKind) (labels : List Label)
  /-- Asks for the labeler of a kind, which is made if there is none. -/
  | labeler (kind : LabelKind)
  /-- Asks for the index of a kind, which is frozen for it. -/
  | index (kind : LabelKind)
  /-- Asks for the index of a kind if there is one. -/
  | builtIndex (kind : LabelKind)
  /-- Begins a search of a range, or of the whole text. -/
  | search (pattern : Pattern) (range? : Option Span)

/-- What a view answers a call. -/
inductive Answer where
  | accepted
  | refused (error : LabelError)
  | labeler (labeler : Labeler Label)
  | index (index? : Option (LabelIndex Label))
  | searcher (searcher : Pattern.Searcher)

/-- The answer to labels, and the view with them if it takes them. -/
def answerAdd (view : View) : Except LabelError View → Answer × View
  | .ok view => (.accepted, view)
  | .error e => (.refused e, view)

def perform (view : View) : Call → Answer × View
  | .add kind label => view.answerAdd (view.add kind label)
  | .addAll kind labels => view.answerAdd (view.addAll kind labels)
  | .labeler kind => (.labeler (view.labeler kind), view.touch kind)
  | .index kind => (.index (some (view.freeze kind).1), (view.freeze kind).2)
  | .builtIndex kind => (.index (view.index? kind), view)
  | .search pattern none => (.searcher (view.searcher pattern).1, (view.searcher pattern).2)
  | .search pattern (some range) => (.searcher (view.searcherIn pattern range).1, (view.searcherIn pattern range).2)

/-- The view after calls one after the other. -/
def after (view : View) (calls : List Call) : View := calls.foldl (fun view call => (view.perform call).2) view

namespace Call

/-- The labels that a call gives to a kind. -/
def given (kind : LabelKind) : Call → List Label
  | add found label => if found = kind then [label] else []
  | addAll found labels => if found = kind then labels else []
  | _ => []

/-- Whether a call freezes a kind: it asks for its index, or begins a search for a pattern that refers to it. -/
def Freezes (kind : LabelKind) : Call → Prop
  | index found => found = kind
  | search pattern _ => kind ∈ pattern.kinds
  | _ => False

/-- Whether a call is about a kind. -/
def Concerns (kind : LabelKind) : Call → Prop
  | add found _ | addAll found _ | labeler found | index found | builtIndex found => found = kind
  | search pattern _ => kind ∈ pattern.kinds

instance (kind : LabelKind) : DecidablePred (Freezes kind)
  | index found => inferInstanceAs (Decidable (found = kind))
  | search pattern _ => inferInstanceAs (Decidable (kind ∈ pattern.kinds))
  | add _ _ | addAll _ _ | labeler _ | builtIndex _ => inferInstanceAs (Decidable False)

end Call

end View

namespace Labeler

variable {α : Type} [Spanned α]

theorem addAll?_collecting (labels : List α) (pending : Array α) :
    (collecting pending).addAll? labels = some (.collecting (pending ++ labels.toArray)) := by
  induction labels generalizing pending with
  | nil => simp [addAll?]
  | cons label rest ih =>
    change (collecting (pending.push label)).addAll? rest = _
    rw [ih]
    simp

theorem freeze_freeze_snd (labeler : Labeler α) (distinct : Bool) :
    ((labeler.freeze distinct).2.freeze distinct).2 = (labeler.freeze distinct).2 := by
  cases labeler <;> rfl

theorem addAll?_frozen (index : LabelIndex α) {labels : List α} (h : labels ≠ []) :
    (frozen index).addAll? labels = none := by
  cases labels with
  | nil => exact absurd rfl h
  | cons label rest => rfl

end Labeler

namespace View

section
variable (view : View) {kind other : LabelKind}

theorem labeler?_withLabeler_self (kind : LabelKind) (labeler : Labeler Label) :
    (view.withLabeler kind labeler).labeler? kind = some labeler := lookup_setLabeler_self kind labeler view.labelers

theorem labeler?_withLabeler_of_ne (hne : other ≠ kind) (labeler : Labeler Label) :
    (view.withLabeler kind labeler).labeler? other = view.labeler? other :=
  lookup_setLabeler_of_ne hne labeler view.labelers

theorem labeler_withLabeler (kind other : LabelKind) (labeler : Labeler Label) :
    (view.withLabeler kind labeler).labeler other = if kind = other then labeler else view.labeler other := by
  rw [View.labeler]
  split
  · rename_i heq
    rw [heq, labeler?_withLabeler_self, Option.getD_some]
  · rename_i hne
    rw [labeler?_withLabeler_of_ne view (Ne.symm hne), View.labeler]

theorem index?_eq (kind : LabelKind) : view.index? kind = (view.labeler kind).index? := by
  rw [index?, labeler]
  cases view.labeler? kind <;> rfl

theorem answerAdd_addAll (kind : LabelKind) (labels : List Label) :
    view.answerAdd (view.addAll kind labels) =
      match (view.labeler kind).addAll? labels with
      | some labeler => (.accepted, view.withLabeler kind labeler)
      | none => (.refused (.finalized kind.name), view) := by
  rw [addAll]
  cases (view.labeler kind).addAll? labels <;> rfl

theorem labeler_answerAdd (kind other : LabelKind) (labels : List Label) :
    (view.answerAdd (view.addAll kind labels)).2.labeler other =
      ((view.labeler other).addAll? (if kind = other then labels else [])).getD (view.labeler other) := by
  rw [answerAdd_addAll]
  by_cases heq : kind = other
  · subst heq
    rw [if_pos rfl]
    cases h : (view.labeler kind).addAll? labels with
    | none => rfl
    | some labeler => exact (labeler_withLabeler view kind kind labeler).trans (if_pos rfl)
  · rw [if_neg heq]
    cases h : (view.labeler kind).addAll? labels with
    | none => rfl
    | some labeler => exact (labeler_withLabeler view kind other labeler).trans (if_neg heq)

theorem labeler_freeze (kind other : LabelKind) :
    (view.freeze kind).2.labeler other =
      if kind = other then ((view.labeler other).freeze other.distinct).2 else view.labeler other := by
  change (view.withLabeler kind ((view.labeler kind).freeze kind.distinct).2).labeler other = _
  rw [labeler_withLabeler]
  split
  · rename_i heq
    rw [heq]
  · rfl

theorem labeler_freezeAll (kind : LabelKind) (kinds : List LabelKind) :
    (view.freezeAll kinds).2.labeler kind =
      if kind ∈ kinds then ((view.labeler kind).freeze kind.distinct).2 else view.labeler kind := by
  induction kinds generalizing view with
  | nil => rfl
  | cons first rest ih =>
    change ((view.freeze first).2.freezeAll rest).2.labeler kind = _
    rw [ih, labeler_freeze]
    by_cases hfirst : first = kind
    · subst hfirst
      rw [if_pos rfl, if_pos List.mem_cons_self, Labeler.freeze_freeze_snd, ite_self]
    · simp only [if_neg hfirst, List.mem_cons, Ne.symm hfirst, false_or]

/-- What a call makes of the labeler of a kind. -/
theorem labeler_perform (call : Call) (kind : LabelKind) :
    (view.perform call).2.labeler kind =
      if call.Freezes kind then ((view.labeler kind).freeze kind.distinct).2
      else ((view.labeler kind).addAll? (call.given kind)).getD (view.labeler kind) := by
  cases call with
  | add found label => exact labeler_answerAdd view found kind [label]
  | addAll found labels => exact labeler_answerAdd view found kind labels
  | labeler found =>
    refine (labeler_withLabeler view found kind _).trans ?_
    split
    · rename_i heq
      rw [heq]
      rfl
    · rfl
  | index found => exact labeler_freeze view found kind
  | builtIndex found => rfl
  | search pattern range? =>
    cases range? with
    | none => exact labeler_freezeAll view kind pattern.kinds
    | some range => exact labeler_freezeAll view kind pattern.kinds

theorem labeler?_answerAdd (hne : other ≠ kind) (labels : List Label) :
    (view.answerAdd (view.addAll kind labels)).2.labeler? other = view.labeler? other := by
  rw [answerAdd_addAll]
  cases (view.labeler kind).addAll? labels with
  | none => rfl
  | some labeler => exact view.labeler?_withLabeler_of_ne hne labeler

theorem labeler?_freezeAll {kinds : List LabelKind} (h : kind ∉ kinds) :
    (view.freezeAll kinds).2.labeler? kind = view.labeler? kind := by
  induction kinds generalizing view with
  | nil => rfl
  | cons first rest ih =>
    obtain ⟨hne, hrest⟩ := not_or.1 (mt List.mem_cons.2 h)
    change ((view.freeze first).2.freezeAll rest).2.labeler? kind = _
    rw [ih _ hrest]
    exact view.labeler?_withLabeler_of_ne hne _

theorem labeler?_perform {call : Call} (h : ¬ call.Concerns kind) :
    (view.perform call).2.labeler? kind = view.labeler? kind := by
  cases call with
  | add found label => exact view.labeler?_answerAdd (Ne.symm h) [label]
  | addAll found labels => exact view.labeler?_answerAdd (Ne.symm h) labels
  | labeler found => exact view.labeler?_withLabeler_of_ne (Ne.symm h) _
  | index found => exact view.labeler?_withLabeler_of_ne (Ne.symm h) _
  | builtIndex found => rfl
  | search pattern range? =>
    cases range? with
    | none => exact view.labeler?_freezeAll h
    | some range => exact view.labeler?_freezeAll h

end

section
variable {view : View} {kind : LabelKind}

theorem labeler_after_of_not_freezes {pending : Array Label} (h : view.labeler kind = .collecting pending)
    {calls : List Call} (hcalls : ∀ call ∈ calls, ¬ call.Freezes kind) :
    (view.after calls).labeler kind = .collecting (pending ++ (calls.flatMap (·.given kind)).toArray) := by
  induction calls generalizing view pending with
  | nil => simpa [after] using h
  | cons call rest ih =>
    obtain ⟨hcall, hrest⟩ := List.forall_mem_cons.1 hcalls
    have hnext : (view.perform call).2.labeler kind = .collecting (pending ++ (call.given kind).toArray) := by
      rw [labeler_perform, if_neg hcall, h, Labeler.addAll?_collecting, Option.getD_some]
    rw [after, List.foldl_cons, ← after, ih hnext hrest]
    simp

theorem labeler_after_of_frozen {index : LabelIndex Label} (h : view.labeler kind = .frozen index)
    (calls : List Call) : (view.after calls).labeler kind = .frozen index := by
  induction calls generalizing view with
  | nil => exact h
  | cons call rest ih =>
    apply ih
    rw [labeler_perform, h]
    split
    · rfl
    · cases call.given kind <;> rfl

theorem labeler_after_of_freezes {pending : Array Label} (h : view.labeler kind = .collecting pending)
    {before : List Call} {call : Call} (hbefore : ∀ earlier ∈ before, ¬ earlier.Freezes kind)
    (hcall : call.Freezes kind) (rest : List Call) :
    (view.after (before ++ call :: rest)).labeler kind =
      .frozen (.ofLabels kind.distinct (pending.toList ++ before.flatMap (·.given kind))) := by
  -- Up to `call` the labels are collected, `call` freezes them, and nothing after it changes that.
  rw [after, List.foldl_append, List.foldl_cons, ← after, ← after]
  apply labeler_after_of_frozen
  rw [labeler_perform, if_pos hcall, labeler_after_of_not_freezes h hbefore, Labeler.freeze]
  simp

end

/-- A kind whose labels are not frozen, with the labels it has been given. -/
structure Collects (view : View) (kind : LabelKind) (labels : List Label) : Prop where
  pending : view.pending kind = labels
  index? : view.index? kind = none
  add : ∀ label, (view.perform (.add kind label)).1 = .accepted
  addAll : ∀ labels, (view.perform (.addAll kind labels)).1 = .accepted

/-- A kind that keeps an index. Whoever asks gets that index, and labels are refused. -/
structure Keeps (view : View) (kind : LabelKind) (index : LabelIndex Label) : Prop where
  pending : view.pending kind = []
  index? : view.index? kind = some index
  answer : (view.perform (.index kind)).1 = .index (some index)
  searched : ∀ pattern range?, kind ∈ pattern.kinds → ∃ searcher : Pattern.Searcher,
    (view.perform (.search pattern range?)).1 = .searcher searcher ∧ ⟨kind, index⟩ ∈ searcher.indices.toList ∧
      ∀ frozen ∈ searcher.indices.toList, frozen.kind = kind → frozen.index = index
  add : ∀ label, view.perform (.add kind label) = (.refused (.finalized kind.name), view)
  addAll : ∀ labels, labels ≠ [] → view.perform (.addAll kind labels) = (.refused (.finalized kind.name), view)

section
variable {view : View} {kind : LabelKind}

theorem collects_of_collecting {labels : List Label} (h : view.labeler kind = .collecting labels.toArray) :
    view.Collects kind labels where
  pending := by rw [pending, h, Labeler.pending]
  index? := by rw [index?_eq, h, Labeler.index?]
  add label := by
    change (view.answerAdd (view.addAll kind [label])).1 = .accepted
    rw [answerAdd_addAll, h, Labeler.addAll?_collecting]
  addAll given := by
    change (view.answerAdd (view.addAll kind given)).1 = .accepted
    rw [answerAdd_addAll, h, Labeler.addAll?_collecting]

theorem searched_of_frozen {index : LabelIndex Label} (h : view.labeler kind = .frozen index) {pattern : Pattern}
    (hkind : kind ∈ pattern.kinds) (range : Span) :
    ⟨kind, index⟩ ∈ (view.searcherIn pattern range).1.indices.toList ∧
      ∀ frozen ∈ (view.searcherIn pattern range).1.indices.toList, frozen.kind = kind → frozen.index = index := by
  have hindex : (view.freeze kind).1 = index := by
    change ((view.labeler kind).freeze kind.distinct).1 = index
    rw [h, Labeler.freeze]
  rw [Pattern.Searcher.indices_searcherIn]
  constructor
  · rw [← hindex]
    exact List.mem_map_of_mem hkind
  · intro frozen hmem hfrozen
    obtain ⟨found, _, rfl⟩ := List.mem_map.1 hmem
    obtain rfl : found = kind := hfrozen
    exact hindex

theorem keeps_of_frozen {index : LabelIndex Label} (h : view.labeler kind = .frozen index) :
    view.Keeps kind index where
  pending := by rw [pending, h, Labeler.pending]
  index? := by rw [index?_eq, h, Labeler.index?]
  answer := by
    change Answer.index (some ((view.labeler kind).freeze kind.distinct).1) = _
    rw [h, Labeler.freeze]
  searched pattern range? hkind := by
    cases range? with
    | none => exact ⟨_, rfl, searched_of_frozen h hkind _⟩
    | some range => exact ⟨_, rfl, searched_of_frozen h hkind range⟩
  add label := by
    refine (view.answerAdd_addAll kind [label]).trans ?_
    rw [h, Labeler.addAll?_frozen index (List.cons_ne_nil _ _)]
  addAll labels hlabels := by
    refine (view.answerAdd_addAll kind labels).trans ?_
    rw [h, Labeler.addAll?_frozen index hlabels]

end

/-- Labels that come together are all taken or all refused. -/
theorem addAll_all_or_none (view : View) (kind : LabelKind) (labels : List Label) :
    (∃ after, view.perform (.addAll kind labels) = (.accepted, after) ∧
        after.pending kind = view.pending kind ++ labels) ∨
      view.perform (.addAll kind labels) = (.refused (.finalized kind.name), view) := by
  have hperform : view.perform (.addAll kind labels) = _ := view.answerAdd_addAll kind labels
  cases hlabeler : view.labeler kind with
  | collecting found =>
    rw [hlabeler, Labeler.addAll?_collecting] at hperform
    refine .inl ⟨_, hperform, ?_⟩
    rw [pending, pending, labeler_withLabeler, if_pos rfl, hlabeler]
    simp [Labeler.pending]
  | frozen index =>
    cases labels with
    | nil =>
      rw [hlabeler] at hperform
      refine .inl ⟨_, hperform, ?_⟩
      rw [pending, pending, labeler_withLabeler, if_pos rfl, hlabeler, List.append_nil]
    | cons label rest =>
      rw [hlabeler, Labeler.addAll?_frozen index (List.cons_ne_nil _ _)] at hperform
      exact .inr hperform

/-- A kind of a new view collects the labels that it is given up to the first call that freezes it, and keeps the
index of those for ever. The searches that freeze it are those for patterns that refer to it. -/
theorem collects_until_frozen (view : View) (hnew : view.labelers = []) (calls : List Call) (kind : LabelKind) :
    ((∀ call ∈ calls, ¬ call.Freezes kind) →
        (view.after calls).Collects kind (calls.flatMap (·.given kind))) ∧
      (∀ before call rest, calls = before ++ call :: rest → (∀ earlier ∈ before, ¬ earlier.Freezes kind) →
        call.Freezes kind →
          (view.after calls).Keeps kind (.ofLabels kind.distinct (before.flatMap (·.given kind)))) ∧
      (∀ labels,
        (∃ after, (view.after calls).perform (.addAll kind labels) = (.accepted, after) ∧
            after.pending kind = (view.after calls).pending kind ++ labels) ∨
          (view.after calls).perform (.addAll kind labels) = (.refused (.finalized kind.name), view.after calls)) ∧
      (∀ call, ¬ call.Concerns kind →
        ((view.after calls).perform call).2.labeler? kind = (view.after calls).labeler? kind) ∧
      ∀ table source pattern, Pattern.parse table source = .ok pattern →
        ∃ tree, Pattern.Derivation table source tree ∧
          ∀ range?, (Call.search pattern range?).Freezes kind ↔ Pattern.RefersTo table tree kind := by
  have hempty : view.labeler kind = .collecting #[] := by
    rw [labeler, labeler?, hnew]
    rfl
  refine ⟨fun hcalls => ?_, ?_, fun labels => ?_, fun call hcall => ?_, fun table source pattern hparse => ?_⟩
  · apply collects_of_collecting
    simpa using labeler_after_of_not_freezes hempty hcalls
  · rintro before call rest rfl hbefore hcall
    apply keeps_of_frozen
    simpa using labeler_after_of_freezes hempty hbefore hcall rest
  · exact addAll_all_or_none _ kind labels
  · exact labeler?_perform _ hcall
  · obtain ⟨tree, htree, hkinds⟩ := Pattern.mem_kinds_iff_refersTo hparse
    exact ⟨tree, htree, fun _ => hkinds kind⟩

section
open Pattern.Searcher (echoKind echoAliases echoPattern parse_echoes)

theorem collects_until_frozen_echoes :
    let view : View := { name := "echoes", text := "go go" }
    let label : Label := ⟨⟨0, 2⟩, .ofList [("text", .text "go")]⟩
    (view.after [.labeler echoKind, .add echoKind label, .search echoPattern none,
        .addAll echoKind [label, label]]).Keeps echoKind (.ofLabels echoKind.distinct [label]) ∧
      ∃ tree, Pattern.Derivation echoAliases echoPattern.source tree ∧ Pattern.RefersTo echoAliases tree echoKind := by
  intro view label
  obtain ⟨_, hkeeps, _, _, hrefers⟩ := collects_until_frozen view rfl [.labeler echoKind, .add echoKind label,
    .search echoPattern none, .addAll echoKind [label, label]] echoKind
  have hfreezes : (Call.search echoPattern none).Freezes echoKind := List.mem_cons_self
  have hbefore : ∀ earlier ∈ [Call.labeler echoKind, .add echoKind label], ¬ earlier.Freezes echoKind := by
    intro earlier hmem
    simp only [List.mem_cons, List.not_mem_nil, or_false] at hmem
    rcases hmem with rfl | rfl
    · exact id
    · exact id
  obtain ⟨tree, htree, hkind⟩ := hrefers _ _ _ parse_echoes
  exact ⟨hkeeps _ _ _ rfl hbefore hfreezes, tree, htree, (hkind none).1 hfreezes⟩

end

end View

end TextAnnotation
