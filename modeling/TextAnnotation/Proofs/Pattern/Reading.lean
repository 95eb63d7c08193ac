import TextAnnotation.Proofs.Pattern.Calls
import TextAnnotation.Proofs.Pattern.Safety

/-!
Accessors are resolved while a pattern is parsed, and long before there are labels. When the pattern is
matched, each of them is asked about labels of the kind only that it was registered for.
-/

namespace TextAnnotation

theorem TextMap.mem_of_find?_ofList {entries : List (String × α)} {key : String} {value : α}
    (h : (TextMap.ofList entries).find? key = some value) : (key, value) ∈ entries := by
  have hfold (m : TextMap α) (entries : List (String × α))
      (h : (entries.foldl (fun m entry => m.insert entry.1 entry.2) m).find? key = some value) :
      m.find? key = some value ∨ (key, value) ∈ entries := by
    induction entries generalizing m with
    | nil => exact .inl h
    | cons entry rest ih =>
      rcases ih _ h with hfound | hmem
      · by_cases hkey : key = entry.1
        · subst hkey
          rw [TextMap.find?_insert_self] at hfound
          cases hfound
          exact .inr List.mem_cons_self
        · rw [TextMap.find?_insert_of_ne m hkey] at hfound
          exact .inl hfound
      · exact .inr (List.mem_cons_of_mem _ hmem)
  rcases hfold .empty entries h with hempty | hmem
  · cases hempty
  · exact hmem

namespace Pattern

namespace AliasTable

/-- The accessors that an alias has are meant for labels of the kind that it stands for. -/
def WellKinded (table : AliasTable) : Prop :=
  ∀ kindAlias registered name read, table.find? kindAlias = some registered →
    registered.accessors.find? name = some read → read.kind = registered.kind

variable {table : AliasTable} {kindAlias : String} {kind : LabelKind} {accessors : List (String × Accessor)}

theorem wellKinded_empty : WellKinded {} := nofun

theorem WellKinded.insert (h : table.WellKinded) {registered : RegisteredKind}
    (hregistered : ∀ name read, registered.accessors.find? name = some read → read.kind = registered.kind)
    (tokenAlias? : Option String) :
    WellKinded ⟨table.registered.insert kindAlias registered, tokenAlias?⟩ := by
  intro other found name read hfound hread
  by_cases hother : other = kindAlias
  · subst hother
    have heq := (TextMap.find?_insert_self table.registered other registered).symm.trans hfound
    cases heq
    exact hregistered name read hread
  · have heq := (TextMap.find?_insert_of_ne table.registered hother registered).symm.trans hfound
    exact h other found name read heq hread

/-- Every registration is for one kind of labels, with accessors of these. -/
theorem WellKinded.register (h : table.WellKinded) (haccessors : ∀ entry ∈ accessors, entry.2.kind = kind) :
    (table.register kindAlias kind accessors).WellKinded := by
  apply h.insert
  intro name read hread
  exact haccessors (name, read) (TextMap.mem_of_find?_ofList hread)

theorem WellKinded.registerToken (h : table.WellKinded)
    (haccessors : ∀ entry ∈ accessors, entry.2.kind = kind) :
    (table.registerToken kindAlias kind accessors).WellKinded := by
  apply h.insert
  intro name read hread
  rcases List.mem_cons.1 (TextMap.mem_of_find?_ofList hread) with heq | hmem
  · cases heq
    rfl
  · exact haccessors (name, read) hmem

end AliasTable

theorem Reading.valueFor?_of_eq {reading : Reading α} {kind : LabelKind} (h : reading.kind = kind)
    (label : Label) : reading.valueFor? kind label = some (reading.read label) := if_pos h.symm

/-- A reference to what an accessor gives for a capture: the capture is known to hold labels of one alias, the
accessor is one of theirs, and the predicate fails only if nothing is held or the two values differ. -/
def Predicate.RefersWell (table : AliasTable) (scope : Scope) (m : Matcher) (captures : Captures)
    (kind : LabelKind) (predicate : Predicate) (name : String) (slot : Nat) (accessor : String)
    (read : Accessor) : Prop :=
  ∃ kindAlias registered held?, scope.captures[slot]? = some ⟨name, some kindAlias⟩ ∧
    table.find? kindAlias = some registered ∧ registered.accessors.find? accessor = some read ∧
    Matcher.captured? captures slot = .ok held? ∧
    match held? with
    | none => ∀ label, m.predicateHolds captures kind label predicate = .ok false
    | some captured => ∃ ref found, captured.label? = some ref ∧ m.label ref = .ok (registered.kind, found) ∧
      read.valueFor? registered.kind found = some (read.read found) ∧
      ∀ label, m.predicateHolds captures kind label predicate =
        .ok (decide (predicate.read.read label = read.read found))

/-- Whatever a task reads of labels, it reads by accessors registered for the kind of these labels. -/
structure Task.ReadsWell (table : AliasTable) (scope : Scope) (m : Matcher) (task : Task) : Prop where
  predicates : ∀ term, task.node.term? = some term →
    ∃ registered frozen, table.find? term.kindAlias = some registered ∧ m.index term.slot = .ok frozen ∧
      frozen.kind = registered.kind ∧ ∀ predicate ∈ term.predicates,
        registered.accessors.find? predicate.accessor = some predicate.read ∧
        (∀ label, predicate.read.valueFor? frozen.kind label = some (predicate.read.read label)) ∧
        ∀ name slot accessor read, predicate.expected = .readingOf name slot accessor read →
          predicate.RefersWell table scope m task.captures frozen.kind name slot accessor read
  literals : ∀ words, task.node = .literal words →
    ∃ frozen, table.tokenText? = some words.read ∧ m.index words.slot = .ok frozen ∧
      ∀ label, words.read.valueFor? frozen.kind label = some (words.read.read label)
  captures : ∀ (slot : Nat) (captured : Captured), task.captures[slot]? = some (some captured) →
    ∃ ref kind label, captured.label? = some ref ∧ m.label ref = .ok (kind, label)

theorem Matcher.captured?_eq_ok_iff {captures : Captures} {slot : Nat} {held? : Option Captured} :
    captured? captures slot = .ok held? ↔ captures[slot]? = some held? := by
  unfold captured?
  split <;> simp_all

section
variable {table : AliasTable} {scope : Scope} {m : Matcher}

theorem Predicate.refersWell (htable : table.WellKinded) {captures : Captures}
    (hcaptures : CapturesSound table m scope.captures captures) {kind : LabelKind} {predicate : Predicate}
    (hkind : predicate.read.kind = kind) {name : String} {slot : Nat} {accessor : String} {read : Accessor}
    (hexpected : predicate.expected = .readingOf name slot accessor read)
    (hresolved : predicate.expected.Resolved table scope) :
    predicate.RefersWell table scope m captures kind name slot accessor read := by
  rw [hexpected] at hresolved
  obtain ⟨⟨_, _⟩, kindAlias, hcapture, rfl, rfl, haccessor⟩ := hresolved
  obtain ⟨registered, hregistered, hread⟩ := Option.bind_eq_some_iff.1 haccessor
  obtain ⟨held?, hheld, hsound⟩ := hcaptures.captured? hcapture
  refine ⟨kindAlias, registered, held?, hcapture, hregistered, hread, hheld, ?_⟩
  have hactual := Reading.valueFor?_of_eq hkind
  rcases held? with _ | captured
  · intro label
    simp only [Matcher.predicateHolds, hexpected, hheld, hactual, bind, Except.bind]
    rfl
  · obtain ⟨ref, found, href, ⟨label, hlabel⟩, hfound⟩ := hsound captured rfl
    cases hfound kindAlias registered rfl hregistered
    have hbound := Reading.valueFor?_of_eq (htable kindAlias registered accessor read hregistered hread) label
    refine ⟨ref, label, href, hlabel, hbound, fun other => ?_⟩
    simp only [Matcher.predicateHolds, hexpected, hheld, hactual, bind, Except.bind, Option.bind_some, href,
      hlabel, hbound]
    change Except.ok (some _ == some _) = _
    rw [Option.some_beq_some]
    rfl

theorem Task.Sound.readsWell (htable : table.WellKinded) (hm : m.Indexes scope.kinds) {task : Task}
    (h : task.Sound table scope m) : task.ReadsWell table scope m where
  predicates term hterm := by
    obtain ⟨registered, hresolved⟩ := (h.node task.node .refl).term hterm
    obtain ⟨frozen, hfrozen, hkind⟩ := hm.index hresolved.slot
    refine ⟨registered, frozen, hresolved.kindAlias, hfrozen, hkind, fun predicate hmem => ?_⟩
    have hread := hresolved.reads predicate hmem
    have hreadKind : predicate.read.kind = frozen.kind :=
      (htable _ registered _ _ hresolved.kindAlias hread).trans hkind.symm
    refine ⟨hread, Reading.valueFor?_of_eq hreadKind, fun name slot accessor read hexpected => ?_⟩
    exact predicate.refersWell htable h.captures hreadKind hexpected (hresolved.expected predicate hmem)
  literals words hwords := by
    have hresolved : (Node.literal words).Resolved table scope := hwords ▸ h.node task.node .refl
    obtain ⟨frozen, hfrozen, hkind⟩ := hm.index hresolved.slot
    exact ⟨frozen, hresolved.read, hfrozen, Reading.valueFor?_of_eq hkind.symm⟩
  captures slot captured hslot := by
    obtain ⟨hlt, _⟩ := Array.getElem?_eq_some_iff.1 hslot
    rw [h.captures.size] at hlt
    obtain ⟨ref, kind, href, ⟨label, hlabel⟩, _⟩ :=
      h.captures.held slot captured hslot _ (List.getElem?_eq_getElem hlt)
    exact ⟨ref, kind, label, href, hlabel⟩

end

namespace Searcher

theorem boundLabel?_of_label {s : Searcher} {name : String} {captured : Captured} {ref : LabelRef}
    {kind : LabelKind} {label : Label} (hcaptured : s.capture? name = some captured)
    (href : captured.label? = some ref) (hlabel : s.matcher.label ref = .ok (kind, label)) :
    s.boundLabel? name = some (kind, label) := by
  obtain ⟨frozen, hfrozen, rfl, hget⟩ := Matcher.label_eq_ok_iff.1 hlabel
  have hfrozen : s.indices[ref.slot]? = some frozen := hfrozen
  simp only [boundLabel?, hcaptured, href, hfrozen, hget, Option.bind_eq_bind, Option.bind_some]
  rfl

theorem Sound.task {table : AliasTable} {scope : Scope} {s : Searcher} (h : s.Sound table scope)
    (candidate : Nat) : (s.task candidate).Sound table scope s.matcher where
  node := h.root
  captures := sound_noCaptures h.names s.matcher

/-- Whatever a search comes to, it reads labels by accessors registered for their kind only, and what it
leaves in a capture is a label. -/
theorem search_readsWell {table : AliasTable} (htable : table.WellKinded) {source : String}
    {pattern : Pattern} (hparse : parse table source = .ok pattern) :
    ∃ scope, parsedScope? table source = some scope ∧
      ∀ (view : View) (range : Span) (calls : List Call) (s : Searcher),
        s = (view.searcherIn pattern range).1.after calls →
        (∀ candidate task, s.matcher.Reaches (s.task candidate) task →
          task.ReadsWell table scope s.matcher) ∧
        ∀ name captured, s.capture? name = some captured → (s.boundLabel? name).isSome := by
  obtain ⟨scope, hscope, hkinds, hnames, hroot⟩ := resolved_of_parse hparse
  refine ⟨scope, hscope, fun view range calls s hs => ?_⟩
  have hsound : s.Sound table scope := hs ▸ (sound_searcherIn hkinds hnames hroot view range).after calls
  refine ⟨fun candidate task hreach => ?_, fun name captured hcaptured => ?_⟩
  · exact (hreach.sound hsound.indexes (hsound.task candidate)).readsWell htable hsound.indexes
  · obtain ⟨slot, hslot, hjoin⟩ := Option.bind_eq_some_iff.1 hcaptured
    obtain ⟨held?, hheld, hlabel⟩ := hsound.captured? hslot
    rw [Matcher.captured?_eq_ok_iff.1 hheld] at hjoin
    obtain ⟨ref, kind, label, href, hlabel⟩ := hlabel captured hjoin
    rw [boundLabel?_of_label hcaptured href hlabel]
    rfl

theorem echoAliases_wellKinded : echoAliases.WellKinded :=
  AliasTable.wellKinded_empty.registerToken (by simp)

theorem search_readsWell_echoes :
    echoAliases.WellKinded ∧ parse echoAliases "a:Word -> Word<text=$a.text>" = .ok echoPattern ∧
      ∃ scope, parsedScope? echoAliases "a:Word -> Word<text=$a.text>" = some scope ∧
        ∀ candidate task, echoSearcher.matcher.Reaches (echoSearcher.task candidate) task →
          task.ReadsWell echoAliases scope echoSearcher.matcher := by
  obtain ⟨scope, hscope, hreads⟩ := search_readsWell echoAliases_wellKinded parse_echoes
  have hsearcher : echoSearcher = (echoView.searcherIn echoPattern ⟨5, 0⟩).1.after [
      .search, .reset ⟨0, 5⟩, .search] := rfl
  exact ⟨echoAliases_wellKinded, parse_echoes, scope, hscope,
    (hreads echoView ⟨5, 0⟩ _ echoSearcher hsearcher).1⟩

end Searcher

end Pattern

end TextAnnotation
