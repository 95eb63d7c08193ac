import TextAnnotation.Toml.Document

/-!
The tables of documents. Whatever statements a text spells, the document that they make has tables with ascending
keys: two entries of one table never share a key.
-/

namespace TextAnnotation.Toml

/-- The keys of a table ascend, and so do those of the tables in it. -/
inductive Ordered : Entries → Prop where
  | intro {entries : Entries} (ascending : TextMap.Ascending entries)
    (inner : ∀ key origin table, (key, Value.table origin table) ∈ entries → Ordered table) : Ordered entries

/-- Values other than tables hold no entries of their own. -/
def Value.Ordered : Value → Prop
  | .table _ inner => Toml.Ordered inner
  | _ => True

theorem Ordered.ascending {entries : Entries} (h : Ordered entries) : TextMap.Ascending entries := by
  cases h with
  | intro hascending hinner => exact hascending

theorem Ordered.value {entries : Entries} (h : Ordered entries) {key : String} {value : Value}
    (hmem : (key, value) ∈ entries) : value.Ordered := by
  cases h with
  | intro hascending hinner =>
    cases value with
    | table origin table => exact hinner key origin table hmem
    | _ => trivial

theorem Ordered.nil : Ordered [] := .intro .nil fun _ _ _ hmem => absurd hmem List.not_mem_nil

theorem mem_of_lookup {entries : Entries} {key : String} {value : Value} (h : entries.lookup key = some value) :
    (key, value) ∈ entries := by
  obtain ⟨before, after, rfl, _⟩ := List.lookup_eq_some_iff.1 h
  exact List.mem_append_right before List.mem_cons_self

theorem Ordered.insertEntry {entries : Entries} (h : Ordered entries) {value : Value} (hvalue : value.Ordered)
    (key : String) : Ordered (TextMap.insertEntry key value entries) := by
  apply Ordered.intro (h.ascending.insertEntry key value)
  intro found origin table hmem
  rcases TextMap.mem_insertEntry hmem with heq | hmem
  · cases heq
    exact hvalue
  · exact h.value hmem

theorem Ordered.insertTable {entries inner : Entries} (h : Ordered entries) (hinner : Ordered inner) (key : String)
    (origin : Origin) : Ordered (TextMap.insertEntry key (.table origin inner) entries) :=
  @Ordered.insertEntry entries h (.table origin inner) hinner key

theorem Ordered.insertTables {entries : Entries} (h : Ordered entries) (key : String) (earlier : List Entries)
    (last : Entries) : Ordered (TextMap.insertEntry key (.tables earlier last) entries) :=
  @Ordered.insertEntry entries h (.tables earlier last) trivial key

/-- A change leaves a table ordered. -/
def Change.Keeps (change : Change) : Prop :=
  ∀ origin entries changed, Ordered entries → change origin entries = some changed → Ordered changed

theorem keeps_define {value : Value} (hvalue : value.Ordered) (key : String) : (define key value).Keeps := by
  intro origin entries changed h hchanged
  simp only [define] at hchanged
  split at hchanged
  · cases hchanged
  · cases hchanged
    exact h.insertEntry hvalue key

theorem keeps_changeAt {change : Change} (hchange : change.Keeps) (passage : Passage) (path : List String) :
    (changeAt passage change path).Keeps := by
  induction path with
  | nil => exact hchange
  | cons key path ih =>
    intro origin entries changed h hchanged
    rw [changeAt] at hchanged
    split at hchanged
    · obtain ⟨inner, hinner, heq⟩ := Option.bind_eq_some_iff.1 hchanged
      cases heq
      exact h.insertTable (ih _ _ _ .nil hinner) key _
    · rename_i found table hlookup
      split at hchanged
      · obtain ⟨inner, hinner, heq⟩ := Option.bind_eq_some_iff.1 hchanged
        cases heq
        exact h.insertTable (ih _ _ _ (h.value (mem_of_lookup hlookup)) hinner) key _
      · cases hchanged
    · obtain ⟨inner, _, heq⟩ := Option.bind_eq_some_iff.1 hchanged
      cases heq
      exact h.insertTables key _ _
    · cases hchanged

theorem keeps_defineAt {value : Value} (hvalue : value.Ordered) (path : List String) (key : String) :
    (defineAt path key value).Keeps := by
  intro origin entries changed h hchanged
  rw [defineAt] at hchanged
  split at hchanged
  · exact keeps_define hvalue key _ _ _ h hchanged
  · apply keeps_changeAt _ _ _ _ _ _ h hchanged
    intro origin entries changed h hchanged
    dsimp only at hchanged
    split at hchanged
    · exact keeps_define hvalue key _ _ _ h hchanged
    · cases hchanged

theorem keeps_openTable (key : String) : (openTable key).Keeps := by
  intro origin entries changed h hchanged
  simp only [openTable] at hchanged
  split at hchanged
  · cases hchanged
    exact h.insertTable .nil key _
  · rename_i table hlookup
    cases hchanged
    exact h.insertTable (h.value (mem_of_lookup hlookup)) key _
  · cases hchanged

theorem keeps_openNext (key : String) : (openNext key).Keeps := by
  intro origin entries changed h hchanged
  simp only [openNext] at hchanged
  split at hchanged
  · cases hchanged
    exact h.insertTables key _ _
  · cases hchanged
    exact h.insertTables key _ _
  · cases hchanged

theorem foldlM_keeps {P : β → Prop} {Q : α → Prop} {step : β → α → Option β}
    (hstep : ∀ before item after, P before → Q item → step before item = some after → P after) {items : List α}
    (hitems : ∀ item ∈ items, Q item) {start final : β} (hstart : P start) (h : items.foldlM step start = some final) :
    P final := by
  induction items generalizing start with
  | nil =>
    cases h
    exact hstart
  | cons item rest ih =>
    obtain ⟨next, hnext, hrest⟩ := Option.bind_eq_some_iff.1 h
    obtain ⟨hitem, hitems⟩ := List.forall_mem_cons.1 hitems
    exact ih hitems (hstep start item next hstart hitem hnext) hrest

theorem ordered_inlineTable? {values : List ((List String × String) × Value)}
    (hvalues : ∀ entry ∈ values, entry.2.Ordered) {table : Value} (h : inlineTable? values = some table) :
    table.Ordered := by
  obtain ⟨entries, hentries, heq⟩ := Option.bind_eq_some_iff.1 h
  cases heq
  have hkeeps : ∀ (before : Entries) (entry : (List String × String) × Value) (after : Entries),
      Ordered before → entry.2.Ordered → defineAt entry.1.1 entry.1.2 entry.2 .inline before = some after →
        Ordered after :=
    fun before entry after h hentry hafter => keeps_defineAt hentry _ _ _ _ _ h hafter
  exact foldlM_keeps hkeeps hvalues .nil hentries

def Statement.Ordered : Statement → Prop
  | .header _ _ => True
  | .nextHeader _ _ => True
  | .entry _ _ value => value.Ordered

theorem Building.ordered_add {building next : Building} (h : Ordered building.entries) {statement : Statement}
    (hstatement : statement.Ordered) (hadd : building.add statement = some next) : Ordered next.entries := by
  cases statement with
  | header path key =>
    obtain ⟨entries, hentries, heq⟩ := Option.bind_eq_some_iff.1 hadd
    cases heq
    exact keeps_changeAt (keeps_openTable key) _ _ _ _ _ h hentries
  | nextHeader path key =>
    obtain ⟨entries, hentries, heq⟩ := Option.bind_eq_some_iff.1 hadd
    cases heq
    exact keeps_changeAt (keeps_openNext key) _ _ _ _ _ h hentries
  | entry path key value =>
    obtain ⟨entries, hentries, heq⟩ := Option.bind_eq_some_iff.1 hadd
    cases heq
    exact keeps_changeAt (keeps_defineAt hstatement path key) _ _ _ _ _ h hentries

theorem ordered_entriesOf? {statements : List Statement} (hstatements : ∀ statement ∈ statements, statement.Ordered)
    {entries : Entries} (h : entriesOf? statements = some entries) : Ordered entries := by
  obtain ⟨building, hbuilding, rfl⟩ := Option.map_eq_some_iff.1 h
  exact foldlM_keeps (P := fun building => Ordered building.entries)
    (fun _ _ _ h hstatement hadd => Building.ordered_add h hstatement hadd) hstatements .nil hbuilding

namespace Reader

/-- Whatever a reader gives has a property. -/
structure Gives (reader : Reader α) (P : α → Prop) : Prop where
  of_run : ∀ ⦃text result rest⦄, reader text = some (result, rest) → P result

section
variable {reader : Reader α} {next : α → Reader β} {P : α → Prop} {Q : β → Prop}

theorem Gives.bind (h : Gives reader P) (hnext : ∀ result, P result → Gives (next result) Q) :
    Gives (reader >>= next) Q where
  of_run := by
    intro text final rest hrun
    obtain ⟨⟨result, middle⟩, hresult, hfinal⟩ := Option.bind_eq_some_iff.1 hrun
    exact (hnext result (h.of_run hresult)).of_run hfinal

theorem Gives.andThen (hnext : ∀ result, Gives (next result) Q) : Gives (reader >>= next) Q :=
  Gives.bind (P := fun _ => True) ⟨fun _ _ _ _ => trivial⟩ fun result _ => hnext result

theorem Gives.pure {result : α} (h : P result) : Gives (Pure.pure result) P where
  of_run := by
    intro text found rest hrun
    cases hrun
    exact h

theorem Gives.item {result : α} (h : P result) :
    Gives (Pure.pure (some result)) fun found? => ∀ found, found? = some found → P found := by
  apply Gives.pure
  intro found heq
  cases heq
  exact h

theorem Gives.noItem : Gives (Pure.pure none) fun found? => ∀ found, found? = some found → P found :=
  .pure nofun

theorem Gives.failure : Gives (Alternative.failure : Reader α) P where
  of_run := nofun

theorem Gives.ite {condition : Prop} [Decidable condition] {other : Reader α} (h : Gives reader P)
    (hother : Gives other P) : Gives (if condition then reader else other) P := by
  split
  · exact h
  · exact hother

theorem Gives.orElse {other : Reader α} (h : Gives reader P) (hother : Gives other P) :
    Gives (reader <|> other) P where
  of_run := by
    intro text result rest hrun
    change (reader text <|> other text) = some (result, rest) at hrun
    cases hreader : reader text with
    | none =>
      rw [hreader] at hrun
      exact hother.of_run hrun
    | some found =>
      rw [hreader] at hrun
      cases hrun
      exact h.of_run hreader

/-- What a reader gives that is run until it gives none. -/
theorem Gives.manyUpTo {item? : Reader (Option α)} (h : Gives item? fun item? => ∀ item, item? = some item → P item)
    (most : Nat) : Gives (manyUpTo item? most) fun items => ∀ item ∈ items, P item := by
  induction most with
  | zero => exact .failure
  | succ most ih =>
    rw [Reader.manyUpTo]
    apply h.bind
    intro item? hitem
    cases item? with
    | none => exact .pure fun item hmem => absurd hmem List.not_mem_nil
    | some item =>
      apply ih.bind
      intro items hitems
      exact .pure (List.forall_mem_cons.2 ⟨hitem item rfl, hitems⟩)

theorem Gives.many {item? : Reader (Option α)} (h : Gives item? fun item? => ∀ item, item? = some item → P item) :
    Gives (many item?) fun items => ∀ item ∈ items, P item :=
  .andThen fun _ => h.manyUpTo _

end

theorem gives_integer (negative : Bool) (magnitude : Nat) : Gives (integer negative magnitude) Value.Ordered :=
  .ite (.pure trivial) .failure

theorem gives_numberOf (negative : Bool) (whole : List Char) (fraction? : Option (List Char))
    (exponent? : Option Int) : Gives (numberOf negative whole fraction? exponent?) Value.Ordered := by
  rw [numberOf.eq_def]
  split
  · exact gives_integer negative _
  · exact .ite .failure (.pure trivial)

theorem gives_decimal (negative : Bool) : Gives (decimal negative) Value.Ordered :=
  .andThen fun whole => .andThen fun fraction? => .andThen fun exponent? =>
    gives_numberOf negative whole fraction? exponent?

theorem gives_number : Gives number Value.Ordered := by
  rw [number]
  apply Gives.andThen
  intro isHex
  apply Gives.ite (.andThen fun _ => gives_integer _ _)
  apply Gives.andThen
  intro isOctal
  apply Gives.ite (.andThen fun _ => gives_integer _ _)
  apply Gives.andThen
  intro isBinary
  apply Gives.ite (.andThen fun _ => gives_integer _ _)
  apply Gives.andThen
  intro negative
  apply Gives.andThen
  intro isInfinite
  apply Gives.ite (.pure trivial)
  apply Gives.andThen
  intro isNoNumber
  exact .ite (.pure trivial) (gives_decimal negative)

theorem gives_numeric : Gives numeric Value.Ordered :=
  .orElse (.bind (P := fun _ => True) ⟨fun _ _ _ _ => trivial⟩ fun _ _ => .pure trivial) gives_number

theorem gives_scalar : Gives scalar Value.Ordered := by
  rw [scalar]
  apply Gives.andThen
  intro next?
  split
  · exact .andThen fun _ => .pure trivial
  · exact .andThen fun _ => .pure trivial
  · exact .andThen fun _ => .pure trivial
  · exact .andThen fun _ => .pure trivial
  · exact gives_number
  · exact gives_number
  · exact .ite gives_numeric .failure
  · exact .failure

theorem gives_inlineEntry {item : Reader Value} (h : Gives item Value.Ordered) :
    Gives (inlineEntry item) fun entry => entry.2.Ordered := by
  rw [inlineEntry]
  apply Gives.andThen
  intro key
  apply Gives.andThen
  intro _
  apply Gives.andThen
  intro _
  apply h.bind
  intro value hvalue
  exact .andThen fun _ => .pure hvalue

theorem gives_inlineEntries {item : Reader Value} (h : Gives item Value.Ordered) :
    Gives (inlineEntries item) fun entries => ∀ entry ∈ entries, entry.2.Ordered := by
  rw [inlineEntries]
  apply Gives.andThen
  intro isEmpty
  apply Gives.ite (.pure fun entry hmem => absurd hmem List.not_mem_nil)
  apply (gives_inlineEntry h).bind
  intro first hfirst
  apply Gives.bind (P := fun rest => ∀ entry ∈ rest, entry.2.Ordered)
  · apply Gives.many
    apply Gives.andThen
    intro more
    apply Gives.ite _ .noItem
    apply (gives_inlineEntry h).bind
    intro entry hentry
    exact .item hentry
  · intro rest hrest
    exact .andThen fun _ => .pure (List.forall_mem_cons.2 ⟨hfirst, hrest⟩)

theorem gives_inlineTable {item : Reader Value} (h : Gives item Value.Ordered) :
    Gives (inlineTable item) Value.Ordered := by
  rw [inlineTable]
  apply Gives.andThen
  intro _
  apply (gives_inlineEntries h).bind
  intro entries hentries
  cases htable : inlineTable? entries with
  | none => exact .failure
  | some table => exact .pure (ordered_inlineTable? hentries htable)

/-- An array is no table, whatever it holds. -/
theorem gives_value (depth : Nat) : Gives (value depth) Value.Ordered := by
  induction depth with
  | zero => exact gives_scalar
  | succ depth ih =>
    rw [value]
    apply Gives.andThen
    intro isArray
    apply Gives.ite
    · exact .andThen fun _ => .pure trivial
    · apply Gives.andThen
      intro isTable
      exact .ite (gives_inlineTable ih) gives_scalar

theorem gives_statement? : Gives statement? fun statement? => ∀ statement, statement? = some statement →
    statement.Ordered := by
  rw [statement?]
  apply Gives.andThen
  intro _
  apply Gives.andThen
  intro isLast
  apply Gives.ite .noItem
  apply Gives.andThen
  intro isNextHeader
  apply Gives.ite
  · exact .andThen fun _ => .andThen fun _ => .andThen fun _ => .item trivial
  apply Gives.andThen
  intro isHeader
  apply Gives.ite
  · exact .andThen fun _ => .andThen fun _ => .andThen fun _ => .item trivial
  apply Gives.andThen
  intro key
  apply Gives.andThen
  intro _
  apply Gives.andThen
  intro _
  apply (gives_value _).bind
  intro value hvalue
  apply Gives.andThen
  intro _
  exact .item hvalue

end Reader

/-- Keys ascend in all tables of a document. -/
theorem ordered_of_parse? {source : String} {entries : Entries} (h : parse? source = some entries) :
    Ordered entries := by
  simp only [parse?] at h
  obtain ⟨⟨statements, rest⟩, hstatements, hentries⟩ := Option.bind_eq_some_iff.1 h
  exact ordered_entriesOf? (Reader.gives_statement?.many.of_run hstatements) hentries

end TextAnnotation.Toml
