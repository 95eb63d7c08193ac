import Mathlib.Data.List.Forall2
import TextAnnotation.Proofs.Text.Columns

/-!
How the line of a label stands under the text. Its mark begins at the columns of the text before the label, which are
those of the line of that text unless it has a line feed, and it is as wide as the part of the line that is the label's
unless that part has one.
-/

namespace TextAnnotation

namespace Drawing

open Text

/-- A text cut where a span begins and where it ends. -/
structure Divides (text : List Char) (span : Span) (before inner after : List Char) : Prop where
  text_eq : text = before ++ inner ++ after
  span_eq : span = ⟨byteLength before, byteLength (before ++ inner)⟩

/-- A mark: a corner, and if it is wider than one column, a line to a second corner. -/
def IsMark (mark : String) : Prop :=
  mark = "╰" ∨ ∃ n, mark = "╰" ++ String.ofList (List.replicate n '─') ++ "╯"

/-- The columns that a part of a text takes on its line. The width of a part can depend on what stands before it, so
that both are measured together. -/
def columnsOnLine (before inner : List Char) : Nat :=
  columnWidth (oneLine (before ++ inner)) - columnWidth (oneLine before)

/-- A line has its mark under the part of a text that a label covers, as that is drawn, and the mark is as wide. -/
def StandsUnder (before inner : List Char) (description drawn : String) : Prop :=
  ∃ mark, drawn = String.ofList (List.replicate (columnWidth (oneLine before)) ' ') ++ mark ++ description ∧
    IsMark mark ∧ columnWidth mark.toList = max 1 (columnWidth (oneLine inner))

/-- The line of a label with a mark from one column up to another. -/
def line (start stop : Nat) (description : String) : String :=
  String.ofList (List.replicate start ' ') ++ marker start stop ++ description

theorem Divides.column_start {text before inner after : List Char} {span : Span}
    (h : Divides text span before inner after) : column text span.start = columnWidth before := by
  rw [column, h.text_eq, h.span_eq, List.append_assoc, charactersWithin_byteLength]

theorem Divides.column_stop {text before inner after : List Char} {span : Span}
    (h : Divides text span before inner after) : column text span.stop = columnWidth (before ++ inner) := by
  rw [column, h.text_eq, h.span_eq, charactersWithin_byteLength]

theorem labelLine_eq_ok_iff {text : List Char} {span : Span} {description drawn : String} :
    labelLine text span description = .ok drawn ↔
      column text span.start ≤ column text span.stop ∧
        drawn = line (column text span.start) (column text span.stop) description := by
  unfold labelLine
  dsimp only
  by_cases h : column text span.start ≤ column text span.stop
  · rw [if_pos h, Except.ok.injEq, line, eq_comm, and_iff_right h]
  · rw [if_neg h]
    exact ⟨nofun, fun hok => absurd hok.1 h⟩

/-- Steps that each succeed on a condition succeed together if all conditions hold. -/
theorem mapM_eq_ok_iff {α β ε : Type} {f : α → Except ε β} {p : α → Prop} {g : α → β}
    (hf : ∀ x y, f x = .ok y ↔ p x ∧ y = g x) {xs : List α} {ys : List β} :
    xs.mapM f = .ok ys ↔ (∀ x ∈ xs, p x) ∧ ys = xs.map g := by
  induction xs generalizing ys with
  | nil =>
    rw [List.mapM_nil]
    exact ⟨fun h => ⟨fun _ hmem => absurd hmem List.not_mem_nil, (Except.ok.inj h).symm⟩,
      fun h => congrArg Except.ok h.2.symm⟩
  | cons x xs ih =>
    rw [List.mapM_cons, List.forall_mem_cons, List.map_cons]
    cases hx : f x with
    | error failure =>
      have hne : ¬ p x := by
        intro hp
        rw [(hf x (g x)).2 ⟨hp, rfl⟩] at hx
        cases hx
      exact ⟨(by cases ·), fun h => absurd h.1.1 hne⟩
    | ok y =>
      obtain ⟨hp, rfl⟩ := (hf x y).1 hx
      cases hxs : xs.mapM f with
      | error failure =>
        have hne : ¬ ∀ x ∈ xs, p x := by
          intro hall
          rw [ih.2 ⟨hall, rfl⟩] at hxs
          cases hxs
        exact ⟨(by cases ·), fun h => absurd h.1.2 hne⟩
      | ok found =>
        obtain ⟨hall, rfl⟩ := ih.1 hxs
        constructor
        · intro h
          exact ⟨⟨hp, hall⟩, (Except.ok.inj h).symm⟩
        · intro h
          rw [h.2]
          rfl

theorem isMark_marker (start stop : Nat) : IsMark (marker start stop) := by
  unfold marker
  by_cases h : 1 < stop - start
  · rw [if_pos h]
    exact .inr ⟨_, rfl⟩
  · rw [if_neg h, show stop - 1 - (start + 1) = 0 by omega]
    exact .inl rfl

theorem width_mark {c : Char} (h : c ∈ ['╰', '─', '╯']) : width c {} = (1, {}) := by
  simp only [List.mem_cons, List.not_mem_nil, or_false] at h
  rcases h with rfl | rfl | rfl <;> decide +kernel

theorem widthFrom_mark {cs : List Char} (h : ∀ c ∈ cs, c ∈ ['╰', '─', '╯']) :
    widthFrom cs = ((cs.length : Int), {}) := by
  induction cs with
  | nil => rfl
  | cons c cs ih =>
    obtain ⟨hc, hcs⟩ := List.forall_mem_cons.1 h
    rw [widthFrom_cons, ih hcs, width_mark hc]
    rfl

theorem toList_marker (start stop : Nat) :
    (marker start stop).toList =
      '╰' :: List.replicate (stop - 1 - (start + 1)) '─' ++ if 1 < stop - start then ['╯'] else [] := by
  unfold marker
  split <;> simp

theorem columnWidth_marker (start stop : Nat) : columnWidth (marker start stop).toList = max 1 (stop - start) := by
  have hmark : ∀ c ∈ (marker start stop).toList, c ∈ ['╰', '─', '╯'] := by
    intro c hc
    rw [toList_marker] at hc
    rcases List.mem_append.1 hc with hc | hc
    · rcases List.mem_cons.1 hc with rfl | hc
      · decide
      · rw [List.eq_of_mem_replicate hc]
        decide
    · split at hc
      · rw [List.mem_singleton.1 hc]
        decide
      · exact absurd hc List.not_mem_nil
  have hlength : (marker start stop).toList.length = max 1 (stop - start) := by
    rw [toList_marker, List.length_append, List.length_cons, List.length_replicate]
    split
    · rw [List.length_singleton]
      omega
    · rw [List.length_nil]
      omega
  rw [columnWidth, widthFrom_mark hmark, hlength]
  rfl

theorem columnWidth_eq_oneLine_iff (before : List Char) :
    columnWidth before = columnWidth (oneLine before) ↔ '\n' ∉ before := by
  rw [columnWidth_oneLine, ← breakLength_eq_zero_iff]
  omega

/-- A mark is as wide as the part of the line that is the label's, where it stands, unless a line feed makes that part
wider. -/
theorem columnWidth_marker_onLine_iff (before inner : List Char) :
    columnWidth (marker (columnWidth before) (columnWidth (before ++ inner))).toList =
        max 1 (columnsOnLine before inner) ↔
      '\n' ∉ inner ∨ columnsOnLine before inner ≤ 1 := by
  have hle := breakLength_add_le before inner
  have hcolumns : columnsOnLine before inner =
      columnWidth (before ++ inner) + breakLength (before ++ inner) - (columnWidth before + breakLength before) := by
    rw [columnsOnLine, columnWidth_oneLine, columnWidth_oneLine]
  rw [columnWidth_marker, ← breakLength_append_eq_iff before]
  omega

/-- A mark is as wide as the part of the line that is the label's would be alone, unless the width of the text does not
add up there. -/
theorem columnWidth_marker_alone_iff (before inner : List Char) :
    columnWidth (marker (columnWidth before) (columnWidth (before ++ inner))).toList =
        max 1 (columnWidth (oneLine inner)) ↔
      columnWidth (before ++ inner) = columnWidth before + columnWidth (oneLine inner) ∨
        columnWidth (before ++ inner) ≤ columnWidth before + 1 ∧ columnWidth (oneLine inner) ≤ 1 := by
  rw [columnWidth_marker]
  omega

/-- Without line feeds the mark of a label stands under it, if the label begins with a character that forms no sequence
with one at its left. -/
theorem line_standsUnder {before inner : List Char} (hplain : (widthFrom inner).2 = {}) (hbefore : '\n' ∉ before)
    (hinner : '\n' ∉ inner) (description : String) :
    StandsUnder before inner description (line (columnWidth before) (columnWidth (before ++ inner)) description) := by
  have hspaces := (columnWidth_eq_oneLine_iff before).2 hbefore
  have hwidth : columnWidth (oneLine inner) = columnWidth inner := ((columnWidth_eq_oneLine_iff inner).2 hinner).symm
  have hadds : columnWidth (before ++ inner) = columnWidth before + columnWidth (oneLine inner) := by
    rw [columnWidth_append hplain, hwidth]
  have halone := (columnWidth_marker_alone_iff before inner).2 (.inl hadds)
  exact ⟨_, by rw [line, ← hspaces], isMark_marker _ _, halone⟩

end Drawing

open Drawing Text

namespace View

/-- The labels that are drawn, with their kinds. -/
def shown (view : View) (kinds : List LabelKind) : List (LabelKind × Label) :=
  kinds.flatMap fun kind => (view.shownLabels kind).map (kind, ·)

/-- The columns where a label begins and where it ends. -/
def columns (view : View) (label : Label) : Nat × Nat :=
  (column view.text.toList label.span.start, column view.text.toList label.span.stop)

/-- The line of a label whose columns are in order. -/
def lineOf (view : View) (found : LabelKind × Label) : String :=
  line (view.columns found.2).1 (view.columns found.2).2 (found.2.describe found.1)

theorem draw_eq (view : View) (kinds : List LabelKind) :
    view.draw kinds =
      ((view.shown kinds).mapM fun found =>
        labelLine view.text.toList found.2.span (found.2.describe found.1)).map
          fun lines => "\n".intercalate (String.ofList (oneLine view.text.toList) :: lines) := by
  have hparts : (kinds.flatMap fun kind => (view.shownLabels kind).map fun label => (label.span, label.describe kind)) =
      (view.shown kinds).map fun found => (found.2.span, found.2.describe found.1) := by
    simp [shown, List.map_flatMap, Function.comp_def]
  rw [draw, hparts, List.mapM_map]
  rfl

theorem draw_eq_ok_iff {view : View} {kinds : List LabelKind} {drawn : String} :
    view.draw kinds = .ok drawn ↔
      (∀ found ∈ view.shown kinds, (view.columns found.2).1 ≤ (view.columns found.2).2) ∧
        drawn = "\n".intercalate (String.ofList (oneLine view.text.toList) :: (view.shown kinds).map view.lineOf) := by
  have hlines {lines : List String} :
      ((view.shown kinds).mapM fun found =>
          labelLine view.text.toList found.2.span (found.2.describe found.1)) = .ok lines ↔
        (∀ found ∈ view.shown kinds, (view.columns found.2).1 ≤ (view.columns found.2).2) ∧
          lines = (view.shown kinds).map view.lineOf :=
    mapM_eq_ok_iff fun found drawn => labelLine_eq_ok_iff
  rw [draw_eq]
  constructor
  · intro h
    cases hmapM : (view.shown kinds).mapM fun found =>
        labelLine view.text.toList found.2.span (found.2.describe found.1) with
    | error reversed =>
      rw [hmapM] at h
      cases h
    | ok lines =>
      obtain ⟨hall, rfl⟩ := hlines.1 hmapM
      rw [hmapM] at h
      exact ⟨hall, (Except.ok.inj h).symm⟩
  · intro h
    rw [hlines.2 ⟨h.1, rfl⟩, h.2]
    rfl

theorem columns_of_divides {view : View} {label : Label} {before inner after : List Char}
    (h : Divides view.text.toList label.span before inner after) :
    view.columns label = (columnWidth before, columnWidth (before ++ inner)) := by
  rw [columns, h.column_start, h.column_stop]

/-- A view is drawn if all labels begin with characters that form no sequence with one at their left. -/
theorem draws_of_plain {view : View} {kinds : List LabelKind}
    (h : ∀ found ∈ view.shown kinds, ∃ before inner after,
      Divides view.text.toList found.2.span before inner after ∧ (widthFrom inner).2 = {}) :
    ∃ drawn, view.draw kinds = .ok drawn := by
  have hcolumns : ∀ found ∈ view.shown kinds, (view.columns found.2).1 ≤ (view.columns found.2).2 := by
    intro found hfound
    obtain ⟨before, inner, after, hdivides, hplain⟩ := h found hfound
    rw [columns_of_divides hdivides, columnWidth_append hplain]
    exact Nat.le_add_right _ _
  exact ⟨_, draw_eq_ok_iff.2 ⟨hcolumns, rfl⟩⟩

/-- A view is drawn exactly if no label ends at a column before the one where it begins. The mark of a label then begins
under its part of the text exactly if no line feed stands before it, and is as wide as that part of the line, but at
least one column, exactly if no line feed stands in it or the part is no wider than one column. -/
theorem draws_under_text_iff (view : View) (kinds : List LabelKind) :
    (∀ drawn, view.draw kinds = .ok drawn ↔
      (∀ found ∈ view.shown kinds, (view.columns found.2).1 ≤ (view.columns found.2).2) ∧
        drawn = "\n".intercalate
          (String.ofList (oneLine view.text.toList) :: (view.shown kinds).map view.lineOf)) ∧
    ∀ found ∈ view.shown kinds, ∀ before inner after,
      Divides view.text.toList found.2.span before inner after →
        view.columns found.2 = (columnWidth before, columnWidth (before ++ inner)) ∧
        ∃ spaces mark, view.lineOf found =
            String.ofList (List.replicate spaces ' ') ++ mark ++ found.2.describe found.1 ∧
          IsMark mark ∧
          (spaces = columnWidth (oneLine before) ↔ '\n' ∉ before) ∧
          (columnWidth mark.toList = max 1 (columnsOnLine before inner) ↔
            '\n' ∉ inner ∨ columnsOnLine before inner ≤ 1) ∧
          (columnWidth mark.toList = max 1 (columnWidth (oneLine inner)) ↔
            columnWidth (before ++ inner) = columnWidth before + columnWidth (oneLine inner) ∨
              columnWidth (before ++ inner) ≤ columnWidth before + 1 ∧ columnWidth (oneLine inner) ≤ 1) := by
  constructor
  · exact fun drawn => draw_eq_ok_iff
  · intro found hfound before inner after hdivides
    have hcolumns := columns_of_divides hdivides
    apply And.intro hcolumns
    rw [lineOf, hcolumns]
    exact ⟨_, _, rfl, isMark_marker _ _, columnWidth_eq_oneLine_iff before, columnWidth_marker_onLine_iff before inner,
      columnWidth_marker_alone_iff before inner⟩

def numberKind : LabelKind := { name := "Number" }

def firstWord : Label := ⟨⟨0, 3⟩, .empty⟩

def secondWord : Label := ⟨⟨4, 7⟩, .empty⟩

/-- A text of two lines, of one word each, with one label. -/
def stanzaView (label : Label) : View where
  name := "stanza"
  text := "one\ntwo"
  labelers := [(numberKind, .collecting #[label])]

theorem shown_stanza (label : Label) : (stanzaView label).shown [numberKind] = [(numberKind, label)] := by
  have hindex : (stanzaView label).index? numberKind = none := by
    simp [index?, labeler?, stanzaView, Labeler.index?]
  have hpending : (stanzaView label).pending numberKind = [label] := by
    simp [pending, labeler, labeler?, stanzaView, Labeler.pending]
  simp [shown, shownLabels, hindex, hpending]

theorem draws_under_text_iff_stanza :
    (numberKind, firstWord) ∈ (stanzaView firstWord).shown [numberKind] ∧
      Divides (stanzaView firstWord).text.toList firstWord.span [] "one".toList "\ntwo".toList ∧
      ∃ mark, (stanzaView firstWord).lineOf (numberKind, firstWord) = mark ++ "Number[0, 3)" ∧
        IsMark mark ∧ columnWidth mark.toList = 3 := by
  have hmem : (numberKind, firstWord) ∈ (stanzaView firstWord).shown [numberKind] := by
    rw [shown_stanza]
    exact List.mem_cons_self
  have hdivides : Divides (stanzaView firstWord).text.toList firstWord.span [] "one".toList "\ntwo".toList :=
    ⟨by decide +kernel, by decide +kernel⟩
  obtain ⟨-, spaces, mark, hline, hmark, hspaces, hcolumns, -⟩ :=
    (draws_under_text_iff (stanzaView firstWord) [numberKind]).2 _ hmem _ _ _ hdivides
  have hnone : spaces = 0 := hspaces.2 List.not_mem_nil
  have hthree : columnsOnLine [] "one".toList = 3 := by decide +kernel
  have hdescription : firstWord.describe numberKind = "Number[0, 3)" := by decide +kernel
  rw [hnone, hdescription] at hline
  rw [hthree] at hcolumns
  exact ⟨hmem, hdivides, mark, hline, hmark, hcolumns.2 (.inl (by decide +kernel))⟩

/-- The mark of a label after a line feed stands too far to the left. -/
theorem not_always_under_text :
    ¬ ∀ (view : View) (kinds : List LabelKind) (drawn : String), view.draw kinds = .ok drawn →
      ∃ lines, drawn = "\n".intercalate (String.ofList (oneLine view.text.toList) :: lines) ∧
        List.Forall₂
          (fun found drawn => ∀ before inner after, Divides view.text.toList found.2.span before inner after →
            StandsUnder before inner (found.2.describe found.1) drawn)
          (view.shown kinds) lines := by
  intro h
  have hdrawn : (stanzaView secondWord).draw [numberKind] = .ok "one two\n   ╰─╯Number[4, 7)" := by
    rw [draw_eq_ok_iff, shown_stanza]
    exact ⟨by decide +kernel, by decide +kernel⟩
  have hdivides : Divides (stanzaView secondWord).text.toList secondWord.span "one\n".toList "two".toList [] :=
    ⟨by decide +kernel, by decide +kernel⟩
  obtain ⟨lines, hlines, hunder⟩ := h _ _ _ hdrawn
  rw [shown_stanza] at hunder
  cases hunder with
  | cons hfirst hrest =>
    cases hrest
    obtain ⟨mark, rfl, -⟩ := hfirst _ _ _ hdivides
    have hfour : columnWidth (oneLine "one\n".toList) = 4 := by decide +kernel
    have htop : oneLine (stanzaView secondWord).text.toList = "one two".toList := by decide +kernel
    rw [hfour, htop] at hlines
    -- Where a fourth space should be, the corner of the mark is.
    have hat := congrArg (fun drawn : String => drawn.toList[11]?) hlines
    simp at hat

end View

end TextAnnotation
