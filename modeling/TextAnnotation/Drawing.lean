import TextAnnotation.Label.Description
import TextAnnotation.Text.ColumnWidth
import TextAnnotation.View

/-!
Drawing a view: its text on one line, and under it a marked line for each label that is shown.
-/

namespace TextAnnotation

namespace Drawing

/-- The column at which a byte offset is drawn, measured on the text before it. An offset inside a
character is drawn where the character begins. -/
def column (text : List Char) (offset : Nat) : Nat :=
  Text.columnWidth (Text.charactersWithin text offset)

/-- A text as one line: line breaks and tabs become spaces. -/
def oneLine (text : List Char) : List Char :=
  text.map fun c => if c = '\n' || c = '\t' || c = '\r' then ' ' else c

/-- The mark under the columns from `start` up to `stop`. -/
def marker (start stop : Nat) : String :=
  "╰" ++ String.ofList (List.replicate (stop - 1 - (start + 1)) '─') ++
    if 1 < stop - start then "╯" else ""

/-- The columns of a label that would end before it starts. The width of a text can shrink when more of
it is measured, so the columns of two offsets need not be in their order. -/
structure ReversedColumns where
  start : Nat
  stop : Nat
deriving DecidableEq, Repr

/-- The line of a label: its mark under its part of the text, and its description. -/
def labelLine (text : List Char) (span : Span) (description : String) :
    Except ReversedColumns String :=
  let start := column text span.start
  let stop := column text span.stop
  if start ≤ stop then
    .ok (String.ofList (List.replicate start ' ') ++ marker start stop ++ description)
  else .error ⟨start, stop⟩

end Drawing

/-- The labels of a kind as they are drawn: in span order, frozen or not. -/
def View.shownLabels (view : View) (kind : LabelKind) : List Label :=
  match view.index? kind with
  | some index => index.ascending
  | none => (view.pending kind).mergeSort fun a b => a.span.le b.span

/-- The text of a view with the labels of the given kinds under it, kind by kind. -/
def View.draw (view : View) (kinds : List LabelKind) : Except Drawing.ReversedColumns String := do
  let text := view.text.toList
  let shown := kinds.flatMap fun kind =>
    (view.shownLabels kind).map fun label => (label.span, label.describe kind)
  let lines ← shown.mapM fun (span, description) => Drawing.labelLine text span description
  return "\n".intercalate (String.ofList (Drawing.oneLine text) :: lines)

end TextAnnotation
