import TextAnnotation.Label
import TextAnnotation.Label.Labeler
import TextAnnotation.Text.Offset

/-!
A view: a named text with a labeler for every kind of label it has been asked about. The labelers of
different kinds are independent of each other.
-/

namespace TextAnnotation

/-- A misuse of a labeler: labels cannot be added to a kind that is frozen. -/
inductive LabelError where
  | finalized (kindName : String)
deriving DecidableEq, Repr

def LabelError.message : LabelError → String
  | .finalized kindName => "labeler for " ++ kindName ++ " is finalized; no labels can be added"

/-- A named text and the labels on it. The origin is where the text begins in the text it was taken
from. -/
structure View where
  name : String
  text : String
  origin : Nat := 0
  /-- The labelers by kind, in the order of first use. -/
  labelers : List (LabelKind × Labeler Label) := []
deriving Repr

namespace View

/-- The labelers with the one of `kind` replaced, or with a new one at the end. -/
def setLabeler (kind : LabelKind) (labeler : Labeler Label) :
    List (LabelKind × Labeler Label) → List (LabelKind × Labeler Label)
  | [] => [(kind, labeler)]
  | (k, l) :: rest => if kind = k then (kind, labeler) :: rest else (k, l) :: setLabeler kind labeler rest

/-- The labeler of a kind, if the view has been asked about it. -/
def labeler? (view : View) (kind : LabelKind) : Option (Labeler Label) := view.labelers.lookup kind

/-- The labeler of a kind, empty if there is none yet. -/
def labeler (view : View) (kind : LabelKind) : Labeler Label := (view.labeler? kind).getD .empty

def withLabeler (view : View) (kind : LabelKind) (labeler : Labeler Label) : View :=
  { view with labelers := setLabeler kind labeler view.labelers }

/-- The view with a labeler of the kind, empty if it had none. -/
def touch (view : View) (kind : LabelKind) : View := view.withLabeler kind (view.labeler kind)

/-- The labels of a kind that are added but not frozen, in the order of their arrival. -/
def pending (view : View) (kind : LabelKind) : List Label := (view.labeler kind).pending

/-- The index of a kind, if it is frozen. Asking does not freeze it. -/
def index? (view : View) (kind : LabelKind) : Option (LabelIndex Label) :=
  (view.labeler? kind).bind Labeler.index?

/-- The view with labels added in order. A frozen kind refuses the first of them. -/
def addAll (view : View) (kind : LabelKind) (labels : List Label) : Except LabelError View :=
  match (view.labeler kind).addAll? labels with
  | some labeler => .ok (view.withLabeler kind labeler)
  | none => .error (.finalized kind.name)

def add (view : View) (kind : LabelKind) (label : Label) : Except LabelError View :=
  view.addAll kind [label]

/-- The index of a kind, and the view with the kind frozen. -/
def freeze (view : View) (kind : LabelKind) : LabelIndex Label × View :=
  let (index, labeler) := (view.labeler kind).freeze kind.distinct
  (index, view.withLabeler kind labeler)

/-- The indices of several kinds, frozen one after the other. -/
def freezeAll (view : View) : List LabelKind → List (LabelIndex Label) × View
  | [] => ([], view)
  | kind :: kinds =>
    let (index, view) := view.freeze kind
    let (indices, view) := view.freezeAll kinds
    (index :: indices, view)

/-- The names of the kinds that have a labeler, sorted. -/
def kindNames (view : View) : List String :=
  (view.labelers.map (·.1.name)).mergeSort fun a b => decide (a ≤ b)

/-- The view as a record, its text by its length only. -/
def describe (view : View) : String :=
  Text.Description.record "View" [
    ("name", Text.quoted view.name),
    ("text_len", toString (Text.byteLength view.text.toList)),
    ("origin", toString view.origin),
    ("label_types", Text.Description.list (view.kindNames.map Text.quoted))]

end View

end TextAnnotation
