import TextAnnotation.Attribute
import TextAnnotation.TextMap

/-!
Labels: spans of a text with attributes. Labels come in kinds; a label is stored with the others of its
kind and does not name it.
-/

namespace TextAnnotation

/-- A kind of label. Of a distinct kind, at most one label may occupy a span. -/
structure LabelKind where
  name : String
  version : String := "1_0"
  distinct : Bool := false
  /-- Tells kinds apart that have everything else in common. Nothing prints it. -/
  identity : Nat := 0
deriving DecidableEq, Repr

/-- A span with named attributes. -/
structure Label where
  span : Span
  attributes : TextMap AttributeValue := {}
deriving DecidableEq, Repr

instance : Spanned Label := ⟨Label.span⟩

namespace Label

/-- The text that a label carries: its attribute `text`, if that is a text. -/
def text (label : Label) : String :=
  match label.attributes.find? "text" with
  | some (.text value) => value
  | _ => ""

/-- What a label has under a name. A label without an attribute of that name still has its span and its
two offsets; anything else is the empty text. -/
def valueOf (label : Label) (name : String) : AttributeValue :=
  match label.attributes.find? name with
  | some value => value
  | none =>
    if name = "span" then .span label.span
    else if name = "start" then .integer label.span.start
    else if name = "end" then .integer label.span.stop
    else .text ""

end Label

/-- A reading of labels that is meant for the labels of one kind. -/
structure Reading (α : Type) where
  kind : LabelKind
  read : Label → α

/-- What a reading gives for a label of `kind`; nothing if it is meant for another kind. -/
def Reading.valueFor? (reading : Reading α) (kind : LabelKind) (label : Label) : Option α :=
  if kind = reading.kind then some (reading.read label) else none

/-- A reading whose results patterns compare. -/
abbrev Accessor := Reading AttributeValue

/-- The reading that looks an attribute up by its name. -/
def Accessor.named (kind : LabelKind) (name : String) : Accessor := ⟨kind, (·.valueOf name)⟩

/-- The reading that gives the text of a label. -/
def Accessor.text (kind : LabelKind) : Accessor := ⟨kind, fun label => .text label.text⟩

end TextAnnotation
