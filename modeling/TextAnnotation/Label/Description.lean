import TextAnnotation.Label.Labeler
import TextAnnotation.Token

/-!
The written form of labels and of their collections.
-/

namespace TextAnnotation

/-- A label with the name of its kind, its span and its attributes. A token is written as a record. -/
def Label.describe (kind : LabelKind) (label : Label) : String :=
  if kind = Token.kind then (Token.ofLabel label).describe
  else
    kind.name ++ label.span.render ++
      String.join (label.attributes.entries.map fun (name, value) => " " ++ name ++ "=" ++ value.render)

namespace LabelIndex

def describe (kind : LabelKind) (index : LabelIndex Label) : String :=
  Text.Description.record "LabelIndex" [
    ("labels", Text.Description.list (index.labels.toList.map (·.describe kind))),
    ("max_end", Text.Description.list (index.maxStops.toList.map toString))]

end LabelIndex

namespace Labeler

def describe (kind : LabelKind) (labeler : Labeler Label) : String :=
  Text.Description.record "Labeler" [
    ("pending", Text.Description.list (labeler.pending.map (·.describe kind))),
    ("index", Text.Description.optional (labeler.index?.map (·.describe kind)))]

end Labeler

end TextAnnotation
