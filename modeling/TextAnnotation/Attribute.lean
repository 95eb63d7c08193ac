import TextAnnotation.Text.Description
import TextAnnotation.Text.Quoted

/-!
The values that attributes of labels take, and that patterns compare them with.
-/

namespace TextAnnotation

inductive AttributeValue where
  | text (value : String)
  | integer (value : Int)
  | truth (value : Bool)
  | span (value : Span)
deriving DecidableEq, Repr

namespace AttributeValue

/-- The value as a pattern would write it. -/
def render : AttributeValue → String
  | text value => Text.quoted value
  | integer value => toString value
  | truth value => Text.Description.truth value
  | span value => value.render

/-- The value with its kind. -/
def describe : AttributeValue → String
  | text value => Text.Description.call "Text" (Text.quoted value)
  | integer value => Text.Description.call "Int" (toString value)
  | truth value => Text.Description.call "Bool" (Text.Description.truth value)
  | span value => Text.Description.call "Span" value.describe

end AttributeValue

end TextAnnotation
