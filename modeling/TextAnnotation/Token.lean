import TextAnnotation.Label
import TextAnnotation.Text.Blank
import TextAnnotation.Text.Offset
import TextAnnotation.Text.WordBreak

/-!
Tokens: the segments of a text between word boundaries that are not blank.
-/

namespace TextAnnotation

/-- A segment of a text, with whether a blank segment follows it. -/
structure Token where
  span : Span
  text : String
  spaceAfter : Bool
deriving DecidableEq, Repr

namespace Token

instance : Spanned Token := ⟨Token.span⟩

/-- The kind of the labels that tokens are stored as. -/
def kind : LabelKind where
  name := "Token"
  distinct := true

/-- A token as a label. -/
def toLabel (token : Token) : Label where
  span := token.span
  attributes := TextMap.ofList [("spaced", .truth token.spaceAfter), ("text", .text token.text)]

/-- The token that a label stands for. -/
def ofLabel (label : Label) : Token where
  span := label.span
  text := label.text
  spaceAfter := label.attributes.find? "spaced" matches some (.truth true)

/-- The token as a record. -/
def describe (token : Token) : String :=
  Text.Description.record "Token" [
    ("range", token.span.describe),
    ("text", Text.quoted token.text),
    ("has_space_after", Text.Description.truth token.spaceAfter)]

/-- The tokens of consecutive segments, the first of which starts at `offset`. -/
def ofSegments (offset : Nat) : List (List Char) → List Token
  | [] => []
  | segment :: rest =>
    let stop := offset + Text.byteLength segment
    if segment.all Text.isBlank then ofSegments stop rest
    else
      { span := ⟨offset, stop⟩
        text := String.ofList segment
        spaceAfter := rest.head?.any (·.all Text.isBlank) } :: ofSegments stop rest

end Token

/-- The tokens of a text, in order. -/
def tokenize (text : String) : List Token := Token.ofSegments 0 (Text.segments text.toList)

end TextAnnotation
