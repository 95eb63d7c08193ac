import TextAnnotation.Label
import TextAnnotation.Phrase.Detector
import TextAnnotation.Text.Quoted

/-!
Patterns in their parsed form. Kinds of labels and captures are referred to by their slots: the positions
at which the pattern lists them.
-/

namespace TextAnnotation.Pattern

/-- What an attribute of a label is compared with. -/
inductive Expected where
  | value (value : AttributeValue)
  /-- The span of a capture. -/
  | spanOf (name : String) (slot : Nat)
  /-- What a reading gives for the label that a capture holds. -/
  | readingOf (name : String) (slot : Nat) (accessor : String) (read : Accessor)

/-- The condition that a reading of a label gives the expected value. -/
structure Predicate where
  accessor : String
  expected : Expected
  read : Accessor

/-- A label of the kind that an alias stands for, with all of the given predicates. -/
structure LabelTerm where
  kindAlias : String
  slot : Nat
  predicates : List Predicate := []

/-- Consecutive labels whose texts are the words of a text. -/
structure Literal where
  text : String
  slot : Nat
  read : Reading String
  words : PhraseDetector String String
  wordCount : Nat

/-- A literal of the words that stand between the blanks of a text. -/
def Literal.ofText (text : String) (slot : Nat) (read : Reading String) : Literal :=
  { text, slot, read
    words := .ofPhrases [text] (· == ·)
    wordCount := (Text.words text).length }

inductive Node where
  /-- The elements one after the other. -/
  | sequence (elements : List Node)
  /-- The first alternative that matches. -/
  | alternation (alternatives : List Node)
  /-- The next label must begin where the previous one ends, blanks aside. -/
  | adjacent
  /-- As many times as possible, within bounds. -/
  | repetition (body : Node) (minimum : Nat) (maximum? : Option Nat)
  | capture (slot : Nat) (body : Node)
  /-- The body must match here, or must not, and nothing is consumed. -/
  | lookahead (body : Node) (negated : Bool)
  | label (term : LabelTerm)
  /-- A label inside which every condition matches. A seeking term tries all labels, not only the nearest
  ones; an exact term takes conditions that reach from end to end of the label only. -/
  | pinned (term : LabelTerm) (seek exact : Bool) (conditions : List Node)
  | literal (literal : Literal)

/-- The alias of the label that a capture of the node holds, where that is always of one kind. -/
def Node.boundAlias? : Node → Option String
  | .label term => some term.kindAlias
  | .pinned term _ _ _ => some term.kindAlias
  | .repetition body _ _ => body.boundAlias?
  | _ => none

def Expected.render : Expected → String
  | .value v => v.render
  | .spanOf name _ => "$" ++ name
  | .readingOf name _ accessor _ => "$" ++ name ++ "." ++ accessor

def Predicate.render (predicate : Predicate) : String :=
  predicate.accessor ++ "=" ++ predicate.expected.render

def LabelTerm.render (term : LabelTerm) : String :=
  if term.predicates.isEmpty then term.kindAlias
  else term.kindAlias ++ "<" ++ ", ".intercalate (term.predicates.map Predicate.render) ++ ">"

namespace Node

mutual

/-- The node as a record. -/
def describe : Node → String
  | .sequence elements => Text.Description.call "Sequence" (Text.Description.list (describeAll elements))
  | .alternation alternatives =>
    Text.Description.call "Alternation" (Text.Description.list (describeAll alternatives))
  | .adjacent => "Adjacent"
  | .repetition body minimum maximum? =>
    Text.Description.record "Repeat" [
      ("node", body.describe),
      ("min", toString minimum),
      ("max", Text.Description.optional (maximum?.map toString))]
  | .capture slot body =>
    Text.Description.record "Capture" [("slot", toString slot), ("node", body.describe)]
  | .lookahead body negated =>
    Text.Description.record "Lookahead" [
      ("node", body.describe), ("negate", Text.Description.truth negated)]
  | .label term => Text.Description.call "Type" term.render
  | .pinned term seek exact conditions =>
    Text.Description.record "Pinned" [
      ("label", term.render),
      ("seek", Text.Description.truth seek),
      ("exact", Text.Description.truth exact),
      ("conditions", Text.Description.list (describeAll conditions))]
  | .literal words => Text.Description.call "Literal" (Text.quoted words.text)

def describeAll : List Node → List String
  | [] => []
  | node :: rest => node.describe :: describeAll rest

end

end Node

end TextAnnotation.Pattern

namespace TextAnnotation

/-- A parsed pattern with the text that it was parsed from. -/
structure Pattern where
  source : String
  root : Pattern.Node
  /-- The kinds of labels it refers to, by slot. -/
  kinds : List LabelKind
  /-- The names of its captures, by slot. -/
  captureNames : List String

namespace Pattern

def captureSlot? (pattern : Pattern) (name : String) : Option Nat := pattern.captureNames.idxOf? name

def describe (pattern : Pattern) : String :=
  Text.Description.record "SearchExpr" [
    ("source", Text.quoted pattern.source), ("root", pattern.root.describe)]

end Pattern

end TextAnnotation
