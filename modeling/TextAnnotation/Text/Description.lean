import TextAnnotation.Span

/-!
The written form of values in descriptions: records with named fields, calls with one argument, lists
and optional values.
-/

namespace TextAnnotation.Text.Description

/-- Parts with a comma between each two. -/
def separated (parts : List String) : String := ", ".intercalate parts

/-- A record, its fields in order. -/
def record (name : String) (fields : List (String × String)) : String :=
  name ++ " \x7b " ++ separated (fields.map fun (field, value) => field ++ ": " ++ value) ++ " \x7d"

/-- A name applied to a value. -/
def call (name value : String) : String := name ++ "(" ++ value ++ ")"

def list (values : List String) : String := "[" ++ separated values ++ "]"

/-- Keys with their values in braces. -/
def map (entries : List (String × String)) : String :=
  "\x7b" ++ separated (entries.map fun (key, value) => key ++ ": " ++ value) ++ "\x7d"

/-- An optional value, already described. -/
def optional : Option String → String
  | none => "None"
  | some value => call "Some" value

def truth (b : Bool) : String := if b then "true" else "false"

end TextAnnotation.Text.Description

namespace TextAnnotation.Span

/-- The span as a record of its bounds. -/
def describe (s : Span) : String :=
  Text.Description.record "TextRange" [("start", toString s.start), ("end", toString s.stop)]

end TextAnnotation.Span
