import TextAnnotation.View

/-!
Documents: a text with named views of it. Views are attached and never replaced or removed.
-/

namespace TextAnnotation

/-- A misuse of the views of a document. -/
inductive DocumentError where
  | viewExists (document view : String)
  | unknownView (document view : String)
  | invalidRange (document : String) (range : Span)
deriving DecidableEq, Repr

def DocumentError.message : DocumentError → String
  | .viewExists document view => "document " ++ document ++ " already has a view named " ++ view
  | .unknownView document view => "document " ++ document ++ " has no view named " ++ view
  | .invalidRange document range =>
    "range " ++ range.render ++ " is not a valid text range of document " ++ document

/-- A text, its views and its metadata. -/
structure Document where
  id : String
  text : String
  views : TextMap View := {}
  metadata : TextMap String := {}
deriving Repr

namespace Document

/-- The name of the view in which processors hand labels to each other. -/
def systemViewName : String := "_SystemView"

/-- The document with a view that it has already, in its present state. -/
def putView (document : Document) (view : View) : Document :=
  { document with views := document.views.insert view.name view }

/-- The document with a new view; its name must not be taken. -/
def attach (document : Document) (view : View) : Except DocumentError Document :=
  if document.views.contains view.name then .error (.viewExists document.id view.name)
  else .ok (document.putView view)

/-- A new view over a text of its own. -/
def attachText (document : Document) (name text : String) : Except DocumentError Document :=
  document.attach { name, text }

/-- A new view over the whole text of the document. -/
def attachFullText (document : Document) (name : String) : Except DocumentError Document :=
  document.attachText name document.text

/-- A new view over a part of the text of the document. -/
def attachRange (document : Document) (name : String) (range : Span) : Except DocumentError Document :=
  match range.coveredText? document.text with
  | some text => document.attach { name, text, origin := range.start }
  | none => .error (.invalidRange document.id range)

def view? (document : Document) (name : String) : Option View := document.views.find? name

/-- The view of a name, which must exist. -/
def requireView (document : Document) (name : String) : Except DocumentError View :=
  match document.view? name with
  | some view => .ok view
  | none => .error (.unknownView document.id name)

/-- The system view, over the whole text if it is not attached yet. -/
def systemView (document : Document) : View :=
  (document.view? systemViewName).getD { name := systemViewName, text := document.text }

/-- The names of the views in ascending order. -/
def viewNames (document : Document) : List String := document.views.keys

def metadata? (document : Document) (key : String) : Option String := document.metadata.find? key

def setMetadata (document : Document) (key value : String) : Document :=
  { document with metadata := document.metadata.insert key value }

/-- The document as a record, with its views. -/
def describe (document : Document) : String :=
  Text.Description.record "Document" [
    ("id", Text.quoted document.id),
    ("text", Text.quoted document.text),
    ("views", Text.Description.map
      (document.views.entries.map fun (name, view) => (Text.quoted name, view.describe))),
    ("metadata", Text.Description.map
      (document.metadata.entries.map fun (key, value) => (Text.quoted key, Text.quoted value)))]

end Document

end TextAnnotation
