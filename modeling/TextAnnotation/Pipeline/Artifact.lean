import TextAnnotation.Pipeline.Error

/-!
Artifacts: what a pipeline works on, one at a time.
-/

namespace TextAnnotation

/-- Documents by name, under an identifier and with metadata. -/
structure Artifact where
  id : String
  metadata : TextMap String := {}
  documents : TextMap Document := {}
deriving Repr

namespace Artifact

/-- The artifact with one document more; its name must not be taken. -/
def addDocument (artifact : Artifact) (name text : String) : Except DuplicateDocument Artifact :=
  if artifact.documents.contains name then .error { artifact := artifact.id, name }
  else .ok { artifact with documents := artifact.documents.insert name { id := name, text } }

def setMetadata (artifact : Artifact) (key value : String) : Artifact :=
  { artifact with metadata := artifact.metadata.insert key value }

def metadata? (artifact : Artifact) (key : String) : Option String := artifact.metadata.find? key

def document? (artifact : Artifact) (name : String) : Option Document := artifact.documents.find? name

/-- The artifact of one document. -/
def ofText (id name text : String) : Artifact where
  id := id
  documents := TextMap.empty.insert name { id := name, text }

end Artifact

end TextAnnotation
