import TextAnnotation.Pipeline.Processor

/-!
Small steps to build pipelines from: adding given labels, attaching views, copying metadata, checking what
must be there, and breaking off where a text occurs.
-/

namespace TextAnnotation

namespace DocumentProcessor

/-- Adds the given labels to every document. -/
def addLabels (kind : LabelKind) (labels : List Label) : DocumentProcessor :=
  .onSystemView fun view => view.addAllOrFail kind labels

/-- Freezes a kind. -/
def freeze (kind : LabelKind) : DocumentProcessor :=
  .onSystemView fun view => .ok (view.freeze kind).2

/-- Attaches a view over the whole text. -/
def attachFullText (name : String) : DocumentProcessor := fun document =>
  match document.attachFullText name with
  | .ok document => return document
  | .error e => throw (.failure (.document e))

/-- Fails unless the document has a view. -/
def requireView (name : String) : DocumentProcessor := fun document =>
  match document.requireView name with
  | .ok _ => return document
  | .error e => throw (.failure (.document e))

/-- Breaks off. -/
def breakOff (breakdown : Breakdown) : DocumentProcessor := fun _ => throw breakdown

/-- Asks the run to stop. -/
def stop : DocumentProcessor := fun document => do
  set { isStopped := true : StopSignal }
  return document

/-- Whether a text has another one somewhere in it. -/
def occursIn (part : List Char) : List Char → Bool
  | [] => part.isEmpty
  | c :: cs => part.isPrefixOf (c :: cs) || occursIn part cs

/-- A step on the documents with a property only. -/
def only (applies : Document → Bool) (processor : DocumentProcessor) : DocumentProcessor := fun document =>
  if applies document then processor document else return document

/-- A step on the documents whose text contains `part` only. -/
def onlyContaining (part : String) : DocumentProcessor → DocumentProcessor :=
  only fun document => occursIn part.toList document.text.toList

end DocumentProcessor

namespace ArtifactProcessor

/-- Breaks off. -/
def breakOff (breakdown : Breakdown) : ArtifactProcessor := fun artifact =>
  throw { artifactId := artifact.id, breakdown }

/-- Sums the sizes of the indices of a kind over the documents into metadata. -/
def count (kind : LabelKind) (key : String) : ArtifactProcessor := fun artifact =>
  let size (document : Document) : Nat := (document.systemView.freeze kind).1.size
  let total := artifact.documents.values.foldl (fun total document => total + size document) 0
  let documents := artifact.documents.mapValues fun document =>
    document.putView (document.systemView.freeze kind).2
  return Artifact.setMetadata { artifact with documents } key (toString total)

/-- Copies metadata under another key. -/
def copyMetadata (source key : String) : ArtifactProcessor := fun artifact =>
  return artifact.setMetadata key ((artifact.metadata? source).getD "(none)")

/-- Fails unless the artifact has a document. -/
def requireDocument (name : String) : ArtifactProcessor := fun artifact =>
  if (artifact.document? name).isSome then return artifact
  else breakOff (.failure (.failed "has_doc" name)) artifact

/-- Adds a document. -/
def addDocument (name text : String) : ArtifactProcessor := fun artifact =>
  match artifact.addDocument name text with
  | .ok artifact => return artifact
  | .error e => breakOff (.failure (.failed "add_doc" e.message)) artifact

end ArtifactProcessor

end TextAnnotation
