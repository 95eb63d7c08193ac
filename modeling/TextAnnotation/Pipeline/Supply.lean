import TextAnnotation.Pipeline.Artifact
import TextAnnotation.Pipeline.Charset
import TextAnnotation.Pipeline.Settings

/-!
Where artifacts come from: a supply that is given in advance, and the text files of a directory.
-/

namespace TextAnnotation

/-- A source of artifacts, as what comes of the calls that are made to it one after the other. -/
structure Supply where
  /-- What each call hands out, up to the call that finds the end. -/
  batches : List (List Artifact)
  /-- What the call still hands out that finds the end. -/
  last : List Artifact := []
  /-- What that call ends in, if the supply does not just end. -/
  failure? : Option PipelineError := none
  /-- The artifacts that the failure keeps from being handed out. -/
  withheld : List Artifact := []
  /-- How many artifacts there are supposed to be. -/
  estimate? : Option Nat := none

namespace Supply

/-- A supply of known artifacts, which are handed out one by one. -/
def ofArtifacts (artifacts : List Artifact) : Supply where
  batches := artifacts.map ([·])
  estimate? := some artifacts.length

/-- A supply of artifacts of one document each. -/
def ofTexts (name : String) (texts : List (String × String)) : Supply :=
  ofArtifacts (texts.map fun (id, text) => Artifact.ofText id name text)

/-- The supply that fails once it has been asked so many times. -/
def failingAfter (supply : Supply) (calls : Nat) (failure : PipelineError) : Supply :=
  if calls ≤ supply.batches.length then
    { supply with
      batches := supply.batches.take calls
      last := []
      failure? := some failure
      withheld := (supply.batches.drop calls).flatten ++ supply.last ++ supply.withheld }
  else supply

/-- How many artifacts are left. -/
def remaining (supply : Supply) : Nat :=
  supply.batches.flatten.length + supply.last.length + supply.withheld.length

end Supply

/-- The text files below a directory, each of which makes an artifact of one document. A file that cannot
be read when its turn comes is passed over. -/
structure TextFiles where
  directory : RelativePath
  extension : String
  documentName : String
  charset : Charset := .utf8
  /-- How many files were found. -/
  total : Nat
  /-- The files still to be read, in order. -/
  queue : List RelativePath
  /-- The files that could not be read, the last one first. -/
  passedOver : List RelativePath := []

namespace TextFiles

/-- Whether the name of a file ends in `suffix`. -/
def endsIn (path : RelativePath) (suffix : String) : Bool :=
  suffix.toList.isSuffixOf (path.getLastD "").toList

/-- The source of the files that a walk has found. -/
def ofFound (directory : RelativePath) (extension documentName : String) (charset : Charset)
    (found : List RelativePath) : TextFiles where
  directory := directory
  extension := extension
  documentName := documentName
  charset := charset
  total := found.length
  queue := found

/-- The files of a directory whose names end in `extension`. -/
def find (files : Files) (directory extension documentName : String) :
    Except PipelineError TextFiles :=
  match (files.resolve? directory).bind fun path => (files.walk? path).map (path, ·) with
  | none => .error (.unwalkable directory)
  | some (path, found) => .ok (ofFound path extension documentName .utf8 (found.filter (endsIn · extension)))

/-- The files that settings name. The character set is looked at once the files are found. -/
def ofSettings (files : Files) (settings : Settings) : Except PipelineError TextFiles := do
  let directory ← settings.require "inputDirectory"
  let extension ← settings.require "extension"
  let documentName ← settings.require "documentName"
  let source ← find files directory extension documentName
  match settings.find? "charsetName" with
  | some name => return { source with charset := ← Charset.ofName name }
  | none => return source

/-- A text without a suffix, if it has it. -/
def withoutSuffix (suffix text : List Char) : List Char :=
  if suffix.isSuffixOf text then text.take (text.length - suffix.length) else text

/-- The identifier of the artifact of a file: its name without the extension, and without the point
before it. -/
def identifier (source : TextFiles) (path : RelativePath) : String :=
  let stem := withoutSuffix source.extension.toList (path.getLastD "").toList
  String.ofList (if source.extension.toList.head? = some '.' then stem else withoutSuffix ['.'] stem)

/-- The artifact of the file at a path. -/
def read (files : Files) (source : TextFiles) (path : RelativePath) : Except PipelineError Artifact :=
  match files.readAt path with
  | .error failure => .error (.unreadable (RelativePath.render (files.root :: path)) failure)
  | .ok bytes =>
    let artifact : Artifact := { id := source.identifier path, metadata := .empty, documents := .empty }
    match artifact.addDocument source.documentName (source.charset.decode bytes) with
    | .error e => .error (.duplicateDocument e)
    | .ok artifact =>
      let relative := (source.directory.below? path).getD path
      .ok (artifact.setMetadata "relativePath" (RelativePath.render relative))

/-- A call for the next file: it hands the artifact of the next file that can be read to a consumer, and tells
whether there was one. Any failure but that of a file that cannot be read ends the call. -/
def advance (files : Files) (consume : Artifact → σ → σ) (source : TextFiles) (state : σ) :
    Except PipelineError Bool × TextFiles × σ :=
  go source.queue source.passedOver
where
  go : List RelativePath → List RelativePath → Except PipelineError Bool × TextFiles × σ
    | [], passedOver => (.ok false, { source with queue := [], passedOver }, state)
    | path :: queue, passedOver =>
      match source.read files path with
      | .ok artifact => (.ok true, { source with queue, passedOver }, consume artifact state)
      | .error (.unreadable _ _) => go queue (path :: passedOver)
      | .error failure => (.error failure, { source with queue, passedOver }, state)

/-- What comes of calls one after the other, at most `most` of them, until one finds no file or fails. -/
def drainUpTo (files : Files) (consume : Artifact → σ → σ) :
    Nat → TextFiles → σ → Except PipelineError Bool × TextFiles × σ
  | 0, source, state => (.ok true, source, state)
  | most + 1, source, state =>
    match source.advance files consume state with
    | (.ok true, source, state) => drainUpTo files consume most source state
    | outcome => outcome

/-- The artifacts of all files that are left. A call takes at least one file. -/
def drain (files : Files) (source : TextFiles) : List Artifact × TextFiles :=
  let (_, source, artifacts) := drainUpTo files List.cons (source.queue.length + 1) source []
  (artifacts.reverse, source)

/-- The files that could not be read, in the order in which they were met. -/
def skipped (source : TextFiles) : List RelativePath := source.passedOver.reverse

end TextFiles

end TextAnnotation
