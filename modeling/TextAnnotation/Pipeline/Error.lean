import TextAnnotation.Document
import TextAnnotation.Pattern.Lexeme
import TextAnnotation.Phrase.Dictionary

/-!
What can go wrong in a pipeline: with one artifact, which is recorded and passed over, or with the run as a
whole.
-/

namespace TextAnnotation

/-- The failure of a processor on one artifact. -/
inductive ProcessError where
  | label (e : LabelError)
  | document (e : DocumentError)
  | pattern (e : PatternError)
  | failed (processor message : String)
deriving DecidableEq, Repr

def ProcessError.message : ProcessError → String
  | .label e => e.message
  | .document e => e.message
  | .pattern e => e.message
  | .failed processor message => processor ++ ": " ++ message

/-- How a step breaks off. -/
inductive Breakdown where
  | failure (e : ProcessError)
  /-- A processor has stopped in a state that it does not foresee. -/
  | crash (message? : Option String)
deriving DecidableEq, Repr

def Breakdown.message : Breakdown → String
  | .failure e => e.message
  | .crash none => "panicked"
  | .crash (some message) => "panicked: " ++ message

/-- How the processing of an artifact breaks off, and under which identifier the artifact is left. -/
structure ArtifactBreakdown where
  artifactId : String
  breakdown : Breakdown
deriving DecidableEq, Repr

/-- A second document of one name in an artifact. -/
structure DuplicateDocument where
  artifact : String
  name : String
deriving DecidableEq, Repr

def DuplicateDocument.message (e : DuplicateDocument) : String :=
  "artifact " ++ Text.quoted e.artifact ++ " already has a document named " ++ Text.quoted e.name

/-- What ends a run, or keeps one of its parts from being built. -/
inductive PipelineError where
  | unreadable (path : String) (failure : ReadFailure)
  | unwalkable (path : String)
  | malformedSettings (path : String)
  | unsupportedCharset (name : String)
  | missingSetting (key : String)
  | duplicateDocument (e : DuplicateDocument)
  | dictionary (e : DictionaryError)
  | pattern (e : PatternError)
  /-- An aggregator could not conclude. -/
  | done (e : ProcessError)
deriving DecidableEq, Repr

def PipelineError.message : PipelineError → String
  | .unreadable path failure => "failed to read " ++ path ++ ": " ++ failure.message
  | .unwalkable path => "failed to walk " ++ path
  | .malformedSettings path => "failed to parse settings " ++ path
  | .unsupportedCharset name => "unsupported charset " ++ Text.quoted name
  | .missingSetting key => "missing setting " ++ Text.quoted key
  | .duplicateDocument e => e.message
  | .dictionary e => e.message
  | .pattern e => e.message
  | .done e => "done() failed: " ++ e.message

end TextAnnotation
