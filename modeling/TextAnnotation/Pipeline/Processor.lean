import TextAnnotation.Pattern.Searcher
import TextAnnotation.Pattern.Parser
import TextAnnotation.Pipeline.Artifact
import TextAnnotation.Pipeline.Settings
import TextAnnotation.Text.LowerCase
import TextAnnotation.Token

/-!
Processors: the steps of a pipeline. Those on documents read and add the labels of the system view:
splitting a text into tokens, labelling the phrases of a dictionary, and labelling the matches of a
pattern.
-/

namespace TextAnnotation

/-- The request that no artifact be handed out any more. -/
structure StopSignal where
  isStopped : Bool := false
deriving DecidableEq, Repr

/-- What a processor does: it gives a result or breaks off, and may ask the run to stop. -/
abbrev Task (ε : Type) := ExceptT ε (StateM StopSignal)

/-- A step on one document. -/
abbrev DocumentProcessor := Document → Task Breakdown Document

/-- A step on an artifact with all its documents. It may leave another artifact, also where it breaks off. -/
abbrev ArtifactProcessor := Artifact → Task ArtifactBreakdown Artifact

/-- A step on the system view of a document. -/
def DocumentProcessor.onSystemView (change : View → Except Breakdown View) : DocumentProcessor :=
  fun document =>
    match change document.systemView with
    | .ok view => return document.putView view
    | .error breakdown => throw breakdown

namespace View

/-- The view with labels added, as a step of a pipeline. -/
def addAllOrFail (view : View) (kind : LabelKind) (labels : List Label) : Except Breakdown View :=
  (view.addAll kind labels).mapError fun e => .failure (.label e)

/-- Labels added in order, up to the first refusal, and the view as it stands then. -/
def addEach (view : View) (kind : LabelKind) (labels : List Label) : Except Breakdown Unit × View :=
  let (taken, labeler) := (view.labeler kind).addEach labels
  (if taken then .ok () else .error (.failure (.label (.finalized kind.name))), view.withLabeler kind labeler)

/-- The spans to search: those of the containers, which are frozen, or the whole view. -/
def searchRanges (view : View) (within? : Option LabelKind) : List Span × View :=
  match within? with
  | none => ([.ofText view.text], view)
  | some containers =>
    let (index, view) := view.freeze containers
    (index.ascending.map (·.span), view)

/-- The view with the tokens of its text. -/
def addTokens (view : View) : Except Breakdown View :=
  view.addAllOrFail Token.kind ((tokenize view.text).map Token.toLabel)

end View

/-- The step that splits texts into tokens. -/
def DocumentProcessor.tokenize : DocumentProcessor := .onSystemView View.addTokens

/-- Labels the phrases of a dictionary, if there are containers then inside each of them. -/
structure PhraseProcessor where
  detector : PhraseDetector String String
  kind : LabelKind
  /-- The label that is made for a phrase. -/
  make : Span → Label
  within? : Option LabelKind := none

namespace PhraseProcessor

/-- A processor for the phrases of the dictionary file that a setting names, case disregarded. -/
def ofSettings (files : Files) (settings : Settings) (key : String) (kind : LabelKind)
    (make : Span → Label) : Except PipelineError PhraseProcessor := do
  let path ← settings.require key
  let detector ← (PhraseDetector.load files path Text.equalIgnoringCase).mapError .dictionary
  return { detector, kind, make }

/-- The span from the first to the last of the tokens of a phrase. -/
def phraseSpan (tokens : Array Label) (phrase : Nat × Nat) : Except Breakdown Span :=
  match tokens[phrase.1]?, tokens[phrase.2]? with
  | some first, some last =>
    (Span.between first.span.start last.span.stop).mapError fun bounds => .crash (some bounds.message)
  | _, _ => .error (.crash none)

/-- The spans of the phrases among the tokens inside a range. -/
def phraseSpans (processor : PhraseProcessor) (tokens : LabelIndex Label) (range : Span) :
    Except Breakdown (List Span) :=
  let inside := tokens.insideSpan range
  (processor.detector.detectAll (inside.map Label.text)).mapM (phraseSpan inside.toArray)

/-- Adds a label for every phrase. The view is given as the processor leaves it, also where it breaks off. -/
def process (processor : PhraseProcessor) (view : View) : Except Breakdown Unit × View :=
  let (tokens, view) := view.freeze Token.kind
  let (ranges, view) := view.searchRanges processor.within?
  match ranges.mapM (processor.phraseSpans tokens) with
  | .ok spans => view.addEach processor.kind (spans.flatten.map processor.make)
  | .error breakdown => (.error breakdown, view)

/-- The view with a label for every phrase. -/
def label (processor : PhraseProcessor) (view : View) : Except Breakdown View :=
  let (result, view) := processor.process view
  result.map fun _ => view

def toDocumentProcessor (processor : PhraseProcessor) : DocumentProcessor := .onSystemView processor.label

def describe (processor : PhraseProcessor) : String :=
  Text.Description.record "PhraseProcessor" [
    ("phrases", toString processor.detector.phraseCount),
    ("label", Text.quoted processor.kind.name)]

end PhraseProcessor

/-- Labels the matches of a pattern, if there are containers then inside each of them. -/
structure PatternProcessor where
  pattern : Pattern
  kind : LabelKind
  /-- The label that is made for a match, if one is. -/
  make : Pattern.Searcher → Option Label
  within? : Option LabelKind := none

namespace PatternProcessor

/-- A processor for the pattern that a setting holds. -/
def ofSettings (aliases : Pattern.AliasTable) (settings : Settings) (key : String) (kind : LabelKind)
    (make : Pattern.Searcher → Option Label) : Except PipelineError PatternProcessor := do
  let source ← settings.require key
  let pattern ← (Pattern.parse aliases source).mapError .pattern
  return { pattern, kind, make }

/-- A match that is in no foreseen state. -/
def crash : Pattern.MatchFault → Breakdown
  | .inverted bounds => .crash (some bounds.message)
  | .endless | .offsetOverflow => .crash (some "attempt to add with overflow")
  | _ => .crash none

/-- The labels made for the matches inside each range in turn. The kinds that the pattern refers to are
frozen. -/
def labelsIn (processor : PatternProcessor) (view : View) : List Span → Except Breakdown (List Label × View)
  | [] => .ok ([], view)
  | range :: rest => do
    let (searcher, view) := view.searcherIn processor.pattern range
    let made ← (searcher.drain processor.make).1.mapError crash
    let (labels, view) ← processor.labelsIn view rest
    return (made.filterMap id ++ labels, view)

/-- The view with a label for every match that is given one. -/
def label (processor : PatternProcessor) (view : View) : Except Breakdown View := do
  let (ranges, view) := view.searchRanges processor.within?
  let (labels, view) ← processor.labelsIn view ranges
  view.addAllOrFail processor.kind labels

def toDocumentProcessor (processor : PatternProcessor) : DocumentProcessor := .onSystemView processor.label

def describe (processor : PatternProcessor) : String :=
  Text.Description.record "ExpressionProcessor" [
    ("expr", Text.quoted processor.pattern.source),
    ("label", Text.quoted processor.kind.name)]

end PatternProcessor

end TextAnnotation
