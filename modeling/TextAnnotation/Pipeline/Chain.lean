import TextAnnotation.Pipeline.Processor
import TextAnnotation.Pipeline.Report

/-!
Chains of processors. Each document of an artifact goes through the document processors, then the artifact
through the artifact processors, then each aggregator observes it; the first breakdown ends that.
-/

namespace TextAnnotation

/-- Gathers a value of type `σ` over all artifacts. -/
structure Aggregator (σ : Type) where
  /-- Takes in an artifact, or breaks off. -/
  observe : Artifact → σ → Except Breakdown Unit × σ
  /-- Concludes after the last artifact. -/
  conclude : σ → Except ProcessError Unit × σ

/-- A chain of processors. -/
structure Pipeline (σ : Type) where
  documentProcessors : List DocumentProcessor := []
  artifactProcessors : List ArtifactProcessor := []
  aggregators : List (Aggregator σ) := []

/-- What a run changes: the signal, what the aggregators have gathered, and whether they were asked to
conclude. -/
structure PipelineState (σ : Type) where
  signal : StopSignal := {}
  /-- After how many more looks at the signal somebody outside the run sets it, if anybody does. -/
  request? : Option Nat := none
  gathered : List σ
  concluded : Bool := false

/-- The state once the run has looked at the signal. -/
def PipelineState.look (state : PipelineState σ) : PipelineState σ :=
  match state.request? with
  | none => state
  | some 0 => { state with signal := { isStopped := true }, request? := none }
  | some (looks + 1) => { state with request? := some looks }

namespace Pipeline

variable {σ : Type}

/-- A document after all document processors. -/
def processDocument (pipeline : Pipeline σ) (document : Document) : Task Breakdown Document :=
  pipeline.documentProcessors.foldlM (fun document processor => processor document) document

/-- An artifact after the document processors on each of its documents, in the order of their names. -/
def processDocuments (pipeline : Pipeline σ) (artifact : Artifact) : Task ArtifactBreakdown Artifact := do
  let documents ← artifact.documents.mapValuesM fun document =>
    (pipeline.processDocument document).adapt (.mk artifact.id)
  return { artifact with documents }

/-- An artifact after all processors. -/
def prepare (pipeline : Pipeline σ) (artifact : Artifact) : Task ArtifactBreakdown Artifact := do
  let artifact ← pipeline.processDocuments artifact
  pipeline.artifactProcessors.foldlM (fun artifact processor => processor artifact) artifact

/-- Calls aggregators one after the other with what each has gathered, up to the first call that fails. -/
def callEach {ε : Type} (call : Aggregator σ → σ → Except ε Unit × σ) :
    List (Aggregator σ) → List σ → Except ε Unit × List σ
  | aggregator :: aggregators, gathered :: rest =>
    match call aggregator gathered with
    | (.ok (), gathered) =>
      let (result, rest) := callEach call aggregators rest
      (result, gathered :: rest)
    | (.error e, gathered) => (.error e, gathered :: rest)
  | _, gathered => (.ok (), gathered)

/-- The whole chain on an artifact. -/
def process (pipeline : Pipeline σ) (artifact : Artifact) (state : PipelineState σ) :
    Except ArtifactBreakdown Unit × PipelineState σ :=
  match (pipeline.prepare artifact).run.run state.signal with
  | (.error breakdown, signal) => (.error breakdown, { state with signal })
  | (.ok artifact, signal) =>
    let (result, gathered) := callEach (·.observe artifact) pipeline.aggregators state.gathered
    (result.mapError (.mk artifact.id), { state with signal, gathered })

/-- The whole chain on an artifact; a breakdown becomes a failure of the artifact that it leaves. -/
def attempt (pipeline : Pipeline σ) (artifact : Artifact) (state : PipelineState σ) :
    Option ArtifactFailure × PipelineState σ :=
  match pipeline.process artifact state with
  | (.ok (), state) => (none, state)
  | (.error left, state) => (some { artifactId := left.artifactId, message := left.breakdown.message }, state)

/-- Lets the aggregators conclude, up to the first that fails, if that was not done before. -/
def done (pipeline : Pipeline σ) (state : PipelineState σ) : Except ProcessError Unit × PipelineState σ :=
  if state.concluded then (.ok (), state)
  else
    let (result, gathered) := callEach (·.conclude) pipeline.aggregators state.gathered
    (result, { state with gathered, concluded := true })

/-- The chain as a record of its sizes. -/
def describe (pipeline : Pipeline σ) : String :=
  Text.Description.record "Pipeline" [
    ("document_processors", toString pipeline.documentProcessors.length),
    ("artifact_processors", toString pipeline.artifactProcessors.length),
    ("aggregators", toString pipeline.aggregators.length)]

end Pipeline

/-- What a collector has gathered. -/
structure Collection where
  seen : List Artifact := []
  /-- How often the collector was asked to conclude. -/
  conclusions : Nat := 0
  /-- How many artifacts it had seen when it was asked last. -/
  seenAtConclusion : Nat := 0

/-- The aggregator that keeps the artifacts it observes. It can refuse the artifact of an identifier, and
fail to conclude. -/
def Aggregator.collector (refused? failure? : Option String) : Aggregator Collection where
  observe artifact collection :=
    if refused? = some artifact.id then
      (.error (.failure (.failed "collector" artifact.id)), collection)
    else (.ok (), { collection with seen := collection.seen ++ [artifact] })
  conclude collection :=
    let concluded :=
      { collection with
        conclusions := collection.conclusions + 1
        seenAtConclusion := collection.seen.length }
    match failure? with
    | some message => (.error (.failed "collector" message), concluded)
    | none => (.ok (), concluded)

end TextAnnotation
