import TextAnnotation.Pipeline.Chain
import TextAnnotation.Pipeline.Supply

/-!
Running a pipeline on one artifact after the other. The signal is looked at before each call to the supply;
an artifact that fails is recorded and the run goes on.
-/

namespace TextAnnotation

/-- How a run has ended: its result, the state it has left, and what is left of the supply. -/
structure RunEnd (σ : Type) where
  result : Except PipelineError RunReport
  state : PipelineState σ
  remaining : Nat

namespace Pipeline

variable {σ : Type}

/-- The result of a run in which every artifact is processed: its report, if the aggregators can
conclude. -/
def finish (pipeline : Pipeline σ) (report : RunReport) (state : PipelineState σ) (remaining : Nat) :
    RunEnd σ :=
  match pipeline.done state with
  | (.ok (), state) => { result := .ok report, state, remaining }
  | (.error e, state) => { result := .error (.done e), state, remaining }

/-- Puts artifacts through the chain one after the other and records what comes of them. -/
def attemptAll (pipeline : Pipeline σ) :
    List Artifact → RunReport → PipelineState σ → RunReport × PipelineState σ
  | [], report, state => (report, state)
  | artifact :: rest, report, state =>
    let (outcome, state) := pipeline.attempt artifact state
    pipeline.attemptAll rest (report.record outcome) state

/-- The run over the batches that are left of a supply, given the report so far. -/
def runFrom (pipeline : Pipeline σ) (supply : Supply) :
    List (List Artifact) → RunReport → PipelineState σ → RunEnd σ
  | batches, report, state =>
    let state := state.look
    if state.signal.isStopped then
      pipeline.finish { report with cancelled := true } state { supply with batches }.remaining
    else
      match batches with
      | [] =>
        let (report, state) := pipeline.attemptAll supply.last report state
        match supply.failure? with
        | some failure => { result := .error failure, state, remaining := supply.withheld.length }
        | none => pipeline.finish report state supply.withheld.length
      | batch :: rest =>
        let (report, state) := pipeline.attemptAll batch report state
        pipeline.runFrom supply rest report state

/-- The run of a pipeline over a supply. If the supply fails, so does the run, and the aggregators do not
conclude. -/
def run (pipeline : Pipeline σ) (supply : Supply) (state : PipelineState σ) : RunEnd σ :=
  pipeline.runFrom supply supply.batches { estimatedTotal? := supply.estimate? } state

end Pipeline

end TextAnnotation
