import TextAnnotation.Pipeline.Run

/-!
Running a pipeline by several workers. The workers take their artifacts from one supply and record into one
report; a schedule says whose turn it is. `runParallel` lets them take turns.
-/

namespace TextAnnotation

/-- What a worker does when its turn comes. -/
inductive Worker where
  /-- See whether the supply has ended. -/
  | lookAtSupply
  /-- See whether the run is to stop. -/
  | lookAtSignal
  | take
  /-- Tell the others that the supply has ended, and why. -/
  | announce (failure? : Option PipelineError)
  | process (artifact : Artifact)
  | record (outcome : Option ArtifactFailure)
  | finished
deriving Repr

/-- What the workers share. -/
structure Shared (σ : Type) where
  supply : Supply
  report : RunReport
  state : PipelineState σ
  /-- The first failure of the supply that was announced. -/
  failure? : Option PipelineError := none
  exhausted : Bool := false
  cancelled : Bool := false

/-- The workers with what they share. -/
structure Workshop (σ : Type) where
  shared : Shared σ
  workers : List Worker

namespace Pipeline

variable {σ : Type}

/-- One turn of a worker. Of the artifacts that a call hands out it keeps the last, and none of those that come
with the end. -/
def turn (pipeline : Pipeline σ) (shared : Shared σ) : Worker → Shared σ × Worker
  | .lookAtSupply => (shared, if shared.exhausted then .finished else .lookAtSignal)
  | .lookAtSignal =>
    let state := shared.state.look
    if state.signal.isStopped then ({ shared with state, cancelled := true }, .finished)
    else ({ shared with state }, .take)
  | .take =>
    match shared.supply.batches with
    | batch :: rest =>
      ({ shared with supply := { shared.supply with batches := rest } },
        match batch.getLast? with
        | some artifact => .process artifact
        | none => .lookAtSupply)
    | [] =>
      ({ shared with supply := { shared.supply with last := [] } }, .announce shared.supply.failure?)
  | .announce failure? =>
    ({ shared with exhausted := true, failure? := shared.failure?.or failure? }, .finished)
  | .process artifact =>
    let (outcome, state) := pipeline.attempt artifact shared.state
    ({ shared with state }, .record outcome)
  | .record outcome => ({ shared with report := shared.report.record outcome }, .lookAtSupply)
  | .finished => (shared, .finished)

/-- The turn of the worker of a number. -/
def step (pipeline : Pipeline σ) (workshop : Workshop σ) (number : Nat) : Workshop σ :=
  match workshop.workers[number]? with
  | none => workshop
  | some worker =>
    let (shared, worker) := pipeline.turn workshop.shared worker
    { shared, workers := workshop.workers.set number worker }

/-- The turns of a schedule. -/
def follow (pipeline : Pipeline σ) (workshop : Workshop σ) (schedule : List Nat) : Workshop σ :=
  schedule.foldl pipeline.step workshop

/-- The workshop before the first turn. There is at least one worker. -/
def openWorkshop (supply : Supply) (state : PipelineState σ) (workers : Nat) : Workshop σ where
  shared := { supply, state, report := { estimatedTotal? := supply.estimate? } }
  workers := List.replicate (max workers 1) .lookAtSupply

/-- How the run ends once all workers are finished. It counts as cancelled only if the supply had not
ended. -/
def closeWorkshop (pipeline : Pipeline σ) (shared : Shared σ) : RunEnd σ :=
  match shared.failure? with
  | some failure => { result := .error failure, state := shared.state, remaining := shared.supply.remaining }
  | none =>
    pipeline.finish { shared.report with cancelled := shared.cancelled && !shared.exhausted } shared.state
      shared.supply.remaining

/-- The schedule in which the workers take turns, so many turns each. -/
def takingTurns (workers turns : Nat) : List Nat :=
  (List.replicate turns (List.range workers)).flatten

/-- The run of a pipeline over a supply by workers that take turns. A batch takes a worker at most five turns,
and the end of the supply four. -/
def runParallel (pipeline : Pipeline σ) (supply : Supply) (state : PipelineState σ) (workers : Nat) :
    RunEnd σ :=
  let workshop := openWorkshop supply state workers
  let turns := 5 * (supply.batches.length + 1)
  pipeline.closeWorkshop
    (pipeline.follow workshop (takingTurns workshop.workers.length turns)).shared

end Pipeline

end TextAnnotation
