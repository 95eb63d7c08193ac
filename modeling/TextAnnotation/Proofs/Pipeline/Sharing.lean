import TextAnnotation.Proofs.Pipeline.Turns

/-!
Workers that share a supply of single artifacts. What has come of an artifact that was processed is with one worker or in
the report, and nobody sees the end before the supply has nothing left. So when all workers are finished the report is
that of a run by one, up to the order of the failures.
-/

namespace TextAnnotation

namespace Worker

/-- What a worker is about to record. -/
def outcomes : Worker → List (Option ArtifactFailure)
  | record outcome => [outcome]
  | _ => []

/-- Whether a worker has seen the end of the supply, or was told of it. -/
def SeesEnd : Worker → Prop
  | announce _ | finished => True
  | _ => False

end Worker

/-- Whether nobody has asked to stop, and nobody outside is going to. -/
structure PipelineState.Unstopped {σ : Type} (state : PipelineState σ) : Prop where
  signal : state.signal.isStopped = false
  request : state.request? = none

/-- Whether a task does not ask to stop. -/
def Task.NeverStops {ε α : Type} (task : Task ε α) : Prop :=
  ∀ signal, signal.isStopped = false → (task.run.run signal).2.isStopped = false

namespace Pipeline

variable {σ : Type} {pipeline : Pipeline σ} {state : PipelineState σ}

/-- Whether a chain does not ask to stop. -/
def NeverStops (pipeline : Pipeline σ) : Prop :=
  ∀ artifact (state : PipelineState σ), state.signal.isStopped = false →
    (pipeline.attempt artifact state).2.signal.isStopped = false

theorem look_eq (h : state.Unstopped) : state.look = state := by
  rw [PipelineState.look, h.request]

theorem unstopped_attempt (hnever : pipeline.NeverStops) (artifact : Artifact) (h : state.Unstopped) :
    (pipeline.attempt artifact state).2.Unstopped := by
  obtain ⟨signal, gathered, hafter, -⟩ := attempt_frame pipeline artifact state
  refine ⟨hnever artifact state h.signal, ?_⟩
  rw [hafter]
  exact h.request

theorem unstopped_afterAll (hnever : pipeline.NeverStops) (artifacts : List Artifact) (h : state.Unstopped) :
    (pipeline.afterAll artifacts state).Unstopped := by
  induction artifacts generalizing state with
  | nil => exact h
  | cons artifact artifacts ih => exact ih (unstopped_attempt hnever artifact h)

namespace Turns

variable {shared shared' : Shared σ} {worker new : Worker}

theorem reached (h : pipeline.Turns shared worker shared' new) (hunstopped : shared.state.Unstopped) :
    shared'.state = pipeline.afterAll worker.artifacts shared.state ∧ shared'.cancelled = shared.cancelled := by
  cases h with
  | stops hstopped =>
    rw [look_eq hunstopped, hunstopped.signal] at hstopped
    cases hstopped
  | proceeds => exact ⟨look_eq hunstopped, rfl⟩
  | _ => exact ⟨rfl, rfl⟩

theorem outcomes_eq {size : Nat} {outcome : Artifact → Option ArtifactFailure}
    (h : pipeline.Turns shared worker shared' new) (hdetermines : pipeline.Determines size outcome)
    (hsize : shared.state.gathered.length = size) : new.outcomes = worker.artifacts.map outcome := by
  cases h with
  | processes artifact => exact congrArg (fun outcome => [outcome]) (hdetermines artifact shared.state hsize)
  | _ => rfl

theorem report_eq (h : pipeline.Turns shared worker shared' new) :
    shared'.report = shared.report.recordAll worker.outcomes := by
  cases h <;> rfl

theorem supply_eq {estimate? : Option Nat} (h : pipeline.Turns shared worker shared' new)
    (hsupply : shared.supply = { batches := shared.supply.batches, estimate? }) :
    shared'.supply = { batches := shared'.supply.batches, estimate? } := by
  cases h with
  | @takes _ rest | @takesNothing _ rest => exact congrArg (fun supply => { supply with batches := rest }) hsupply
  | ends => exact congrArg (fun supply => { supply with last := [] }) hsupply
  | _ => exact hsupply

/-- Nobody sees the end before there is nothing left. -/
theorem sees_end (h : pipeline.Turns shared worker shared' new) (hunstopped : shared.state.Unstopped)
    (hend : shared'.exhausted = true ∨ new.SeesEnd) :
    shared.exhausted = true ∨ worker.SeesEnd ∨ shared.supply.batches = [] := by
  cases h with
  | leaves hexhausted => exact .inl hexhausted
  | stops hstopped =>
    rw [look_eq hunstopped, hunstopped.signal] at hstopped
    cases hstopped
  | ends hbatches => exact .inr (.inr hbatches)
  | announces => exact .inr (.inl trivial)
  | rests => exact .inr (.inl trivial)
  | _ => exact .inl (hend.resolve_right id)

end Turns

/-- What has come of the artifacts of a supply after some turns: it is with the workers or in the report. -/
structure Tallied (pipeline : Pipeline σ) (state : PipelineState σ) (estimate? : Option Nat)
    (outcome : Artifact → Option ArtifactFailure) (taken : List Worker) (shared : Shared σ) (workers : List Worker) :
    Prop where
  supply : shared.supply = { batches := shared.supply.batches, estimate? }
  recorded : (taken.flatMap Worker.outcomes ++ workers.flatMap Worker.outcomes).Perm
    ((taken.flatMap Worker.artifacts).map outcome)
  report : shared.report = RunReport.recordAll { estimatedTotal? := estimate? } (taken.flatMap Worker.outcomes)
  reached : shared.state = pipeline.afterAll (taken.flatMap Worker.artifacts) state
  ended : (shared.exhausted = true ∨ ∃ worker ∈ workers, worker.SeesEnd) → shared.supply.batches = []
  uncancelled : shared.cancelled = false

namespace Tallied

variable {estimate? : Option Nat} {outcome : Artifact → Option ArtifactFailure} {taken : List Worker}
  {shared shared' : Shared σ} {workers workers' : List Worker}

theorem opened (pipeline : Pipeline σ) (state : PipelineState σ) (batches : List (List Artifact))
    (estimate? : Option Nat) (outcome : Artifact → Option ArtifactFailure) (workers : Nat) :
    let workshop := openWorkshop { batches, estimate? } state workers
    Tallied pipeline state estimate? outcome [] workshop.shared workshop.workers := by
  intro workshop
  have hidle : ∀ worker ∈ workshop.workers, worker = .lookAtSupply := fun worker => List.eq_of_mem_replicate
  have houtcomes : workshop.workers.flatMap Worker.outcomes = [] :=
    List.flatMap_eq_nil_iff.2 fun worker hmem => hidle worker hmem ▸ rfl
  refine ⟨rfl, ?_, rfl, rfl, ?_, rfl⟩
  · rw [houtcomes]
    exact .refl _
  · rintro (hexhausted | ⟨worker, hmem, hsees⟩)
    · cases hexhausted
    · rw [hidle worker hmem] at hsees
      exact hsees.elim

theorem perm (h : Tallied pipeline state estimate? outcome taken shared workers) (hperm : workers.Perm workers') :
    Tallied pipeline state estimate? outcome taken shared workers' where
  supply := h.supply
  recorded := ((hperm.flatMap_right _).append_left _).symm.trans h.recorded
  report := h.report
  reached := h.reached
  ended hend := h.ended (hend.imp_right fun ⟨worker, hmem, hsees⟩ => ⟨worker, hperm.mem_iff.2 hmem, hsees⟩)
  uncancelled := h.uncancelled

section
variable (hdetermines : pipeline.Determines state.gathered.length outcome) (hnever : pipeline.NeverStops)
  (hunstopped : state.Unstopped)
include hdetermines hnever hunstopped

theorem turn {worker new : Worker} (h : Tallied pipeline state estimate? outcome taken shared (worker :: workers))
    (hturn : pipeline.Turns shared worker shared' new) :
    Tallied pipeline state estimate? outcome (taken ++ [worker]) shared' (new :: workers) := by
  have hgoing : shared.state.Unstopped := h.reached ▸ unstopped_afterAll hnever _ hunstopped
  have hsize : shared.state.gathered.length = state.gathered.length :=
    h.reached ▸ (Goes.afterAll pipeline _ state).length
  obtain ⟨hstate, hcancelled⟩ := hturn.reached hgoing
  refine ⟨hturn.supply_eq h.supply, ?_, ?_, ?_, ?_, hcancelled.trans h.uncancelled⟩
  · have hcounted := h.recorded
    have hswapped := (List.perm_append_comm_assoc worker.outcomes new.outcomes
      (workers.flatMap Worker.outcomes)).append_left (taken.flatMap Worker.outcomes)
    have hfront := List.perm_append_comm_assoc (taken.flatMap Worker.outcomes) new.outcomes
      (worker.outcomes ++ workers.flatMap Worker.outcomes)
    simp only [List.flatMap_append, List.flatMap_cons, List.flatMap_nil, List.append_nil, List.append_assoc,
      List.map_append, ← hturn.outcomes_eq hdetermines hsize] at hcounted ⊢
    exact (hswapped.trans hfront).trans ((hcounted.append_left _).trans List.perm_append_comm)
  · rw [hturn.report_eq, h.report, List.flatMap_append, RunReport.recordAll_append, List.flatMap_singleton]
  · rw [hstate, h.reached, List.flatMap_append, List.flatMap_singleton, afterAll, afterAll, afterAll, List.foldl_append]
  · have hrest (hempty : shared.supply.batches = []) : shared'.supply.batches = [] :=
      List.suffix_nil.1 (hempty ▸ hturn.batches)
    have hown (hend : shared'.exhausted = true ∨ new.SeesEnd) : shared'.supply.batches = [] := by
      rcases hturn.sees_end hgoing hend with hexhausted | hworker | hempty
      · exact hrest (h.ended (.inl hexhausted))
      · exact hrest (h.ended (.inr ⟨worker, List.mem_cons_self, hworker⟩))
      · exact hrest hempty
    rintro (hexhausted | ⟨other, hmem, hother⟩)
    · exact hown (.inl hexhausted)
    · rcases List.mem_cons.1 hmem with rfl | hmem
      · exact hown (.inr hother)
      · exact hrest (h.ended (.inr ⟨other, List.mem_cons_of_mem _ hmem, hother⟩))

theorem follow (batches : List (List Artifact)) (estimate? : Option Nat) (workers : Nat) (schedule : List Nat) :
    let opened := openWorkshop { batches, estimate? } state workers
    Tallied pipeline state estimate? outcome (pipeline.turnsTaken opened schedule)
      (pipeline.follow opened schedule).shared (pipeline.follow opened schedule).workers := by
  intro opened
  let Holds (taken : List Worker) (workshop : Workshop σ) : Prop :=
    Tallied pipeline state estimate? outcome taken workshop.shared workshop.workers
  have hopened : Holds [] opened := .opened pipeline state batches estimate? outcome workers
  refine follow_induct Holds ?_ hopened schedule
  intro taken workshop number worker new shared h hworker hturn
  obtain ⟨others, hbefore, hafter⟩ := perm_set hworker new
  exact ((h.perm hbefore).turn hdetermines hnever hunstopped hturn).perm hafter.symm

end

/-- When all workers are finished, nothing is left with the supply, and all outcomes are in the report. -/
theorem finished (h : Tallied pipeline state estimate? outcome taken shared workers) (hworkers : workers ≠ [])
    (hfinished : ∀ worker ∈ workers, worker = .finished) :
    shared.supply.batches = [] ∧ (taken.flatMap Worker.outcomes).Perm ((taken.flatMap Worker.artifacts).map outcome) := by
  obtain ⟨worker, hmem⟩ := List.exists_mem_of_ne_nil workers hworkers
  have houtcomes : workers.flatMap Worker.outcomes = [] :=
    List.flatMap_eq_nil_iff.2 fun worker hmem => hfinished worker hmem ▸ rfl
  have hrecorded := h.recorded
  rw [houtcomes, List.append_nil] at hrecorded
  exact ⟨h.ended (.inr ⟨worker, hmem, hfinished worker hmem ▸ trivial⟩), hrecorded⟩

end Tallied

end Pipeline

end TextAnnotation
