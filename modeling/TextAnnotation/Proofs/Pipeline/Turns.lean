import Mathlib.Data.List.Nodup
import Mathlib.Data.List.Perm.Basic
import TextAnnotation.Pipeline.Parallel
import TextAnnotation.Proofs.Pipeline.Supplying

/-!
Workers that take turns, in whatever order. `Turns` lists what a worker can do in a turn; what each of these keeps, a
schedule of them keeps. So the state of the run goes on as in a stretch of a run by one; no artifact that a worker keeps
is lost or processed twice; a supply that does not fail is not said to fail; and a worker that has had turns enough for
all batches is finished.
-/

namespace TextAnnotation

namespace Worker

/-- The artifact that a worker is about to put through the chain. -/
def artifacts : Worker → List Artifact
  | process artifact => [artifact]
  | _ => []

/-- The failure that a worker is about to announce. -/
def announced? : Worker → Option PipelineError
  | announce failure? => failure?
  | _ => none

/-- How many turns a worker takes until it is finished, if no batch is left. -/
def turnsLeft : Worker → Nat
  | process _ => 6
  | record _ => 5
  | lookAtSupply => 4
  | lookAtSignal => 3
  | take => 2
  | announce _ => 1
  | finished => 0

end Worker

/-- The artifacts that are to be processed yet: those that workers have, and those that they keep of the batches left. -/
def Workshop.awaiting {σ : Type} (workshop : Workshop σ) : List Artifact :=
  workshop.workers.flatMap Worker.artifacts ++ workshop.shared.supply.batches.filterMap List.getLast?

/-- Whether nothing in a workshop speaks of a failure of the supply. -/
structure Workshop.Unfailing {σ : Type} (workshop : Workshop σ) : Prop where
  supply : workshop.shared.supply.failure? = none
  shared : workshop.shared.failure? = none
  workers : ∀ worker ∈ workshop.workers, worker.announced? = none

namespace Pipeline

variable {σ : Type}

/-- What a worker can do in its turn: from what the workers share and what it is about to do, to the same after it. -/
inductive Turns (pipeline : Pipeline σ) : Shared σ → Worker → Shared σ → Worker → Prop where
  | leaves {shared : Shared σ} (h : shared.exhausted = true) : Turns pipeline shared .lookAtSupply shared .finished
  | stays {shared : Shared σ} (h : shared.exhausted = false) : Turns pipeline shared .lookAtSupply shared .lookAtSignal
  | stops {shared : Shared σ} (h : shared.state.look.signal.isStopped = true) :
      Turns pipeline shared .lookAtSignal { shared with state := shared.state.look, cancelled := true } .finished
  | proceeds {shared : Shared σ} (h : shared.state.look.signal.isStopped = false) :
      Turns pipeline shared .lookAtSignal { shared with state := shared.state.look } .take
  | takes {shared : Shared σ} {batch : List Artifact} {rest : List (List Artifact)} {artifact : Artifact}
      (hbatches : shared.supply.batches = batch :: rest) (hlast : batch.getLast? = some artifact) :
      Turns pipeline shared .take { shared with supply := { shared.supply with batches := rest } } (.process artifact)
  | takesNothing {shared : Shared σ} {batch : List Artifact} {rest : List (List Artifact)}
      (hbatches : shared.supply.batches = batch :: rest) (hlast : batch.getLast? = none) :
      Turns pipeline shared .take { shared with supply := { shared.supply with batches := rest } } .lookAtSupply
  | ends {shared : Shared σ} (hbatches : shared.supply.batches = []) :
      Turns pipeline shared .take { shared with supply := { shared.supply with last := [] } }
        (.announce shared.supply.failure?)
  | announces {shared : Shared σ} (failure? : Option PipelineError) :
      Turns pipeline shared (.announce failure?)
        { shared with exhausted := true, failure? := shared.failure?.or failure? } .finished
  | processes {shared : Shared σ} (artifact : Artifact) :
      Turns pipeline shared (.process artifact) { shared with state := (pipeline.attempt artifact shared.state).2 }
        (.record (pipeline.attempt artifact shared.state).1)
  | records {shared : Shared σ} (outcome : Option ArtifactFailure) :
      Turns pipeline shared (.record outcome) { shared with report := shared.report.record outcome } .lookAtSupply
  | rests {shared : Shared σ} : Turns pipeline shared .finished shared .finished

variable {pipeline : Pipeline σ} {workshop : Workshop σ} {number : Nat} {worker : Worker}

theorem turns (pipeline : Pipeline σ) (shared : Shared σ) (worker : Worker) :
    pipeline.Turns shared worker (pipeline.turn shared worker).1 (pipeline.turn shared worker).2 := by
  cases worker with
  | lookAtSupply =>
    rw [turn]
    cases hexhausted : shared.exhausted with
    | true => exact .leaves hexhausted
    | false => exact .stays hexhausted
  | lookAtSignal =>
    cases hstopped : shared.state.look.signal.isStopped with
    | true =>
      rw [turn, if_pos hstopped]
      exact .stops hstopped
    | false =>
      rw [turn, if_neg (Bool.eq_false_iff.1 hstopped)]
      exact .proceeds hstopped
  | take =>
    rw [turn]
    split
    · rename_i batch rest hbatches
      cases hlast : batch.getLast? with
      | none => exact .takesNothing hbatches hlast
      | some artifact => exact .takes hbatches hlast
    · rename_i hbatches
      exact .ends hbatches
  | announce failure? => exact .announces failure?
  | process artifact => exact .processes artifact
  | record outcome => exact .records outcome
  | finished => exact .rests

namespace Turns

variable {shared shared' : Shared σ} {new : Worker}

theorem goes (h : pipeline.Turns shared worker shared' new) : pipeline.Goes shared.state shared'.state := by
  cases h with
  | stops | proceeds => exact .look pipeline _
  | processes artifact => exact .attempt pipeline artifact _
  | _ => exact .refl pipeline _

theorem batches (h : pipeline.Turns shared worker shared' new) :
    shared'.supply.batches <:+ shared.supply.batches := by
  cases h with
  | takes hbatches | takesNothing hbatches =>
    rw [hbatches]
    exact List.suffix_cons _ _
  | _ => exact List.suffix_rfl

theorem awaiting (h : pipeline.Turns shared worker shared' new) :
    new.artifacts ++ shared'.supply.batches.filterMap List.getLast? =
      shared.supply.batches.filterMap List.getLast? := by
  cases h with
  | takes hbatches hlast =>
    rw [hbatches, List.filterMap_cons_some hlast]
    rfl
  | takesNothing hbatches hlast =>
    rw [hbatches, List.filterMap_cons_none hlast]
    rfl
  | _ => rfl

theorem unfailing (h : pipeline.Turns shared worker shared' new) (hsupply : shared.supply.failure? = none)
    (hshared : shared.failure? = none) (hworker : worker.announced? = none) :
    shared'.supply.failure? = none ∧ shared'.failure? = none ∧ new.announced? = none := by
  cases h with
  | ends => exact ⟨hsupply, hshared, hsupply⟩
  | announces failure? =>
    obtain rfl : failure? = none := hworker
    exact ⟨hsupply, congrArg (Option.or · none) hshared, rfl⟩
  | _ => exact ⟨hsupply, hshared, rfl⟩

/-- A turn of a worker that is not finished brings its end nearer: that it goes on takes a batch. -/
theorem turnsLeft_lt (h : pipeline.Turns shared worker shared' new) (hgoing : worker ≠ .finished) :
    5 * shared'.supply.batches.length + new.turnsLeft < 5 * shared.supply.batches.length + worker.turnsLeft := by
  cases h with
  | takes hbatches | takesNothing hbatches =>
    rw [hbatches, List.length_cons]
    simp only [Worker.turnsLeft]
    omega
  | rests => exact absurd rfl hgoing
  | _ => simp [Worker.turnsLeft]

end Turns

theorem step_of_none (h : workshop.workers[number]? = none) : pipeline.step workshop number = workshop := by
  rw [step, h]

theorem step_of_some (pipeline : Pipeline σ) (h : workshop.workers[number]? = some worker) :
    ∃ shared new, pipeline.Turns workshop.shared worker shared new ∧
      pipeline.step workshop number = { shared, workers := workshop.workers.set number new } :=
  ⟨_, _, pipeline.turns workshop.shared worker, by rw [step, h]⟩

theorem follow_cons (pipeline : Pipeline σ) (workshop : Workshop σ) (number : Nat) (schedule : List Nat) :
    pipeline.follow workshop (number :: schedule) = pipeline.follow (pipeline.step workshop number) schedule := rfl

/-- The turns that a schedule comes to, each as what the worker then does. -/
def turnsTaken (pipeline : Pipeline σ) : Workshop σ → List Nat → List Worker
  | _, [] => []
  | workshop, number :: schedule =>
    workshop.workers[number]?.toList ++ pipeline.turnsTaken (pipeline.step workshop number) schedule

/-- What holds of the turns so far and of the workshop, and is kept by one turn more, is kept by a schedule. -/
theorem follow_induct (Holds : List Worker → Workshop σ → Prop)
    (hturn : ∀ {taken : List Worker} {workshop : Workshop σ} {number : Nat} {worker new : Worker} {shared : Shared σ},
      Holds taken workshop → workshop.workers[number]? = some worker →
      pipeline.Turns workshop.shared worker shared new →
      Holds (taken ++ [worker]) { shared, workers := workshop.workers.set number new })
    {taken : List Worker} (h : Holds taken workshop) (schedule : List Nat) :
    Holds (taken ++ pipeline.turnsTaken workshop schedule) (pipeline.follow workshop schedule) := by
  induction schedule generalizing taken workshop with
  | nil =>
    rw [turnsTaken, List.append_nil]
    exact h
  | cons number schedule ih =>
    rw [turnsTaken, follow_cons, ← List.append_assoc]
    cases hworker : workshop.workers[number]? with
    | none =>
      rw [step_of_none hworker, Option.toList_none, List.append_nil]
      exact ih h
    | some worker =>
      obtain ⟨shared, new, hnew, hstep⟩ := step_of_some pipeline hworker
      rw [hstep]
      exact ih (hturn h hworker hnew)

theorem follow_keeps (Holds : Workshop σ → Prop)
    (hturn : ∀ {workshop : Workshop σ} {number : Nat} {worker new : Worker} {shared : Shared σ}, Holds workshop →
      workshop.workers[number]? = some worker → pipeline.Turns workshop.shared worker shared new →
      Holds { shared, workers := workshop.workers.set number new })
    (h : Holds workshop) (schedule : List Nat) : Holds (pipeline.follow workshop schedule) :=
  @follow_induct σ pipeline workshop (fun _ workshop => Holds workshop) hturn [] h schedule

theorem goes_follow (pipeline : Pipeline σ) (workshop : Workshop σ) (schedule : List Nat) :
    pipeline.Goes workshop.shared.state (pipeline.follow workshop schedule).shared.state :=
  follow_keeps (fun later => pipeline.Goes workshop.shared.state later.shared.state)
    (fun hgoes _ hturn => hgoes.trans hturn.goes) (.refl pipeline _) schedule

theorem unfailing_open (supply : Supply) (state : PipelineState σ) (workers : Nat) (h : supply.failure? = none) :
    (openWorkshop supply state workers).Unfailing where
  supply := h
  shared := rfl
  workers worker hmem := by
    rw [List.eq_of_mem_replicate hmem]
    rfl

theorem unfailing_follow (h : workshop.Unfailing) (schedule : List Nat) :
    (pipeline.follow workshop schedule).Unfailing := by
  refine follow_keeps Workshop.Unfailing ?_ h schedule
  intro workshop number worker new shared h hworker hturn
  obtain ⟨hsupply, hshared, hnew⟩ :=
    hturn.unfailing h.supply h.shared (h.workers worker (List.mem_of_getElem? hworker))
  refine ⟨hsupply, hshared, fun other hmem => ?_⟩
  rcases List.mem_or_eq_of_mem_set hmem with hmem | rfl
  · exact h.workers other hmem
  · exact hnew

section Awaiting

theorem perm_set {workers : List Worker} (h : workers[number]? = some worker) (new : Worker) :
    ∃ others, workers.Perm (worker :: others) ∧ (workers.set number new).Perm (new :: others) := by
  obtain ⟨hlt, rfl⟩ := List.getElem?_eq_some_iff.1 h
  exact ⟨_, (List.getElem_cons_eraseIdx_perm hlt).symm, List.set_perm_cons_eraseIdx hlt new⟩

/-- What workers have processed and what is to be processed yet make up what there was to process. -/
theorem awaiting_follow (pipeline : Pipeline σ) (workshop : Workshop σ) (schedule : List Nat) :
    ((pipeline.turnsTaken workshop schedule).flatMap Worker.artifacts ++
      (pipeline.follow workshop schedule).awaiting).Perm workshop.awaiting := by
  let Holds (taken : List Worker) (later : Workshop σ) : Prop :=
    (taken.flatMap Worker.artifacts ++ later.awaiting).Perm workshop.awaiting
  have hopen : Holds [] workshop := .refl _
  refine follow_induct Holds ?_ hopen schedule
  intro taken later number worker new shared h hworker hturn
  obtain ⟨others, hbefore, hafter⟩ := perm_set hworker new
  have hmoved : (worker.artifacts ++ Workshop.awaiting { shared, workers := later.workers.set number new }).Perm
      later.awaiting := by
    have hothers := (hafter.flatMap_right Worker.artifacts).append_right
      (shared.supply.batches.filterMap List.getLast?)
    have hturned := (hbefore.flatMap_right Worker.artifacts).append_right
      (new.artifacts ++ shared.supply.batches.filterMap List.getLast?)
    rw [List.flatMap_cons, List.append_assoc] at hothers hturned
    rw [Workshop.awaiting, Workshop.awaiting, ← hturn.awaiting]
    exact ((hothers.trans (List.perm_append_comm_assoc _ _ _)).append_left _).trans hturned.symm
  change ((taken ++ [worker]).flatMap Worker.artifacts ++ _).Perm _
  rw [List.flatMap_append, List.flatMap_singleton, List.append_assoc]
  exact (hmoved.append_left _).trans h

theorem batches_follow (pipeline : Pipeline σ) (workshop : Workshop σ) (schedule : List Nat) :
    (pipeline.follow workshop schedule).shared.supply.batches <:+ workshop.shared.supply.batches :=
  follow_keeps (fun later => later.shared.supply.batches <:+ workshop.shared.supply.batches)
    (fun hsuffix _ hturn => hturn.batches.trans hsuffix) List.suffix_rfl schedule

/-- Once all workers are finished they have processed what they kept of the batches that were handed out, and each of
these artifacts once. -/
theorem processed_of_finished (supply : Supply) (state : PipelineState σ) (workers : Nat) (schedule : List Nat)
    (h : ∀ worker ∈ (pipeline.follow (openWorkshop supply state workers) schedule).workers, worker = .finished) :
    ∃ handedOut,
      supply.batches = handedOut ++
        (pipeline.follow (openWorkshop supply state workers) schedule).shared.supply.batches ∧
      ((pipeline.turnsTaken (openWorkshop supply state workers) schedule).flatMap Worker.artifacts).Perm
        (handedOut.filterMap List.getLast?) := by
  obtain ⟨handedOut, hbatches⟩ := batches_follow pipeline (openWorkshop supply state workers) schedule
  have hperm := awaiting_follow pipeline (openWorkshop supply state workers) schedule
  have hidle : (openWorkshop supply state workers).workers.flatMap Worker.artifacts = [] :=
    List.flatMap_eq_nil_iff.2 fun worker hmem => List.eq_of_mem_replicate hmem ▸ rfl
  have hfinished : (pipeline.follow (openWorkshop supply state workers) schedule).workers.flatMap Worker.artifacts = [] :=
    List.flatMap_eq_nil_iff.2 fun worker hmem => h worker hmem ▸ rfl
  rw [Workshop.awaiting, Workshop.awaiting, hidle, hfinished, ← hbatches, List.filterMap_append, List.nil_append,
    List.nil_append] at hperm
  exact ⟨handedOut, hbatches.symm, (List.perm_append_right_iff _).1 hperm⟩

end Awaiting

section Finishing

theorem finished_stays (h : workshop.workers[number]? = some .finished) (schedule : List Nat) :
    (pipeline.follow workshop schedule).workers[number]? = some .finished := by
  refine follow_keeps (fun workshop => workshop.workers[number]? = some .finished) ?_ h schedule
  intro workshop turned worker new shared h hworker hturn
  rcases Nat.decEq turned number with hne | rfl
  · exact (List.getElem?_set_ne hne).trans h
  · obtain rfl := Option.some.inj (hworker.symm.trans h)
    cases hturn
    exact List.getElem?_set_self (List.getElem?_eq_some_iff.1 h).1

theorem turnsLeft_follow (pipeline : Pipeline σ) (hworker : workshop.workers[number]? = some worker)
    (schedule : List Nat) :
    ∃ last, (pipeline.follow workshop schedule).workers[number]? = some last ∧
      (last = .finished ∨
        5 * (pipeline.follow workshop schedule).shared.supply.batches.length + last.turnsLeft + schedule.count number ≤
          5 * workshop.shared.supply.batches.length + worker.turnsLeft) := by
  induction schedule generalizing workshop worker with
  | nil => exact ⟨worker, hworker, .inr (Nat.le_refl _)⟩
  | cons turned schedule ih =>
    rw [follow_cons]
    by_cases hturned : turned = number
    · subst hturned
      by_cases hfinished : worker = .finished
      · subst hfinished
        exact ⟨.finished, finished_stays hworker (turned :: schedule), .inl rfl⟩
      · obtain ⟨shared, new, hturn, hstep⟩ := step_of_some pipeline hworker
        have hlt := hturn.turnsLeft_lt hfinished
        have hnew : (workshop.workers.set turned new)[turned]? = some new :=
          List.getElem?_set_self (List.getElem?_eq_some_iff.1 hworker).1
        rw [hstep, List.count_cons_self]
        obtain ⟨last, hlast, hleft⟩ := @ih { shared, workers := _ } new hnew
        exact ⟨last, hlast, hleft.imp_right fun hle => by dsimp only at hle; omega⟩
    · rw [List.count_cons_of_ne hturned]
      cases hother : workshop.workers[turned]? with
      | none =>
        rw [step_of_none hother]
        exact ih hworker
      | some other =>
        obtain ⟨shared, new, hturn, hstep⟩ := step_of_some pipeline hother
        have hle := hturn.batches.length_le
        have hkept : (workshop.workers.set turned new)[number]? = some worker :=
          (List.getElem?_set_ne hturned).trans hworker
        rw [hstep]
        obtain ⟨last, hlast, hleft⟩ := @ih { shared, workers := _ } worker hkept
        exact ⟨last, hlast, hleft.imp_right fun hleft => by dsimp only at hleft; omega⟩

theorem length_workers_follow (pipeline : Pipeline σ) (supply : Supply) (state : PipelineState σ) (workers : Nat)
    (schedule : List Nat) :
    (pipeline.follow (openWorkshop supply state workers) schedule).workers.length = max workers 1 :=
  follow_keeps (fun workshop => workshop.workers.length = max workers 1)
    (fun hlength _ _ => List.length_set.trans hlength) List.length_replicate schedule

theorem finishes (supply : Supply) (state : PipelineState σ) (workers : Nat) {schedule : List Nat}
    (h : ∀ number < max workers 1, 5 * (supply.batches.length + 1) ≤ schedule.count number) :
    ∀ worker ∈ (pipeline.follow (openWorkshop supply state workers) schedule).workers, worker = .finished := by
  intro worker hmem
  obtain ⟨number, hnumber⟩ := List.mem_iff_getElem?.1 hmem
  have hlt : number < max workers 1 :=
    length_workers_follow pipeline supply state workers schedule ▸ (List.getElem?_eq_some_iff.1 hnumber).1
  have hopen : (openWorkshop supply state workers).workers[number]? = some .lookAtSupply := by
    rw [openWorkshop, List.getElem?_replicate, if_pos hlt]
  obtain ⟨last, hlast, hleft⟩ := turnsLeft_follow pipeline hopen schedule
  obtain rfl := Option.some.inj (hnumber.symm.trans hlast)
  rcases hleft with hfinished | hleft
  · exact hfinished
  · have hturns := h number hlt
    simp only [Worker.turnsLeft, openWorkshop] at hleft
    omega

theorem count_takingTurns {workers number : Nat} (h : number < workers) (turns : Nat) :
    (takingTurns workers turns).count number = turns := by
  induction turns with
  | zero => rfl
  | succ turns ih =>
    have hround : (List.range workers).count number = 1 :=
      List.nodup_iff_count_eq_one.1 List.nodup_range number (List.mem_range.2 h)
    rw [takingTurns, List.replicate_succ, List.flatten_cons, List.count_append, hround, ← takingTurns, ih, Nat.add_comm]

/-- The run by workers that take turns is one of those in which all of them finish. -/
theorem runParallel_finishes (pipeline : Pipeline σ) (supply : Supply) (state : PipelineState σ) (workers : Nat) :
    ∃ schedule,
      pipeline.runParallel supply state workers =
        pipeline.closeWorkshop (pipeline.follow (openWorkshop supply state workers) schedule).shared ∧
      ∀ worker ∈ (pipeline.follow (openWorkshop supply state workers) schedule).workers, worker = .finished := by
  refine ⟨_, rfl, finishes supply state workers fun number hlt => ?_⟩
  have hlength : (openWorkshop supply state workers).workers.length = max workers 1 := List.length_replicate
  rw [count_takingTurns (hlength ▸ hlt)]

end Finishing

end Pipeline

end TextAnnotation
