import Mathlib.Data.Nat.Find
import TextAnnotation.Pipeline.Run
import TextAnnotation.Pipeline.Step
import TextAnnotation.Proofs.Pipeline.Gathering

/-!
What a run makes of what it is supplied with. A run is supplied up to the first look at the signal that finds it set, and
if there is none up to the end of the supply. It puts the artifacts of the calls through the chain as they come, and its
report counts them and names those of which the chain broke off.
-/

namespace TextAnnotation

namespace RunReport

/-- The report with the artifacts more of which this has come. -/
def recordAll (report : RunReport) (outcomes : List (Option ArtifactFailure)) : RunReport :=
  outcomes.foldl record report

theorem recordAll_append (report : RunReport) (outcomes later : List (Option ArtifactFailure)) :
    report.recordAll (outcomes ++ later) = (report.recordAll outcomes).recordAll later :=
  List.foldl_append

theorem recordAll_eq (report : RunReport) (outcomes : List (Option ArtifactFailure)) :
    report.recordAll outcomes =
      { report with
        processed := report.processed + outcomes.length
        failures := report.failures ++ outcomes.filterMap id } := by
  induction outcomes generalizing report with
  | nil =>
    rw [List.filterMap_nil, List.append_nil]
    rfl
  | cons outcome outcomes ih =>
    have hfirst : (outcome :: outcomes).filterMap id = outcome.toList ++ outcomes.filterMap id := by
      cases outcome <;> rfl
    rw [recordAll, List.foldl_cons, ← recordAll, ih, hfirst]
    simp only [record, List.length_cons, List.append_assoc, Nat.add_assoc, Nat.add_comm 1]

theorem succeeded?_eq {report : RunReport} {number : Nat} (h : report.failures.length + number = report.processed) :
    report.succeeded? = some number := by
  rw [succeeded?, if_pos (h ▸ Nat.le_add_right _ _), ← h, Nat.add_sub_cancel_left]

end RunReport

/-- What ends the supply of a run. -/
inductive Ending where
  | stopped
  | exhausted
  | failed (failure : PipelineError)
deriving DecidableEq, Repr

/-- What ends a supply that nobody stops. -/
def Supply.ending (supply : Supply) : Ending :=
  match supply.failure? with
  | none => .exhausted
  | some failure => .failed failure

/-- The report on artifacts of a supply that ended so, if this is what comes of each of them. -/
def Supply.account (supply : Supply) (outcome : Artifact → Option ArtifactFailure) (supplied : List Artifact)
    (ending : Ending) : RunReport where
  estimatedTotal? := supply.estimate?
  processed := supplied.length
  failures := supplied.filterMap outcome
  cancelled := ending = .stopped

theorem Supply.ending_ne_stopped (supply : Supply) : supply.ending ≠ .stopped := by
  rw [ending]
  split <;> nofun

theorem Supply.recordAll_map (supply : Supply) (outcome : Artifact → Option ArtifactFailure) (supplied : List Artifact) :
    RunReport.recordAll { estimatedTotal? := supply.estimate? } (supplied.map outcome) =
      { supply.account outcome supplied supply.ending with cancelled := false } := by
  rw [RunReport.recordAll_eq, List.length_map, List.filterMap_map, Nat.zero_add, List.nil_append, Function.id_comp]
  rfl

theorem Supply.succeeded?_account (supply : Supply) (outcome : Artifact → Option ArtifactFailure)
    (supplied : List Artifact) (ending : Ending) :
    (supply.account outcome supplied ending).succeeded? =
      some (supplied.countP fun artifact => (outcome artifact).isNone) := by
  have hparts := supplied.length_eq_countP_add_countP fun artifact => (outcome artifact).isSome
  simp only [Bool.not_eq_true, Option.isSome_eq_false_iff, Bool.decide_eq_true] at hparts
  apply RunReport.succeeded?_eq
  simp only [account, List.length_filterMap_eq_countP]
  exact hparts.symm

namespace Pipeline

variable {σ : Type}

/-- The state after artifacts that go through the chain one after the other. -/
def afterAll (pipeline : Pipeline σ) (artifacts : List Artifact) (state : PipelineState σ) : PipelineState σ :=
  artifacts.foldl (fun state artifact => (pipeline.attempt artifact state).2) state

/-- The state after calls to the supply, before each of which the run looks at the signal. -/
def afterBatches (pipeline : Pipeline σ) (batches : List (List Artifact)) (state : PipelineState σ) : PipelineState σ :=
  batches.foldl (fun state batch => pipeline.afterAll batch state.look) state

/-- Whether the look after so many calls to the supply finds the signal set. -/
def StopsAfter (pipeline : Pipeline σ) (supply : Supply) (state : PipelineState σ) (calls : Nat) : Prop :=
  (pipeline.afterBatches (supply.batches.take calls) state).look.signal.isStopped = true

/-- What a run is supplied with, and the state in which that ends and why. -/
inductive Supplies (pipeline : Pipeline σ) (supply : Supply) (state : PipelineState σ) :
    List Artifact → PipelineState σ → Ending → Prop where
  | stopped {calls : Nat} (hcalls : calls ≤ supply.batches.length) (hstops : pipeline.StopsAfter supply state calls)
      (hfirst : ∀ earlier < calls, ¬ pipeline.StopsAfter supply state earlier) :
      Supplies pipeline supply state (supply.batches.take calls).flatten
        (pipeline.afterBatches (supply.batches.take calls) state).look .stopped
  | ended (hgoes : ∀ calls ≤ supply.batches.length, ¬ pipeline.StopsAfter supply state calls) :
      Supplies pipeline supply state (supply.batches.flatten ++ supply.last)
        (pipeline.afterAll supply.last (pipeline.afterBatches supply.batches state).look) supply.ending

/-- Whether this comes of each artifact, in all states with something gathered by so many aggregators. -/
def Determines (pipeline : Pipeline σ) (size : Nat) (outcome : Artifact → Option ArtifactFailure) : Prop :=
  ∀ artifact (state : PipelineState σ), state.gathered.length = size →
    (pipeline.attempt artifact state).1 = outcome artifact

variable {pipeline : Pipeline σ} {supply : Supply} {state base : PipelineState σ}

theorem Steady.determines (h : pipeline.Steady) (state : PipelineState σ) :
    pipeline.Determines state.gathered.length fun artifact => (pipeline.attempt artifact state).1 :=
  fun artifact _ hlength => h.attempt_fst_eq hlength artifact

theorem exists_supplies (pipeline : Pipeline σ) (supply : Supply) (state : PipelineState σ) :
    ∃ supplied last ending, pipeline.Supplies supply state supplied last ending := by
  classical
  by_cases hstops : ∃ calls, calls ≤ supply.batches.length ∧ pipeline.StopsAfter supply state calls
  · obtain ⟨hcalls, hstop⟩ := Nat.find_spec hstops
    refine ⟨_, _, _, .stopped hcalls hstop fun earlier hlt hearlier => ?_⟩
    exact Nat.find_min hstops hlt ⟨Nat.le_trans (Nat.le_of_lt hlt) hcalls, hearlier⟩
  · have hgoes : ∀ calls ≤ supply.batches.length, ¬ pipeline.StopsAfter supply state calls :=
      fun calls hcalls hstop => hstops ⟨calls, hcalls, hstop⟩
    exact ⟨_, _, _, .ended hgoes⟩

/-- Whether a stretch of a run leads from one state to another: the aggregators observe artifacts in the meantime, and are
not asked to conclude. -/
def Goes (pipeline : Pipeline σ) (state later : PipelineState σ) : Prop :=
  ∃ observed, pipeline.Advances observed state later

namespace Goes

variable {later last : PipelineState σ}

theorem refl (pipeline : Pipeline σ) (state : PipelineState σ) : pipeline.Goes state state := ⟨_, .refl pipeline state⟩

theorem trans (h : pipeline.Goes state later) (h' : pipeline.Goes later last) : pipeline.Goes state last := by
  obtain ⟨_, hfirst⟩ := h
  obtain ⟨_, hsecond⟩ := h'
  exact ⟨_, hfirst.trans hsecond⟩

theorem look (pipeline : Pipeline σ) (state : PipelineState σ) : pipeline.Goes state state.look :=
  ⟨_, .look pipeline state⟩

theorem attempt (pipeline : Pipeline σ) (artifact : Artifact) (state : PipelineState σ) :
    pipeline.Goes state (pipeline.attempt artifact state).2 :=
  ⟨_, .attempt pipeline artifact state⟩

theorem length (h : pipeline.Goes state later) : later.gathered.length = state.gathered.length := by
  obtain ⟨_, hadvances⟩ := h
  exact hadvances.length

theorem concluded (h : pipeline.Goes state later) : later.concluded = state.concluded := by
  obtain ⟨_, hadvances⟩ := h
  exact hadvances.concluded

theorem afterAll (pipeline : Pipeline σ) (artifacts : List Artifact) (state : PipelineState σ) :
    pipeline.Goes state (pipeline.afterAll artifacts state) := by
  induction artifacts generalizing state with
  | nil => exact refl pipeline state
  | cons artifact artifacts ih => exact (attempt pipeline artifact state).trans (ih _)

theorem afterBatches (pipeline : Pipeline σ) (batches : List (List Artifact)) (state : PipelineState σ) :
    pipeline.Goes state (pipeline.afterBatches batches state) := by
  induction batches generalizing state with
  | nil => exact refl pipeline state
  | cons batch batches ih => exact ((look pipeline state).trans (afterAll pipeline batch _)).trans (ih _)

theorem supplied {supplied : List Artifact} {ending : Ending}
    (h : pipeline.Supplies supply state supplied last ending) : pipeline.Goes state last := by
  have hlooked (batches : List (List Artifact)) : pipeline.Goes state (pipeline.afterBatches batches state).look :=
    (afterBatches pipeline batches state).trans (look pipeline _)
  cases h with
  | stopped => exact hlooked _
  | ended => exact (hlooked _).trans (afterAll pipeline _ _)

end Goes

namespace Steady

/-- In a steady chain, what comes to an aggregator is told by how the run has begun. -/
theorem advances_afterAll (h : pipeline.Steady) (artifacts : List Artifact) {state : PipelineState σ}
    (hlength : state.gathered.length = base.gathered.length) :
    pipeline.Advances (fun number => artifacts.filterMap (pipeline.comesTo base number)) state
      (pipeline.afterAll artifacts state) := by
  induction artifacts generalizing state with
  | nil => exact .refl pipeline state
  | cons artifact artifacts ih =>
    have hfirst := Advances.attempt pipeline artifact state
    have hobserved : (fun number => (artifact :: artifacts).filterMap (pipeline.comesTo base number)) = fun number =>
        (pipeline.comesTo state number artifact).toList ++ artifacts.filterMap (pipeline.comesTo base number) := by
      funext number
      rw [h.comesTo_eq hlength, List.filterMap_cons]
      cases pipeline.comesTo base number artifact <;> rfl
    rw [hobserved]
    exact hfirst.trans (ih (hfirst.length.trans hlength))

theorem advances_afterBatches (h : pipeline.Steady) (batches : List (List Artifact)) {state : PipelineState σ}
    (hlength : state.gathered.length = base.gathered.length) :
    pipeline.Advances (fun number => batches.flatten.filterMap (pipeline.comesTo base number)) state
      (pipeline.afterBatches batches state) := by
  induction batches generalizing state with
  | nil => exact .refl pipeline state
  | cons batch batches ih =>
    have hlook := Advances.look pipeline state
    have hbatch := hlook.trans (h.advances_afterAll batch (hlook.length.trans hlength))
    have hobserved : (fun number => (batch :: batches).flatten.filterMap (pipeline.comesTo base number)) = fun number =>
        [] ++ batch.filterMap (pipeline.comesTo base number) ++
          batches.flatten.filterMap (pipeline.comesTo base number) := by
      funext number
      rw [List.flatten_cons, List.filterMap_append, List.nil_append]
    rw [hobserved]
    exact hbatch.trans (ih (hbatch.length.trans hlength))

theorem advances_supplied (h : pipeline.Steady) {supplied : List Artifact} {last : PipelineState σ} {ending : Ending}
    (hsupplies : pipeline.Supplies supply state supplied last ending) :
    pipeline.Advances (fun number => supplied.filterMap (pipeline.comesTo state number)) state last := by
  have hlooked (batches : List (List Artifact)) :
      pipeline.Advances (fun number => batches.flatten.filterMap (pipeline.comesTo state number)) state
        (pipeline.afterBatches batches state).look := by
    have hbatches : pipeline.Advances (fun number => batches.flatten.filterMap (pipeline.comesTo state number)) state
        (pipeline.afterBatches batches state) := h.advances_afterBatches batches rfl
    have hlook := hbatches.trans (Advances.look pipeline _)
    simp only [List.append_nil] at hlook
    exact hlook
  cases hsupplies with
  | stopped => exact hlooked _
  | ended =>
    simp only [List.filterMap_append]
    exact (hlooked _).trans (h.advances_afterAll supply.last (hlooked _).length)

end Steady

/-- The report after calls to the supply. -/
def reportAfter (pipeline : Pipeline σ) : List (List Artifact) → RunReport → PipelineState σ → RunReport
  | [], report, _ => report
  | batch :: batches, report, state =>
    pipeline.reportAfter batches (pipeline.attemptAll batch report state.look).1 (pipeline.afterAll batch state.look)

theorem attemptAll_snd (pipeline : Pipeline σ) (artifacts : List Artifact) (report : RunReport)
    (state : PipelineState σ) : (pipeline.attemptAll artifacts report state).2 = pipeline.afterAll artifacts state := by
  induction artifacts generalizing report state with
  | nil => rfl
  | cons artifact artifacts ih => exact ih _ _

namespace Determines

variable {size : Nat} {outcome : Artifact → Option ArtifactFailure}

theorem attemptAll_fst (h : pipeline.Determines size outcome) (artifacts : List Artifact) (report : RunReport)
    {state : PipelineState σ} (hlength : state.gathered.length = size) :
    (pipeline.attemptAll artifacts report state).1 = report.recordAll (artifacts.map outcome) := by
  induction artifacts generalizing report state with
  | nil => rfl
  | cons artifact artifacts ih =>
    calc (pipeline.attemptAll (artifact :: artifacts) report state).1
        = (pipeline.attemptAll artifacts (report.record (pipeline.attempt artifact state).1)
            (pipeline.attempt artifact state).2).1 := rfl
      _ = (report.record (pipeline.attempt artifact state).1).recordAll (artifacts.map outcome) :=
          ih _ ((Goes.attempt pipeline artifact state).length.trans hlength)
      _ = report.recordAll ((artifact :: artifacts).map outcome) := by
          rw [h artifact state hlength]
          rfl

theorem reportAfter (h : pipeline.Determines size outcome) (batches : List (List Artifact)) (report : RunReport)
    {state : PipelineState σ} (hlength : state.gathered.length = size) :
    pipeline.reportAfter batches report state = report.recordAll (batches.flatten.map outcome) := by
  induction batches generalizing report state with
  | nil => rfl
  | cons batch batches ih =>
    have hlook := (Goes.look pipeline state).length.trans hlength
    rw [Pipeline.reportAfter, h.attemptAll_fst batch report hlook,
      ih _ ((Goes.afterAll pipeline batch _).length.trans hlook), List.flatten_cons, List.map_append,
      RunReport.recordAll_append]

end Determines

/-- The calls to the supply up to a look, if none before it finds the signal set. -/
theorem runFrom_append (supply : Supply) {before : List (List Artifact)} (rest : List (List Artifact))
    (report : RunReport) {state : PipelineState σ}
    (h : ∀ calls < before.length, (pipeline.afterBatches (before.take calls) state).look.signal.isStopped = false) :
    pipeline.runFrom supply (before ++ rest) report state =
      pipeline.runFrom supply rest (pipeline.reportAfter before report state) (pipeline.afterBatches before state) := by
  induction before generalizing report state with
  | nil => rfl
  | cons batch before ih =>
    have hlook : state.look.signal.isStopped = false := h 0 (Nat.zero_lt_succ _)
    have hrest := ih (pipeline.attemptAll batch report state.look).1 fun calls hlt => h (calls + 1) (Nat.succ_lt_succ hlt)
    rw [List.cons_append, runFrom]
    simp only [hlook, Bool.false_eq_true, if_false, attemptAll_snd]
    exact hrest

theorem runFrom_of_stopped {batches : List (List Artifact)} {report : RunReport}
    (h : state.look.signal.isStopped = true) :
    pipeline.runFrom supply batches report state =
      pipeline.finish { report with cancelled := true } state.look { supply with batches }.remaining := by
  unfold runFrom
  exact if_pos h

/-- How a run ends when its supply does: with this report and in this state, and with so many artifacts left. -/
def close (pipeline : Pipeline σ) (report : RunReport) (last : PipelineState σ) (remaining : Nat) : Ending → RunEnd σ
  | .failed failure => { result := .error failure, state := last, remaining }
  | .stopped | .exhausted => pipeline.finish report last remaining

theorem runFrom_nil {report : RunReport} (h : state.look.signal.isStopped = false) :
    pipeline.runFrom supply [] report state =
      pipeline.close (pipeline.attemptAll supply.last report state.look).1 (pipeline.afterAll supply.last state.look)
        supply.withheld.length supply.ending := by
  rw [← attemptAll_snd pipeline supply.last report, runFrom, Supply.ending]
  simp only [h, Bool.false_eq_true, if_false]
  cases supply.failure? <;> rfl

theorem remaining_drop (supply : Supply) (calls : Nat) :
    { supply with batches := supply.batches.drop calls }.remaining =
      supply.remaining - (supply.batches.take calls).flatten.length := by
  have hparts : supply.batches.flatten.length =
      (supply.batches.take calls).flatten.length + (supply.batches.drop calls).flatten.length := by
    rw [← List.length_append, ← List.flatten_append, List.take_append_drop]
  simp only [Supply.remaining]
  omega

/-- What a run is supplied with decides its report and how it ends. -/
theorem Supplies.run_eq {supplied : List Artifact} {last : PipelineState σ} {ending : Ending}
    (h : pipeline.Supplies supply state supplied last ending) :
    ∃ report : RunReport,
      (∀ outcome, pipeline.Determines state.gathered.length outcome → report = supply.account outcome supplied ending) ∧
      pipeline.run supply state = pipeline.close report last (supply.remaining - supplied.length) ending := by
  have hrun {calls : Nat} (hfirst : ∀ earlier < calls, ¬ pipeline.StopsAfter supply state earlier) :
      pipeline.run supply state =
        pipeline.runFrom supply (supply.batches.drop calls)
          (pipeline.reportAfter (supply.batches.take calls) { estimatedTotal? := supply.estimate? } state)
          (pipeline.afterBatches (supply.batches.take calls) state) := by
    rw [run]
    conv => lhs; arg 3; rw [← List.take_append_drop calls supply.batches]
    refine runFrom_append supply _ _ fun earlier hlt => ?_
    have hearlier : earlier < calls := Nat.lt_of_lt_of_le hlt (List.length_take_le _ _)
    rw [List.take_take, Nat.min_eq_left (Nat.le_of_lt hearlier)]
    exact Bool.eq_false_iff.2 (hfirst earlier hearlier)
  cases h with
  | @stopped calls hcalls hstops hfirst =>
    rw [hrun hfirst, runFrom_of_stopped hstops, remaining_drop]
    refine ⟨_, fun outcome hdetermines => ?_, rfl⟩
    rw [hdetermines.reportAfter _ _ rfl, supply.recordAll_map]
    rfl
  | ended hgoes =>
    have hlast := hgoes _ (Nat.le_refl _)
    have hleft : supply.remaining - (supply.batches.flatten ++ supply.last).length = supply.withheld.length := by
      rw [Supply.remaining, List.length_append, Nat.add_sub_cancel_left]
    rw [StopsAfter, List.take_length] at hlast
    rw [hrun fun earlier hlt => hgoes earlier (Nat.le_of_lt hlt), List.drop_length, List.take_length,
      runFrom_nil (Bool.eq_false_iff.2 hlast), hleft]
    refine ⟨_, fun outcome hdetermines => ?_, rfl⟩
    have hlength := ((Goes.afterBatches pipeline supply.batches state).trans (Goes.look pipeline _)).length
    rw [hdetermines.attemptAll_fst _ _ hlength, hdetermines.reportAfter _ _ rfl, ← RunReport.recordAll_append,
      ← List.map_append, supply.recordAll_map]
    simp only [Supply.account, decide_eq_false supply.ending_ne_stopped]

/-- A run puts the artifacts of its supply through the chain one after the other, up to the first look that finds the
signal set or up to the end. Its report counts them and names those whose chain broke off, and the aggregators have
observed what came to them. -/
theorem run_accounts_for_supply (hsteady : pipeline.Steady) (supply : Supply) (state : PipelineState σ) :
    (∃ supplied last ending, pipeline.Supplies supply state supplied last ending) ∧
      (∀ supplied last ending, pipeline.Supplies supply state supplied last ending →
        let outcome artifact := (pipeline.attempt artifact state).1
        let report := supply.account outcome supplied ending
        pipeline.run supply state = pipeline.close report last (supply.remaining - supplied.length) ending ∧
          report.succeeded? = some (supplied.countP fun artifact => (outcome artifact).isNone) ∧
          pipeline.Advances (fun number => supplied.filterMap (pipeline.comesTo state number)) state last) ∧
      ∀ artifact before, artifact.documents.keys.Pairwise (· < ·) ∧
        pipeline.process artifact before =
          (Stage.performAll (pipeline.stages artifact) artifact).run.run before := by
  refine ⟨pipeline.exists_supplies supply state, fun supplied last ending hsupplies => ?_, fun artifact before => ?_⟩
  · obtain ⟨report, haccount, hrun⟩ := hsupplies.run_eq
    rw [haccount _ (hsteady.determines state)] at hrun
    exact ⟨hrun, supply.succeeded?_account _ supplied ending, hsteady.advances_supplied hsupplies⟩
  · exact ⟨List.pairwise_map.2 artifact.documents.ascending, pipeline.process_eq_performAll artifact before⟩

section Letters

/-- A chain that breaks off at the letter b and asks to stop at the letter c. Its second aggregator refuses the letter a. -/
def letterPipeline : Pipeline Collection where
  artifactProcessors := [
    fun artifact =>
      if artifact.id = "b" then ArtifactProcessor.breakOff (.crash (some "lost")) artifact else return artifact,
    fun artifact => do
      if artifact.id = "c" then set ({ isStopped := true } : StopSignal)
      return artifact]
  aggregators := [.collector none none, .collector (some "a") none, .collector none none]

theorem letterPipeline_steady : letterPipeline.Steady where
  document := nofun
  artifact processor hmem artifact := by
    simp only [letterPipeline, List.mem_cons, List.not_mem_nil, or_false] at hmem
    rcases hmem with rfl | rfl
    · dsimp only
      split <;> exact fun _ _ => rfl
    · dsimp only
      split <;> exact fun _ _ => rfl
  aggregator aggregator hmem artifact own own' := by
    simp only [letterPipeline, List.mem_cons, List.not_mem_nil, or_false] at hmem
    rcases hmem with rfl | rfl | rfl
    · rfl
    · dsimp only [Aggregator.collector]
      split <;> rfl
    · rfl

def letters : Supply := .ofTexts "letter" [("a", "alpha"), ("b", "beta"), ("c", "gamma"), ("d", "delta")]

/-- The first letter gets as far as the first aggregator, the second to none, the third to all, and the last one is not
handed out any more. -/
theorem run_accounts_for_supply_letters :
    let state : PipelineState Collection := { gathered := [{}, {}, {}] }
    letterPipeline.Steady ∧
      (letterPipeline.run letters state).result =
        .ok {
          estimatedTotal? := some 4
          processed := 3
          failures := [⟨"a", "collector: a"⟩, ⟨"b", "panicked: lost"⟩]
          cancelled := true } ∧
      ∃ last, letterPipeline.Supplies letters state (letters.batches.flatten.take 3) last .stopped ∧
        last.gathered.map (·.seen.map (·.id)) = [["a", "c"], ["c"], ["c"]] := by
  intro state
  obtain ⟨-, haccounts, -⟩ := run_accounts_for_supply letterPipeline_steady letters state
  have hsupplies : letterPipeline.Supplies letters state (letters.batches.take 3).flatten
      (letterPipeline.afterBatches (letters.batches.take 3) state).look .stopped := by
    refine .stopped (by decide) ?_ fun earlier hlt => ?_
    · rw [StopsAfter]
      rfl
    · rw [StopsAfter, Bool.not_eq_true]
      obtain rfl | rfl | rfl : earlier = 0 ∨ earlier = 1 ∨ earlier = 2 := by omega
      all_goals rfl
  obtain ⟨hrun, -, -⟩ := haccounts _ _ _ hsupplies
  refine ⟨letterPipeline_steady, ?_, _, hsupplies, ?_⟩
  · rw [hrun]
    rfl
  · rfl

end Letters

end Pipeline

end TextAnnotation
