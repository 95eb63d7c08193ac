import TextAnnotation.Proofs.Pipeline.Turns

/-!
How aggregators conclude. When a run has processed its last artifact it asks them one after the other, and does not go on
after one that fails: an aggregator is asked once if all before it could conclude, and not at all otherwise. Asking again
changes nothing.
-/

namespace TextAnnotation.Pipeline

variable {σ : Type} {pipeline : Pipeline σ} {state start last : PipelineState σ}

/-- How a run ends that has begun and processed its last artifact in these states. -/
structure Concludes (pipeline : Pipeline σ) (start last : PipelineState σ) (ended : RunEnd σ) : Prop where
  /-- Until then the aggregators only observe artifacts. -/
  goes : pipeline.Goes start last
  once : ∀ (number : Nat) (aggregator : Aggregator σ) (own : σ), pipeline.aggregators[number]? = some aggregator →
    last.gathered[number]? = some own → Reaches (·.conclude) pipeline.aggregators last.gathered number →
    ended.state.gathered[number]? = some (aggregator.after own .conclude)
  never : ∀ number, ¬ Reaches (·.conclude) pipeline.aggregators last.gathered number →
    ended.state.gathered[number]? = last.gathered[number]?
  failed : ∀ e, ended.result = .error (.done e) ↔
    ∃ number aggregator own, pipeline.aggregators[number]? = some aggregator ∧ last.gathered[number]? = some own ∧
      Reaches (·.conclude) pipeline.aggregators last.gathered number ∧ (aggregator.conclude own).1 = .error e
  done_or_ok : ∀ failure, ended.result = .error failure → ∃ e, failure = .done e
  again : pipeline.done ended.state = (.ok (), ended.state)

theorem done_of_concluded (h : state.concluded = true) : pipeline.done state = (.ok (), state) := by
  rw [done, h, if_pos rfl]

theorem done_of_not_concluded (h : state.concluded = false) :
    pipeline.done state =
      ((callEach (·.conclude) pipeline.aggregators state.gathered).1,
        { state with
          gathered := (callEach (·.conclude) pipeline.aggregators state.gathered).2
          concluded := true }) := by
  rw [done, h]
  rfl

theorem finish_eq (pipeline : Pipeline σ) (report : RunReport) (state : PipelineState σ) (remaining : Nat) :
    pipeline.finish report state remaining =
      { result := ((pipeline.done state).1.mapError PipelineError.done).map fun () => report
        state := (pipeline.done state).2
        remaining } := by
  rw [finish]
  rcases pipeline.done state with ⟨e | _, after⟩ <;> rfl

theorem concludes_finish (hgoes : pipeline.Goes start last) (hfresh : start.concluded = false) (report : RunReport)
    (remaining : Nat) : pipeline.Concludes start last (pipeline.finish report last remaining) := by
  rw [finish_eq, done_of_not_concluded (hgoes.concluded.trans hfresh)]
  refine ⟨hgoes, ?_, ?_, ?_, ?_, done_of_concluded rfl⟩
  · intro number aggregator own haggregator hown hreaches
    exact getElem?_callEach_of_reaches haggregator hown hreaches
  · intro number hreaches
    exact getElem?_callEach_of_not_reaches hreaches
  · intro e
    rw [← callEach_eq_error_iff]
    dsimp only
    generalize (callEach (·.conclude) pipeline.aggregators last.gathered).1 = result
    cases result with
    | error found => exact ⟨fun h => by cases h; rfl, fun h => by cases h; rfl⟩
    | ok => exact ⟨nofun, nofun⟩
  · intro failure
    dsimp only
    generalize (callEach (·.conclude) pipeline.aggregators last.gathered).1 = result
    cases result with
    | error found => exact fun h => ⟨found, by cases h; rfl⟩
    | ok => exact nofun

/-- The supply of a run that does not fail. -/
theorem Supplies.close_eq_finish {supply : Supply} {supplied : List Artifact} {ending : Ending}
    (h : pipeline.Supplies supply state supplied last ending) (hends : supply.failure? = none) (report : RunReport)
    (remaining : Nat) : pipeline.close report last remaining ending = pipeline.finish report last remaining := by
  cases h with
  | stopped => rfl
  | ended =>
    rw [Supply.ending, hends]
    rfl

/-- A run of a fresh chain over a supply that does not fail, by one or by several workers, asks an aggregator to conclude
if and only if all before it can, and then once and after the last artifact. Workers finish if all have turns enough, and
have then processed whatever they kept of what was handed out. -/
theorem concludes_iff_reached (hfresh : state.concluded = false) {supply : Supply} (hends : supply.failure? = none) :
    (∃ supplied last ending, pipeline.Supplies supply state supplied last ending ∧
      pipeline.Concludes state last (pipeline.run supply state)) ∧
    ∀ workers schedule,
      let opened := openWorkshop supply state workers
      let workshop := pipeline.follow opened schedule
      ((∀ number < max workers 1, 5 * (supply.batches.length + 1) ≤ schedule.count number) →
        ∀ worker ∈ workshop.workers, worker = .finished) ∧
      ((∀ worker ∈ workshop.workers, worker = .finished) →
        (∃ handedOut, supply.batches = handedOut ++ workshop.shared.supply.batches ∧
          ((pipeline.turnsTaken opened schedule).flatMap Worker.artifacts).Perm (handedOut.filterMap List.getLast?)) ∧
        pipeline.Concludes state workshop.shared.state (pipeline.closeWorkshop workshop.shared)) := by
  refine ⟨?_, fun workers schedule => ⟨finishes supply state workers, fun hfinished => ?_⟩⟩
  · obtain ⟨supplied, last, ending, hsupplies⟩ := exists_supplies pipeline supply state
    obtain ⟨report, -, hrun⟩ := hsupplies.run_eq
    rw [hsupplies.close_eq_finish hends] at hrun
    exact ⟨supplied, last, ending, hsupplies, hrun ▸ concludes_finish (.supplied hsupplies) hfresh report _⟩
  · refine ⟨processed_of_finished supply state workers schedule hfinished, ?_⟩
    have hunfailing : (pipeline.follow (openWorkshop supply state workers) schedule).Unfailing :=
      unfailing_follow (unfailing_open supply state workers hends) schedule
    rw [closeWorkshop, hunfailing.shared]
    exact concludes_finish (goes_follow pipeline (openWorkshop supply state workers) schedule) hfresh _ _

section Full

/-- Three aggregators, of which the second one cannot conclude. -/
def fullPipeline : Pipeline Collection where
  aggregators := [.collector none none, .collector none (some "full"), .collector none none]

theorem concludes_iff_reached_full :
    let state : PipelineState Collection := { gathered := [{}, {}, {}] }
    let opened := openWorkshop letters state 2
    (state.concluded = false ∧ letters.failure? = none) ∧
      (∃ last, fullPipeline.Concludes state last (fullPipeline.run letters state)) ∧
      (∃ last, fullPipeline.Concludes state last
        (fullPipeline.closeWorkshop (fullPipeline.follow opened (takingTurns 2 25)).shared)) ∧
      (fullPipeline.run letters state).result = .error (.done (.failed "collector" "full")) ∧
      (fullPipeline.run letters state).state.gathered.map (·.conclusions) = [1, 1, 0] := by
  intro state opened
  obtain ⟨⟨_, last, _, _, hrun⟩, hworkers⟩ := @concludes_iff_reached Collection fullPipeline state rfl letters rfl
  obtain ⟨hfinishes, hconcludes⟩ := hworkers 2 (takingTurns 2 25)
  have hfinished := hfinishes fun number hlt => Nat.le_of_eq (count_takingTurns hlt 25).symm
  refine ⟨⟨rfl, rfl⟩, ⟨last, hrun⟩, ⟨_, (hconcludes hfinished).2⟩, ?_, ?_⟩
  · rfl
  · rfl

/-- Not every aggregator is asked: one that cannot conclude keeps those after it from it. -/
theorem not_always_concluded :
    ¬ ∀ (failures : List (Option String)) (supply : Supply), supply.failure? = none →
      let pipeline : Pipeline Collection := { aggregators := failures.map (.collector none) }
      let state : PipelineState Collection := { gathered := failures.map fun _ => {} }
      ∀ collection ∈ (pipeline.run supply state).state.gathered, collection.conclusions = 1 := by
  intro h
  let pipeline : Pipeline Collection := { aggregators := [.collector none (some "full"), .collector none none] }
  let ended := pipeline.run (.ofTexts "d" [("a", "x")]) { gathered := [{}, {}] }
  have honce : ∀ collection ∈ ended.state.gathered, collection.conclusions = 1 := h [some "full", none] _ rfl
  have hasked : ended.state.gathered.map (·.conclusions) = [1, 0] := by rfl
  obtain ⟨collection, hmem, hnever⟩ : ∃ collection ∈ ended.state.gathered, collection.conclusions = 0 := by
    rw [← List.mem_map, hasked]
    decide
  exact absurd ((honce collection hmem).symm.trans hnever) (by decide)

end Full

end TextAnnotation.Pipeline
