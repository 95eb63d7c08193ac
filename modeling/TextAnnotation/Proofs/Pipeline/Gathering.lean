import TextAnnotation.Proofs.Pipeline.Stages

/-!
What aggregators gather. Each of them gathers what the calls that reach it make of what it had, and a call reaches it if
those before it have succeeded. An artifact so makes the same of each aggregator whatever the artifacts before it came to,
when nothing but the artifact decides what the steps of the chain come to.
-/

namespace TextAnnotation

variable {σ : Type}

namespace Aggregator

/-- A call of an aggregator. -/
inductive Call where
  | observe (artifact : Artifact)
  | conclude

/-- What an aggregator has gathered after a call, whatever it answers. -/
def after (aggregator : Aggregator σ) (gathered : σ) : Call → σ
  | .observe artifact => (aggregator.observe artifact gathered).2
  | .conclude => (aggregator.conclude gathered).2

/-- What an aggregator has gathered after calls one after the other. -/
def replay (aggregator : Aggregator σ) (gathered : σ) (calls : List Call) : σ := calls.foldl aggregator.after gathered

theorem replay_append (aggregator : Aggregator σ) (gathered : σ) (calls later : List Call) :
    aggregator.replay gathered (calls ++ later) = aggregator.replay (aggregator.replay gathered calls) later :=
  List.foldl_append

end Aggregator

namespace Pipeline

section
variable {ε : Type} {call : Aggregator σ → σ → Except ε Unit × σ} {aggregators : List (Aggregator σ)}
  {gathered gathered' : List σ}

/-- Whether a call that is made to aggregators one after the other reaches the one of a number: it succeeds with all
before it. -/
def Reaches (call : Aggregator σ → σ → Except ε Unit × σ) (aggregators : List (Aggregator σ)) (gathered : List σ)
    (number : Nat) : Prop :=
  ∀ earlier < number, ∀ aggregator own, aggregators[earlier]? = some aggregator → gathered[earlier]? = some own →
    (call aggregator own).1 = .ok ()

theorem reaches_cons {aggregator : Aggregator σ} {own : σ} {rest : List σ} {number : Nat} :
    Reaches call (aggregator :: aggregators) (own :: rest) (number + 1) ↔
      (call aggregator own).1 = .ok () ∧ Reaches call aggregators rest number := by
  constructor
  · intro h
    exact ⟨h 0 (Nat.zero_lt_succ _) aggregator own rfl rfl,
      fun earlier hlt => h (earlier + 1) (Nat.succ_lt_succ hlt)⟩
  · rintro ⟨hfirst, hrest⟩ earlier hlt found has hfound hhas
    cases earlier with
    | zero =>
      obtain rfl := Option.some.inj hfound
      obtain rfl := Option.some.inj hhas
      exact hfirst
    | succ earlier => exact hrest earlier (Nat.lt_of_succ_lt_succ hlt) found has hfound hhas

theorem callEach_cons_ok {aggregator : Aggregator σ} {own : σ} {rest : List σ}
    (h : (call aggregator own).1 = .ok ()) :
    callEach call (aggregator :: aggregators) (own :: rest) =
      ((callEach call aggregators rest).1, (call aggregator own).2 :: (callEach call aggregators rest).2) := by
  rw [callEach]
  rcases hcall : call aggregator own with ⟨e | _, new⟩
  · rw [hcall] at h
    cases h
  · rfl

theorem callEach_cons_error {aggregator : Aggregator σ} {own : σ} {rest : List σ} {e : ε}
    (h : (call aggregator own).1 = .error e) :
    callEach call (aggregator :: aggregators) (own :: rest) = (.error e, (call aggregator own).2 :: rest) := by
  rw [callEach]
  rcases hcall : call aggregator own with ⟨found | _, new⟩
  · rw [hcall] at h
    cases h
    rfl
  · rw [hcall] at h
    cases h

theorem length_callEach (call : Aggregator σ → σ → Except ε Unit × σ) (aggregators : List (Aggregator σ))
    (gathered : List σ) : (callEach call aggregators gathered).2.length = gathered.length := by
  induction aggregators generalizing gathered with
  | nil => cases gathered <;> rfl
  | cons aggregator aggregators ih =>
    cases gathered with
    | nil => rfl
    | cons own rest =>
      rcases h : (call aggregator own).1 with e | _
      · rw [callEach_cons_error h, List.length_cons, List.length_cons]
      · rw [callEach_cons_ok h, List.length_cons, List.length_cons, ih]

/-- What a call makes of the aggregators that it reaches. -/
theorem getElem?_callEach_of_reaches {number : Nat} {aggregator : Aggregator σ} {own : σ}
    (haggregator : aggregators[number]? = some aggregator) (hown : gathered[number]? = some own)
    (h : Reaches call aggregators gathered number) :
    (callEach call aggregators gathered).2[number]? = some (call aggregator own).2 := by
  induction aggregators generalizing gathered number with
  | nil => cases haggregator
  | cons first aggregators ih =>
    cases gathered with
    | nil => cases hown
    | cons has rest =>
      cases number with
      | zero =>
        obtain rfl := Option.some.inj haggregator
        obtain rfl := Option.some.inj hown
        rcases hcall : (call first has).1 with e | _
        · rw [callEach_cons_error hcall, List.getElem?_cons_zero]
        · rw [callEach_cons_ok hcall, List.getElem?_cons_zero]
      | succ number =>
        obtain ⟨hcall, hrest⟩ := reaches_cons.1 h
        rw [callEach_cons_ok hcall, List.getElem?_cons_succ]
        exact ih haggregator hown hrest

/-- The aggregators that a call does not reach keep what they have gathered. -/
theorem getElem?_callEach_of_not_reaches {number : Nat} (h : ¬ Reaches call aggregators gathered number) :
    (callEach call aggregators gathered).2[number]? = gathered[number]? := by
  induction aggregators generalizing gathered number with
  | nil => cases gathered <;> rfl
  | cons first aggregators ih =>
    cases gathered with
    | nil => rfl
    | cons has rest =>
      cases number with
      | zero => exact absurd nofun h
      | succ number =>
        rcases hcall : (call first has).1 with e | _
        · rw [callEach_cons_error hcall, List.getElem?_cons_succ, List.getElem?_cons_succ]
        · rw [callEach_cons_ok hcall, List.getElem?_cons_succ, List.getElem?_cons_succ]
          exact ih fun hrest => h (reaches_cons.2 ⟨hcall, hrest⟩)

/-- A call fails for the first aggregator that it fails with. -/
theorem callEach_eq_error_iff {e : ε} :
    (callEach call aggregators gathered).1 = .error e ↔
      ∃ number aggregator own, aggregators[number]? = some aggregator ∧ gathered[number]? = some own ∧
        Reaches call aggregators gathered number ∧ (call aggregator own).1 = .error e := by
  induction aggregators generalizing gathered with
  | nil =>
    refine ⟨fun h => ?_, fun ⟨_, _, _, h, _⟩ => by cases h⟩
    cases gathered <;> cases h
  | cons first aggregators ih =>
    cases gathered with
    | nil => exact ⟨nofun, fun ⟨_, _, _, _, h, _⟩ => by cases h⟩
    | cons has rest =>
      rcases hcall : (call first has).1 with found | _
      · rw [callEach_cons_error hcall]
        constructor
        · rintro h
          exact ⟨0, first, has, rfl, rfl, nofun, hcall.trans h⟩
        · rintro ⟨number, aggregator, own, haggregator, hown, hreaches, herror⟩
          cases number with
          | zero =>
            obtain rfl := Option.some.inj haggregator
            obtain rfl := Option.some.inj hown
            exact hcall.symm.trans herror
          | succ number => cases hcall.symm.trans (reaches_cons.1 hreaches).1
      · rw [callEach_cons_ok hcall, ih]
        constructor
        · rintro ⟨number, aggregator, own, haggregator, hown, hreaches, herror⟩
          exact ⟨number + 1, aggregator, own, haggregator, hown, reaches_cons.2 ⟨hcall, hreaches⟩, herror⟩
        · rintro ⟨number, aggregator, own, haggregator, hown, hreaches, herror⟩
          cases number with
          | zero =>
            obtain rfl := Option.some.inj haggregator
            obtain rfl := Option.some.inj hown
            cases hcall.symm.trans herror
          | succ number => exact ⟨number, aggregator, own, haggregator, hown, (reaches_cons.1 hreaches).2, herror⟩

theorem callEach_take_eq_ok_iff {number : Nat} :
    (callEach call (aggregators.take number) gathered).1 = .ok () ↔ Reaches call aggregators gathered number := by
  induction number generalizing aggregators gathered with
  | zero =>
    rw [List.take_zero]
    exact ⟨fun _ => nofun, fun _ => by cases gathered <;> rfl⟩
  | succ number ih =>
    cases aggregators with
    | nil =>
      constructor
      · intro _ earlier _ aggregator own h
        cases h
      · intro _
        cases gathered <;> rfl
    | cons first aggregators =>
      cases gathered with
      | nil =>
        constructor
        · intro _ earlier _ aggregator own _ h
          cases h
        · intro _
          rfl
      | cons has rest =>
        rw [List.take_succ_cons, reaches_cons]
        rcases hcall : (call first has).1 with e | _
        · rw [callEach_cons_error hcall]
          exact ⟨nofun, fun h => by cases h.1⟩
        · rw [callEach_cons_ok hcall, ih]
          simp only [true_and]

/-- What calls come to does not depend on what is gathered if no single call does. -/
theorem callEach_fst_congr (hlength : gathered.length = gathered'.length)
    (h : ∀ aggregator ∈ aggregators, ∀ own own', (call aggregator own).1 = (call aggregator own').1) :
    (callEach call aggregators gathered).1 = (callEach call aggregators gathered').1 := by
  induction aggregators generalizing gathered gathered' with
  | nil => cases gathered <;> cases gathered' <;> rfl
  | cons first aggregators ih =>
    obtain ⟨hfirst, hrest⟩ := List.forall_mem_cons.1 h
    match gathered, gathered', hlength with
    | [], [], _ => rfl
    | has :: rest, has' :: rest', hlength =>
      rcases hcall : (call first has).1 with e | _
      · rw [callEach_cons_error hcall, callEach_cons_error ((hfirst has' has).trans hcall)]
      · rw [callEach_cons_ok hcall, callEach_cons_ok ((hfirst has' has).trans hcall)]
        exact ih (Nat.succ.inj hlength) hrest

end

end Pipeline

/-- Whether a property of tasks holds of tasks one after the other if it holds of each, however their breakdowns are
told. -/
structure Task.Composes (Holds : (ε α : Type) → Task ε α → Prop) : Prop where
  pure {ε α : Type} (a : α) : Holds ε α (pure a)
  bind {ε α β : Type} {task : Task ε α} {next : α → Task ε β} (htask : Holds ε α task)
    (hnext : ∀ a, Holds ε β (next a)) : Holds ε β (task >>= next)
  adapt {ε ε' α : Type} (change : ε → ε') {task : Task ε α} (htask : Holds ε α task) : Holds ε' α (task.adapt change)

namespace Task.Composes

variable {Holds : (ε α : Type) → Task ε α → Prop} {ε α β : Type}

theorem foldlM (h : Task.Composes Holds) {step : α → β → Task ε α} {items : List β}
    (hstep : ∀ a, ∀ b ∈ items, Holds ε α (step a b)) (a : α) : Holds ε α (items.foldlM step a) := by
  induction items generalizing a with
  | nil => exact h.pure a
  | cons item items ih =>
    rw [List.foldlM_cons]
    exact h.bind (hstep a item List.mem_cons_self) fun a => ih (fun a b hb => hstep a b (List.mem_cons_of_mem _ hb)) a

/-- A property that all processors of a chain have is one of the chain. -/
theorem prepare (h : Task.Composes Holds) {pipeline : Pipeline σ}
    (hdocument : ∀ processor ∈ pipeline.documentProcessors, ∀ document, Holds _ Document (processor document))
    (hartifact : ∀ processor ∈ pipeline.artifactProcessors, ∀ artifact, Holds _ Artifact (processor artifact))
    (artifact : Artifact) : Holds _ Artifact (pipeline.prepare artifact) := by
  have hprocessed (document : Document) : Holds _ Document (pipeline.processDocument document) :=
    h.foldlM (fun document processor hmem => hdocument processor hmem document) document
  refine h.bind (h.bind (h.foldlM (fun changed entry _ => ?_) _) fun _ => h.pure _) fun artifact => ?_
  · exact h.bind (h.adapt _ (hprocessed entry.2)) fun _ => h.pure _
  · exact h.foldlM (fun artifact processor hmem => hartifact processor hmem artifact) artifact

end Task.Composes

/-- Whether what comes of a task does not depend on the signal, which the task may well change. -/
def Task.IgnoresSignal {ε α : Type} (task : Task ε α) : Prop :=
  ∀ signal signal', (task.run.run signal).1 = (task.run.run signal').1

theorem Task.ignoresSignal_composes : Task.Composes @Task.IgnoresSignal where
  pure _ _ _ := rfl
  bind {ε α β task next} htask hnext signal signal' := by
    have hresult := htask signal signal'
    rw [run_bind_stateM, run_bind_stateM]
    generalize task.run.run signal = first at hresult ⊢
    generalize task.run.run signal' = second at hresult ⊢
    obtain ⟨result, s⟩ := first
    obtain ⟨result', s'⟩ := second
    obtain rfl : result = result' := hresult
    cases result with
    | error breakdown => rfl
    | ok a => exact hnext a s s'
  adapt change _ htask signal signal' := congrArg (Except.mapError change) (htask signal signal')

namespace Pipeline

/-- Whether every step of a chain succeeds or breaks off by what it is given alone: not by whether the run is to stop,
and not by what came before. -/
structure Steady (pipeline : Pipeline σ) : Prop where
  document : ∀ processor ∈ pipeline.documentProcessors, ∀ document, (processor document).IgnoresSignal
  artifact : ∀ processor ∈ pipeline.artifactProcessors, ∀ artifact, (processor artifact).IgnoresSignal
  aggregator : ∀ aggregator ∈ pipeline.aggregators, ∀ artifact own own',
    (aggregator.observe artifact own).1 = (aggregator.observe artifact own').1

/-- The stages of a chain on an artifact that come before the aggregator of a number. -/
def stagesBefore (pipeline : Pipeline σ) (number : Nat) (artifact : Artifact) : List (Stage σ) :=
  stages { pipeline with aggregators := pipeline.aggregators.take number } artifact

/-- The artifact that comes to the aggregator of a number when the chain is given an artifact, if all stages before that
aggregator succeed. -/
def comesTo (pipeline : Pipeline σ) (state : PipelineState σ) (number : Nat) (artifact : Artifact) : Option Artifact :=
  (((pipeline.stagesBefore number artifact).foldlM Stage.perform artifact).run.run state).1.toOption

section
variable {pipeline : Pipeline σ} {state state' : PipelineState σ} {artifact : Artifact}

theorem Steady.prepare (h : pipeline.Steady) (artifact : Artifact) : (pipeline.prepare artifact).IgnoresSignal :=
  Task.ignoresSignal_composes.prepare h.document h.artifact artifact

theorem process_of_error {left : ArtifactBreakdown}
    (h : ((pipeline.prepare artifact).run.run state.signal).1 = .error left) :
    pipeline.process artifact state =
      (.error left, { state with signal := ((pipeline.prepare artifact).run.run state.signal).2 }) := by
  rw [process]
  generalize (pipeline.prepare artifact).run.run state.signal = prepared at h ⊢
  obtain ⟨result, signal⟩ := prepared
  obtain rfl : result = .error left := h
  rfl

theorem process_of_ok {prepared : Artifact}
    (h : ((pipeline.prepare artifact).run.run state.signal).1 = .ok prepared) :
    pipeline.process artifact state =
      ((callEach (·.observe prepared) pipeline.aggregators state.gathered).1.mapError (.mk prepared.id),
        { state with
          signal := ((pipeline.prepare artifact).run.run state.signal).2
          gathered := (callEach (·.observe prepared) pipeline.aggregators state.gathered).2 }) := by
  rw [process]
  generalize (pipeline.prepare artifact).run.run state.signal = outcome at h ⊢
  obtain ⟨result, signal⟩ := outcome
  obtain rfl : result = .ok prepared := h
  rfl

theorem attempt_snd (pipeline : Pipeline σ) (artifact : Artifact) (state : PipelineState σ) :
    (pipeline.attempt artifact state).2 = (pipeline.process artifact state).2 := by
  rw [attempt]
  rcases pipeline.process artifact state with ⟨left | _, after⟩ <;> rfl

theorem attempt_fst (pipeline : Pipeline σ) (artifact : Artifact) (state : PipelineState σ) :
    (pipeline.attempt artifact state).1 =
      match (pipeline.process artifact state).1 with
      | .ok () => none
      | .error left => some { artifactId := left.artifactId, message := left.breakdown.message } := by
  rw [attempt]
  rcases pipeline.process artifact state with ⟨left | _, after⟩ <;> rfl

/-- What becomes of the state when an artifact goes through the chain: signal and what is gathered may change. -/
theorem attempt_frame (pipeline : Pipeline σ) (artifact : Artifact) (state : PipelineState σ) :
    ∃ signal gathered, (pipeline.attempt artifact state).2 = { state with signal, gathered } ∧
      gathered.length = state.gathered.length := by
  rw [attempt_snd]
  rcases h : ((pipeline.prepare artifact).run.run state.signal).1 with left | prepared
  · rw [process_of_error h]
    exact ⟨_, state.gathered, rfl, rfl⟩
  · rw [process_of_ok h]
    exact ⟨_, _, rfl, length_callEach _ _ _⟩

theorem comesTo_of_error {left : ArtifactBreakdown} (number : Nat)
    (h : ((pipeline.prepare artifact).run.run state.signal).1 = .error left) :
    pipeline.comesTo state number artifact = none := by
  have hcut : prepare { pipeline with aggregators := pipeline.aggregators.take number } = pipeline.prepare := rfl
  rw [comesTo, stagesBefore, run_stages, hcut]
  generalize (pipeline.prepare artifact).run.run state.signal = outcome at h ⊢
  obtain ⟨result, signal⟩ := outcome
  obtain rfl : result = .error left := h
  rfl

theorem comesTo_of_ok {prepared : Artifact} (number : Nat)
    (h : ((pipeline.prepare artifact).run.run state.signal).1 = .ok prepared) :
    pipeline.comesTo state number artifact =
      ((callEach (·.observe prepared) (pipeline.aggregators.take number) state.gathered).1.map
        fun () => prepared).toOption := by
  have hcut : prepare { pipeline with aggregators := pipeline.aggregators.take number } = pipeline.prepare := rfl
  rw [comesTo, stagesBefore, run_stages, hcut]
  generalize (pipeline.prepare artifact).run.run state.signal = outcome at h ⊢
  obtain ⟨result, signal⟩ := outcome
  obtain rfl : result = .ok prepared := h
  dsimp only
  cases (callEach (·.observe prepared) (pipeline.aggregators.take number) state.gathered).1 <;> rfl

/-- An aggregator gathers an artifact if it comes to it. -/
theorem gathered_attempt {number : Nat} {aggregator : Aggregator σ} {own : σ}
    (haggregator : pipeline.aggregators[number]? = some aggregator) (hown : state.gathered[number]? = some own) :
    (pipeline.attempt artifact state).2.gathered[number]? =
      some (aggregator.replay own ((pipeline.comesTo state number artifact).toList.map .observe)) := by
  rw [attempt_snd]
  rcases h : ((pipeline.prepare artifact).run.run state.signal).1 with left | prepared
  · rw [process_of_error h, comesTo_of_error number h]
    exact hown
  · rw [process_of_ok h, comesTo_of_ok number h]
    dsimp only
    rcases hearlier : (callEach (·.observe prepared) (pipeline.aggregators.take number) state.gathered).1 with e | _
    · rw [getElem?_callEach_of_not_reaches, hown]
      · rfl
      · rw [← callEach_take_eq_ok_iff, hearlier]
        exact nofun
    · exact getElem?_callEach_of_reaches haggregator hown (callEach_take_eq_ok_iff.1 hearlier)

theorem Steady.comesTo_eq (h : pipeline.Steady) (hlength : state.gathered.length = state'.gathered.length)
    (number : Nat) (artifact : Artifact) :
    pipeline.comesTo state number artifact = pipeline.comesTo state' number artifact := by
  have hobserved (prepared : Artifact) :
      (callEach (·.observe prepared) (pipeline.aggregators.take number) state.gathered).1 =
        (callEach (·.observe prepared) (pipeline.aggregators.take number) state'.gathered).1 :=
    callEach_fst_congr hlength fun aggregator hmem =>
      h.aggregator aggregator (List.mem_of_mem_take hmem) prepared
  have hprepare := h.prepare artifact state.signal state'.signal
  rcases hresult : ((pipeline.prepare artifact).run.run state.signal).1 with left | prepared
  · rw [comesTo_of_error number hresult, comesTo_of_error number (hprepare.symm.trans hresult)]
  · rw [comesTo_of_ok number hresult, comesTo_of_ok number (hprepare.symm.trans hresult), hobserved]

theorem Steady.attempt_fst_eq (h : pipeline.Steady) (hlength : state.gathered.length = state'.gathered.length)
    (artifact : Artifact) : (pipeline.attempt artifact state).1 = (pipeline.attempt artifact state').1 := by
  have hprocess : (pipeline.process artifact state).1 = (pipeline.process artifact state').1 := by
    have hprepare := h.prepare artifact state.signal state'.signal
    rcases hresult : ((pipeline.prepare artifact).run.run state.signal).1 with left | prepared
    · rw [process_of_error hresult, process_of_error (hprepare.symm.trans hresult)]
    · rw [process_of_ok hresult, process_of_ok (hprepare.symm.trans hresult)]
      have hobserved := callEach_fst_congr hlength fun aggregator hmem => h.aggregator aggregator hmem prepared
      exact congrArg (Except.mapError _) hobserved
  rw [attempt_fst, attempt_fst, hprocess]

/-- What a stretch of a run makes of the state if these are the artifacts that each aggregator, by its number, observes
in the meantime. -/
structure Advances (pipeline : Pipeline σ) (observed : Nat → List Artifact) (state later : PipelineState σ) : Prop where
  concluded : later.concluded = state.concluded
  length : later.gathered.length = state.gathered.length
  gathered : ∀ (number : Nat) (aggregator : Aggregator σ) (own : σ), pipeline.aggregators[number]? = some aggregator →
    state.gathered[number]? = some own →
    later.gathered[number]? = some (aggregator.replay own ((observed number).map .observe))

namespace Advances

variable {observed observed' : Nat → List Artifact} {later last : PipelineState σ}

theorem refl (pipeline : Pipeline σ) (state : PipelineState σ) : pipeline.Advances (fun _ => []) state state :=
  ⟨rfl, rfl, fun _ _ _ _ hown => hown⟩

theorem trans (h : pipeline.Advances observed state later) (h' : pipeline.Advances observed' later last) :
    pipeline.Advances (fun number => observed number ++ observed' number) state last where
  concluded := h'.concluded.trans h.concluded
  length := h'.length.trans h.length
  gathered number aggregator own haggregator hown := by
    rw [List.map_append, Aggregator.replay_append]
    exact h'.gathered number aggregator _ haggregator (h.gathered number aggregator own haggregator hown)

theorem look (pipeline : Pipeline σ) (state : PipelineState σ) : pipeline.Advances (fun _ => []) state state.look := by
  rw [PipelineState.look]
  split <;> exact ⟨rfl, rfl, fun _ _ _ _ hown => hown⟩

theorem attempt (pipeline : Pipeline σ) (artifact : Artifact) (state : PipelineState σ) :
    pipeline.Advances (fun number => (pipeline.comesTo state number artifact).toList) state
      (pipeline.attempt artifact state).2 := by
  obtain ⟨signal, gathered, hafter, hlength⟩ := attempt_frame pipeline artifact state
  refine ⟨?_, ?_, fun number aggregator own => gathered_attempt⟩
  · rw [hafter]
  · rw [hafter]
    exact hlength

end Advances

end

end Pipeline

end TextAnnotation
