import TextAnnotation.Pipeline.Chain

/-!
The order in which a chain works. On an artifact a chain is a list of stages: for each document, in the order of their
names, the document processors one after the other; then the artifact processors; then the aggregators. The stages are
gone through up to the first that breaks off.
-/

namespace TextAnnotation

namespace TextMap

variable {α : Type}

theorem insertEntry_append {before : List (String × α)} {key : String} (h : ∀ entry ∈ before, entry.1 < key) (value : α)
    (after : List (String × α)) : insertEntry key value (before ++ after) = before ++ insertEntry key value after := by
  induction before with
  | nil => rfl
  | cons entry before ih =>
    obtain ⟨hlt, hbefore⟩ := List.forall_mem_cons.1 h
    have hne : key ≠ entry.1 := fun heq => String.lt_irrefl key (heq ▸ hlt)
    have hnlt : ¬ key < entry.1 := String.lt_asymm hlt
    rw [List.cons_append, insertEntry, if_neg hne, if_neg hnlt, ih hbefore, List.cons_append]

theorem insertEntry_insertEntry (key : String) (first second : α) (entries : List (String × α)) :
    insertEntry key second (insertEntry key first entries) = insertEntry key second entries := by
  induction entries with
  | nil => simp [insertEntry]
  | cons entry entries ih =>
    obtain ⟨k, v⟩ := entry
    simp only [insertEntry]
    split
    · simp [insertEntry]
    · rename_i hne
      split
      · simp [insertEntry]
      · rename_i hnlt
        simp [insertEntry, hne, hnlt, ih]

theorem ext_entries {m m' : TextMap α} (h : m.entries = m'.entries) : m = m' := by
  cases m
  cases m'
  cases h
  rfl

theorem insert_insert (m : TextMap α) (key : String) (first second : α) :
    (m.insert key first).insert key second = m.insert key second :=
  ext_entries (insertEntry_insertEntry key first second m.entries)

/-- Where the entries of a map fall into those before a key, the one of the key and those after it. -/
structure Splits (m : TextMap α) (before : List (String × α)) (key : String) (value : α) (after : List (String × α)) :
    Prop where
  entries : m.entries = before ++ (key, value) :: after

namespace Splits

variable {m : TextMap α} {before after : List (String × α)} {key : String} {value : α}

theorem lt (h : m.Splits before key value after) : ∀ entry ∈ before, entry.1 < key := by
  have hascending := m.ascending
  rw [h.entries] at hascending
  intro entry hentry
  exact (List.pairwise_append.1 hascending).2.2 entry hentry _ List.mem_cons_self

theorem find? (h : m.Splits before key value after) : m.find? key = some value := by
  have hfree : before.lookup key = none := by
    rw [List.lookup_eq_none_iff]
    intro entry hentry
    have hlt := h.lt entry hentry
    exact bne_iff_ne.2 fun heq => String.lt_irrefl key (heq ▸ hlt)
  rw [TextMap.find?, h.entries, List.lookup_append, hfree, Option.none_or, List.lookup_cons, beq_self_eq_true]

theorem insert (h : m.Splits before key value after) (new : α) :
    (m.insert key new).entries = before ++ (key, new) :: after := by
  change insertEntry key new m.entries = _
  rw [h.entries, insertEntry_append h.lt, insertEntry, if_pos rfl]

theorem insert_self (h : m.Splits before key value after) : m.insert key value = m :=
  ext_entries ((h.insert value).trans h.entries.symm)

end Splits

end TextMap

/-- What is done in the course of a run: it gives a result or breaks off, and changes the state of the run. -/
abbrev Work (σ ε : Type) := ExceptT ε (StateM (PipelineState σ))

/-- A stage of a chain. -/
inductive Stage (σ : Type) where
  /-- A document processor on the document of a name. -/
  | onDocument (name : String) (processor : DocumentProcessor)
  | onArtifact (processor : ArtifactProcessor)
  /-- The aggregator of a number. -/
  | observation (number : Nat) (aggregator : Aggregator σ)

section
variable {σ ε ε' α β : Type}

/-- A task as part of a run. -/
def Task.inRun (task : Task ε α) : Work σ ε α :=
  ExceptT.mk fun state =>
    let (result, signal) := task.run.run state.signal
    (result, { state with signal })

/-- A stage on an artifact that the stages before it have left so. -/
def Stage.perform (artifact : Artifact) : Stage σ → Work σ ArtifactBreakdown Artifact
  | onDocument name processor =>
    match artifact.document? name with
    | some document => do
      let document ← Task.inRun ((processor document).adapt (.mk artifact.id))
      return { artifact with documents := artifact.documents.insert name document }
    | none => return artifact
  | onArtifact processor => (processor artifact).inRun
  | observation number aggregator => ExceptT.mk fun state =>
    match state.gathered[number]? with
    | some gathered =>
      let (result, gathered) := aggregator.observe artifact gathered
      ((result.mapError (.mk artifact.id)).map fun () => artifact,
        { state with gathered := state.gathered.set number gathered })
    | none => (.ok artifact, state)

/-- Stages one after the other, up to the first that breaks off. -/
def Stage.performAll (stages : List (Stage σ)) (artifact : Artifact) : Work σ ArtifactBreakdown Unit := do
  let _ ← stages.foldlM Stage.perform artifact

/-- The stages of a chain on an artifact. The documents are those that the artifact comes with. -/
def Pipeline.stages (pipeline : Pipeline σ) (artifact : Artifact) : List (Stage σ) :=
  artifact.documents.keys.flatMap (fun name => pipeline.documentProcessors.map (.onDocument name)) ++
    (pipeline.artifactProcessors.map .onArtifact ++ pipeline.aggregators.mapIdx .observation)

theorem run_bind_stateM {S : Type} (task : ExceptT ε (StateM S) α) (next : α → ExceptT ε (StateM S) β) (s : S) :
    (task >>= next).run.run s =
      match task.run.run s with
      | (.ok a, s) => (next a).run.run s
      | (.error e, s) => (.error e, s) := by
  simp only [ExceptT.run, StateT.run, bind, ExceptT.bind, ExceptT.mk, ExceptT.bindCont, StateT.bind]
  rcases h : task s with ⟨e | a, s⟩
  · rfl
  · rfl

namespace Task

theorem run_inRun (task : Task ε α) (state : PipelineState σ) :
    task.inRun.run.run state =
      ((task.run.run state.signal).1, { state with signal := (task.run.run state.signal).2 }) := rfl

theorem run_adapt (change : ε → ε') (task : Task ε α) (signal : StopSignal) :
    (task.adapt change).run.run signal =
      ((task.run.run signal).1.mapError change, (task.run.run signal).2) := rfl

theorem adapt_bind (change : ε → ε') (task : Task ε α) (next : α → Task ε β) :
    ExceptT.adapt change (task >>= next) = (task.adapt change >>= fun a => (next a).adapt change : Task ε' β) := by
  funext signal
  change (ExceptT.adapt change (task >>= next)).run.run signal =
    (task.adapt change >>= fun a => (next a).adapt change : Task ε' β).run.run signal
  rw [run_bind_stateM, run_adapt, run_adapt, run_bind_stateM]
  rcases task.run.run signal with ⟨e | a, signal⟩
  · rfl
  · rfl

theorem inRun_pure (a : α) : (pure a : Task ε α).inRun = (pure a : Work σ ε α) := rfl

theorem inRun_bind (task : Task ε α) (next : α → Task ε β) :
    (task >>= next).inRun = (task.inRun >>= fun a => (next a).inRun : Work σ ε β) := by
  funext state
  change (task >>= next).inRun.run.run state = (task.inRun >>= fun a => (next a).inRun : Work σ ε β).run.run state
  rw [run_bind_stateM, run_inRun, run_inRun, run_bind_stateM]
  rcases task.run.run state.signal with ⟨breakdown | a, signal⟩
  · rfl
  · rfl

theorem inRun_foldlM (step : α → β → Task ε α) (items : List β) (a : α) :
    (items.foldlM step a).inRun = (items.foldlM (fun a b => (step a b).inRun) a : Work σ ε α) := by
  induction items generalizing a with
  | nil => rfl
  | cons item items ih =>
    rw [List.foldlM_cons, List.foldlM_cons, inRun_bind]
    exact bind_congr fun a => ih a

end Task

namespace Pipeline

/-- The document processors on one of the documents of an artifact. -/
theorem foldlM_onDocument (processors : List DocumentProcessor) (artifact : Artifact) (documents : TextMap Document)
    (name : String) (document : Document) :
    (processors.map (.onDocument name)).foldlM Stage.perform
        { artifact with documents := documents.insert name document } =
      (do
        let document ← Task.inRun (ExceptT.adapt (.mk artifact.id)
          (processors.foldlM (fun document processor => processor document) document))
        return { artifact with documents := documents.insert name document } : Work σ ArtifactBreakdown Artifact) := by
  induction processors generalizing document with
  | nil => rfl
  | cons processor processors ih =>
    have hfound : Artifact.document? { artifact with documents := documents.insert name document } name =
        some document := TextMap.find?_insert_self _ _ _
    rw [List.map_cons, List.foldlM_cons, List.foldlM_cons, Task.adapt_bind, Task.inRun_bind, bind_assoc, Stage.perform]
    simp only [hfound, bind_assoc, pure_bind, TextMap.insert_insert, ih]

/-- The document processors on the documents that are left, when `before` are done. -/
theorem foldlM_documents (pipeline : Pipeline σ) (artifact : Artifact) {before after : List (String × Document)}
    {documents changed : TextMap Document} (hdocuments : documents.entries = before ++ after)
    (hchanged : changed.entries = before) :
    ((after.map (·.1)).flatMap fun name => pipeline.documentProcessors.map (.onDocument name)).foldlM Stage.perform
        { artifact with documents } =
      (do
        let documents ← (after.foldlM (fun (changed : TextMap Document) (entry : String × Document) => do
          return changed.insert entry.1 (← (pipeline.processDocument entry.2).adapt (.mk artifact.id))) changed :
          Task ArtifactBreakdown _).inRun
        return { artifact with documents } : Work σ ArtifactBreakdown Artifact) := by
  induction after generalizing before documents changed with
  | nil =>
    rw [List.append_nil, ← hchanged] at hdocuments
    rw [TextMap.ext_entries hdocuments]
    rfl
  | cons entry after ih =>
    obtain ⟨name, document⟩ := entry
    have hsplits : documents.Splits before name document after := ⟨hdocuments⟩
    have hnext (new : Document) : (changed.insert name new).entries = before ++ [(name, new)] := by
      have hend := TextMap.insertEntry_append hsplits.lt new []
      rw [List.append_nil, ← hchanged] at hend
      rw [← hchanged]
      exact hend
    have hdone (new : Document) : (documents.insert name new).entries = (before ++ [(name, new)]) ++ after := by
      rw [hsplits.insert, List.append_assoc, List.singleton_append]
    conv => lhs; rw [← hsplits.insert_self]
    rw [List.map_cons, List.flatMap_cons, List.foldlM_append, foldlM_onDocument, List.foldlM_cons, Task.inRun_bind,
      Task.inRun_bind]
    simp only [bind_assoc, pure_bind, Task.inRun_pure]
    exact bind_congr fun new => ih (hdone new) (hnext new)

theorem foldlM_processDocuments (pipeline : Pipeline σ) (artifact : Artifact) :
    (artifact.documents.keys.flatMap fun name => pipeline.documentProcessors.map (.onDocument name)).foldlM
        Stage.perform artifact =
      ((pipeline.processDocuments artifact).inRun : Work σ ArtifactBreakdown Artifact) := by
  rw [processDocuments, Task.inRun_bind]
  exact foldlM_documents pipeline artifact (List.nil_append _).symm rfl

theorem mapIdx_observation_cons (aggregator : Aggregator σ) (aggregators : List (Aggregator σ)) (first : Nat) :
    ((aggregator :: aggregators).mapIdx fun number => Stage.observation (first + number)) =
      .observation first aggregator :: aggregators.mapIdx fun number => .observation (first + 1 + number) := by
  rw [List.mapIdx_cons]
  simp only [Nat.add_zero, Nat.add_right_comm first 1, Nat.add_assoc]

theorem run_observation (artifact : Artifact) (number : Nat) (aggregator : Aggregator σ) (state : PipelineState σ) :
    (Stage.perform artifact (.observation number aggregator)).run.run state =
      match state.gathered[number]? with
      | some gathered =>
        (((aggregator.observe artifact gathered).1.mapError (.mk artifact.id)).map fun () => artifact,
          { state with gathered := state.gathered.set number (aggregator.observe artifact gathered).2 })
      | none => (.ok artifact, state) := rfl

/-- Aggregators for which nothing has been gathered are not called. -/
theorem foldlM_observation_of_length_le (artifact : Artifact) (aggregators : List (Aggregator σ)) {first : Nat}
    {state : PipelineState σ} (h : state.gathered.length ≤ first) :
    ((aggregators.mapIdx fun number => .observation (first + number)).foldlM Stage.perform artifact).run.run state =
      (.ok artifact, state) := by
  induction aggregators generalizing first with
  | nil => rfl
  | cons aggregator aggregators ih =>
    rw [mapIdx_observation_cons, List.foldlM_cons, run_bind_stateM, run_observation, List.getElem?_eq_none h]
    exact ih (Nat.le_succ_of_le h)

/-- The aggregators from a number on. -/
theorem foldlM_observation (artifact : Artifact) (aggregators : List (Aggregator σ)) (done gathered : List σ)
    (state : PipelineState σ) :
    ((aggregators.mapIdx fun number => .observation (done.length + number)).foldlM Stage.perform artifact).run.run
        { state with gathered := done ++ gathered } =
      (((callEach (·.observe artifact) aggregators gathered).1.mapError (.mk artifact.id)).map fun () => artifact,
        { state with gathered := done ++ (callEach (·.observe artifact) aggregators gathered).2 }) := by
  induction aggregators generalizing done gathered with
  | nil => cases gathered <;> rfl
  | cons aggregator aggregators ih =>
    cases gathered with
    | nil =>
      apply foldlM_observation_of_length_le
      exact Nat.le_of_eq (congrArg List.length (List.append_nil done))
    | cons gathered rest =>
      have hfound : (done ++ gathered :: rest)[done.length]? = some gathered := by
        rw [List.getElem?_append_right (Nat.le_refl _), Nat.sub_self, List.getElem?_cons_zero]
      have hset (new : σ) : (done ++ gathered :: rest).set done.length new = done ++ [new] ++ rest := by
        rw [List.set_append_right _ _ (Nat.le_refl _), Nat.sub_self, List.set_cons_zero, List.append_assoc,
          List.singleton_append]
      have hlength (new : σ) : (done ++ [new]).length = done.length + 1 := List.length_append
      rw [mapIdx_observation_cons, List.foldlM_cons, run_bind_stateM, run_observation]
      simp only [hfound, hset, callEach]
      rcases aggregator.observe artifact gathered with ⟨breakdown | _, new⟩
      · rw [List.append_assoc, List.singleton_append]
        rfl
      · have hlater := ih (done ++ [new]) rest
        simp only [hlength, List.append_assoc, List.singleton_append] at hlater ⊢
        exact hlater

theorem foldlM_stages (pipeline : Pipeline σ) (artifact : Artifact) :
    (pipeline.stages artifact).foldlM Stage.perform artifact =
      (do
        let artifact ← (pipeline.prepare artifact).inRun
        (pipeline.aggregators.mapIdx .observation).foldlM Stage.perform artifact : Work σ ArtifactBreakdown Artifact) := by
  rw [stages, List.foldlM_append, foldlM_processDocuments, prepare, Task.inRun_bind, bind_assoc]
  apply bind_congr
  intro artifact
  rw [List.foldlM_append, List.foldlM_map, Task.inRun_foldlM]
  rfl

/-- What the stages of a chain come to, one after the other. -/
theorem run_stages (pipeline : Pipeline σ) (artifact : Artifact) (state : PipelineState σ) :
    ((pipeline.stages artifact).foldlM Stage.perform artifact).run.run state =
      match (pipeline.prepare artifact).run.run state.signal with
      | (.error breakdown, signal) => (.error breakdown, { state with signal })
      | (.ok prepared, signal) =>
        (((callEach (·.observe prepared) pipeline.aggregators state.gathered).1.mapError (.mk prepared.id)).map
            fun () => prepared,
          { state with signal, gathered := (callEach (·.observe prepared) pipeline.aggregators state.gathered).2 }) := by
  rw [foldlM_stages, run_bind_stateM, Task.run_inRun]
  rcases (pipeline.prepare artifact).run.run state.signal with ⟨breakdown | prepared, signal⟩
  · rfl
  · have hobserved := foldlM_observation prepared pipeline.aggregators [] state.gathered { state with signal }
    simp only [List.length_nil, Nat.zero_add, List.nil_append] at hobserved
    exact hobserved

/-- A chain goes through its stages on an artifact, in order and up to the first that breaks off. -/
theorem process_eq_performAll (pipeline : Pipeline σ) (artifact : Artifact) (state : PipelineState σ) :
    pipeline.process artifact state = (Stage.performAll (pipeline.stages artifact) artifact).run.run state := by
  rw [process, Stage.performAll, run_bind_stateM, run_stages]
  rcases (pipeline.prepare artifact).run.run state.signal with ⟨breakdown | prepared, signal⟩
  · rfl
  · dsimp only
    cases (callEach (·.observe prepared) pipeline.aggregators state.gathered).1 <;> rfl

end Pipeline

end

end TextAnnotation
