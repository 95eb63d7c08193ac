import TextAnnotation.Pipeline.Supply

/-!
How the files of a directory are supplied. Each call hands out the next file that can be read and passes over those
before it that cannot, so that at any time every file found is handed out, passed over or still to come.
-/

namespace TextAnnotation

def Files.isReadable (files : Files) (path : RelativePath) : Bool := (files.readAt path).isOk

namespace TextFiles

/-- The artifact of a file, if the file can be read. -/
def artifact? (files : Files) (source : TextFiles) (path : RelativePath) : Option Artifact :=
  (files.readAt path).toOption.map fun bytes =>
    (Artifact.ofText (source.identifier path) source.documentName (source.charset.decode bytes)).setMetadata
      "relativePath" (RelativePath.render ((source.directory.below? path).getD path))

/-- The artifacts of some files, without those that cannot be read. -/
def artifacts (files : Files) (source : TextFiles) (paths : List RelativePath) : List Artifact :=
  paths.filterMap (source.artifact? files)

def unreadable (files : Files) (paths : List RelativePath) : List RelativePath :=
  paths.filter fun path => !files.isReadable path

/-- A source that has seen some of the files found and has others left. -/
def having (files : Files) (source : TextFiles) (seen rest : List RelativePath) : TextFiles :=
  { source with queue := rest, passedOver := (unreadable files seen).reverse }

/-- The source and what the consumer makes of the artifacts, after some calls. -/
def afterCalls (files : Files) (consume : Artifact → σ → σ) (source : TextFiles) (state : σ) : Nat → TextFiles × σ
  | 0 => (source, state)
  | calls + 1 =>
    let (source, state) := afterCalls files consume source state calls
    (source.advance files consume state).2

/-- What a call can do: hand out the first file that can be read, or find none. -/
inductive Step (files : Files) (consume : Artifact → σ → σ) (source : TextFiles) (state : σ) :
    Except PipelineError Bool × TextFiles × σ → Prop where
  | supplied {passed rest : List RelativePath} {path : RelativePath} {artifact : Artifact}
    (queue : source.queue = passed ++ path :: rest) (fails : ∀ path ∈ passed, files.isReadable path = false)
    (found : source.artifact? files path = some artifact) :
    Step files consume source state
      (.ok true, { source with queue := rest, passedOver := passed.reverse ++ source.passedOver },
        consume artifact state)
  | ended (fails : ∀ path ∈ source.queue, files.isReadable path = false) :
    Step files consume source state
      (.ok false, { source with queue := [], passedOver := source.queue.reverse ++ source.passedOver }, state)

section
variable {files : Files} {consume : Artifact → σ → σ} {source : TextFiles} {state : σ}

theorem artifact?_eq_none_iff {path : RelativePath} :
    source.artifact? files path = none ↔ files.isReadable path = false := by
  simp only [artifact?, Files.isReadable, Option.map_eq_none_iff]
  cases files.readAt path <;> simp [Except.toOption, Except.isOk, Except.toBool]

/-- An artifact has no document yet when that of its file is added. -/
theorem read_eq_ok {path : RelativePath} {artifact : Artifact} (h : source.artifact? files path = some artifact) :
    source.read files path = .ok artifact := by
  simp only [artifact?] at h
  simp only [read]
  cases hread : files.readAt path with
  | error failure =>
    rw [hread] at h
    cases h
  | ok bytes =>
    rw [hread] at h
    cases h
    rfl

theorem read_eq_error {path : RelativePath} (h : source.artifact? files path = none) :
    ∃ written failure, source.read files path = .error (.unreadable written failure) := by
  simp only [artifact?] at h
  simp only [read]
  cases hread : files.readAt path with
  | error failure => exact ⟨_, failure, rfl⟩
  | ok bytes =>
    rw [hread] at h
    cases h

theorem step_go (queue passedOver : List RelativePath) :
    Step files consume { source with queue, passedOver } state
      (advance.go files consume source state queue passedOver) := by
  induction queue generalizing passedOver with
  | nil => exact .ended (by simp)
  | cons path queue ih =>
    rw [advance.go]
    cases hartifact : source.artifact? files path with
    | some artifact =>
      rw [read_eq_ok hartifact]
      exact @Step.supplied _ files consume { source with queue := path :: queue, passedOver } state [] queue path artifact
        rfl (by simp) hartifact
    | none =>
      have hfails := artifact?_eq_none_iff.1 hartifact
      obtain ⟨written, failure, hread⟩ := read_eq_error hartifact
      rw [hread]
      have hstep := ih (path :: passedOver)
      dsimp only
      generalize advance.go files consume source state queue (path :: passedOver) = result at hstep
      cases hstep with
      | @supplied passed rest next artifact hqueue hpassed hfound =>
        have hstep := @Step.supplied _ files consume { source with queue := path :: queue, passedOver } state
          (path :: passed) rest next artifact (congrArg (path :: ·) hqueue)
          (List.forall_mem_cons.2 ⟨hfails, hpassed⟩) hfound
        simpa using hstep
      | ended hrest =>
        have hstep := @Step.ended _ files consume { source with queue := path :: queue, passedOver } state
          (List.forall_mem_cons.2 ⟨hfails, hrest⟩)
        simpa using hstep

theorem step_advance : Step files consume source state (source.advance files consume state) :=
  step_go source.queue source.passedOver

theorem artifacts_append (seen rest : List RelativePath) :
    source.artifacts files (seen ++ rest) = source.artifacts files seen ++ source.artifacts files rest :=
  List.filterMap_append

theorem artifacts_of_fails {paths : List RelativePath} (h : ∀ path ∈ paths, files.isReadable path = false) :
    source.artifacts files paths = [] :=
  List.filterMap_eq_nil_iff.2 fun path hpath => artifact?_eq_none_iff.2 (h path hpath)

theorem unreadable_append (seen rest : List RelativePath) :
    unreadable files (seen ++ rest) = unreadable files seen ++ unreadable files rest :=
  List.filter_append seen rest

theorem unreadable_of_fails {paths : List RelativePath} (h : ∀ path ∈ paths, files.isReadable path = false) :
    unreadable files paths = paths :=
  List.filter_eq_self.2 fun path hpath => by rw [h path hpath]; rfl

theorem unreadable_of_readable {path : RelativePath} (h : files.isReadable path = true) :
    unreadable files [path] = [] :=
  List.filter_eq_nil_iff.2 fun other hother => by rw [List.mem_singleton.1 hother, h]; decide

theorem isReadable_of_artifact? {path : RelativePath} {artifact : Artifact}
    (h : source.artifact? files path = some artifact) : files.isReadable path = true := by
  rw [← Bool.not_eq_false, ← @artifact?_eq_none_iff files source path, h]
  exact Option.some_ne_none artifact

/-- A file is either handed out or passed over. -/
theorem length_artifacts_add (paths : List RelativePath) :
    (source.artifacts files paths).length + (unreadable files paths).length = paths.length := by
  induction paths with
  | nil => rfl
  | cons path paths ih =>
    simp only [artifacts, unreadable] at ih ⊢
    cases hartifact : source.artifact? files path with
    | none =>
      have hfails := artifact?_eq_none_iff.1 hartifact
      rw [List.filterMap_cons_none hartifact, List.filter_cons_of_pos (by rw [hfails]; rfl)]
      simp only [List.length_cons]
      omega
    | some artifact =>
      have hreadable := isReadable_of_artifact? hartifact
      rw [List.filterMap_cons_some hartifact, List.filter_cons_of_neg (by rw [hreadable]; decide)]
      simp only [List.length_cons]
      omega

/-- A call moves files from those left to those seen: up to the first that can be read, or all of them. -/
theorem advance_having (seen rest : List RelativePath) :
    (∃ passed later artifact, rest = passed ++ later ∧ passed ≠ [] ∧ source.artifacts files passed = [artifact] ∧
      (source.having files seen rest).advance files consume state =
        (.ok true, source.having files (seen ++ passed) later, consume artifact state)) ∨
    (source.artifacts files rest = [] ∧
      (source.having files seen rest).advance files consume state =
        (.ok false, source.having files (seen ++ rest) [], state)) := by
  have hstep : Step files consume (source.having files seen rest) state _ := step_advance
  generalize (source.having files seen rest).advance files consume state = result at hstep ⊢
  cases hstep with
  | @supplied passed later path artifact hqueue hpassed hfound =>
    have hartifact : source.artifact? files path = some artifact := hfound
    have hreadable := isReadable_of_artifact? hartifact
    have hqueue : rest = passed ++ path :: later := hqueue
    have hsupplied : source.artifacts files (passed ++ [path]) = [artifact] := by
      rw [artifacts_append, artifacts_of_fails hpassed]
      exact List.filterMap_cons_some hartifact
    have hskipped : unreadable files (seen ++ (passed ++ [path])) = unreadable files seen ++ passed := by
      rw [unreadable_append, unreadable_append, unreadable_of_fails hpassed, unreadable_of_readable hreadable,
        List.append_nil]
    apply Or.inl
    exact ⟨passed ++ [path], later, artifact, by simp [hqueue], by simp, hsupplied, by simp [having, hskipped]⟩
  | ended hfails =>
    have hfails : ∀ path ∈ rest, files.isReadable path = false := hfails
    have hskipped : unreadable files (seen ++ rest) = unreadable files seen ++ rest := by
      rw [unreadable_append, unreadable_of_fails hfails]
    apply Or.inr
    exact ⟨artifacts_of_fails hfails, by simp [having, hskipped]⟩

theorem drainUpTo_having (seen rest : List RelativePath) {most : Nat} (h : rest.length < most) :
    drainUpTo files consume most (source.having files seen rest) state =
      (.ok false, source.having files (seen ++ rest) [],
        (source.artifacts files rest).foldl (fun state artifact => consume artifact state) state) := by
  induction most generalizing seen rest state with
  | zero => cases h
  | succ most ih =>
    rw [drainUpTo]
    rcases @advance_having _ files consume source state seen rest with
      ⟨passed, later, artifact, hrest, hne, hartifact, hadvance⟩ | ⟨hnone, hadvance⟩
    · have hpassed : 0 < passed.length := List.length_pos_iff.2 hne
      have hlater : later.length < most := by
        rw [hrest, List.length_append] at h
        omega
      rw [hadvance, hrest, artifacts_append, hartifact]
      dsimp only
      rw [ih (seen ++ passed) later hlater, List.append_assoc]
      rfl
    · rw [hadvance, hnone]
      rfl

theorem having_nil_queue (hpassed : source.passedOver = []) : source.having files [] source.queue = source :=
  congrArg _ hpassed.symm

/-- At any time the files found are those seen, handed out if they could be read, and those still left. -/
theorem afterCalls_eq (hpassed : source.passedOver = []) (calls : Nat) :
    ∃ seen rest, source.queue = seen ++ rest ∧
      afterCalls files consume source state calls = (source.having files seen rest,
        (source.artifacts files seen).foldl (fun state artifact => consume artifact state) state) ∧
      (source.artifacts files seen).length = min calls (source.artifacts files source.queue).length := by
  induction calls with
  | zero => exact ⟨[], source.queue, rfl, by rw [having_nil_queue hpassed]; rfl, (Nat.zero_min _).symm⟩
  | succ calls ih =>
    obtain ⟨seen, rest, hqueue, hafter, hlength⟩ := ih
    have hall : (source.artifacts files source.queue).length =
        (source.artifacts files seen).length + (source.artifacts files rest).length := by
      rw [hqueue, artifacts_append, List.length_append]
    rw [afterCalls, hafter]
    dsimp only
    rcases advance_having seen rest with ⟨passed, later, artifact, hrest, _, hartifact, hadvance⟩ | ⟨hnone, hadvance⟩
    · have hsupplied : source.artifacts files (seen ++ passed) = source.artifacts files seen ++ [artifact] := by
        rw [artifacts_append, hartifact]
      have hcount : (source.artifacts files (seen ++ passed)).length =
          min (calls + 1) (source.artifacts files source.queue).length := by
        rw [hrest, artifacts_append, hartifact, List.length_append] at hall
        rw [hsupplied, List.length_append]
        simp only [List.length_singleton] at hall ⊢
        omega
      exact ⟨seen ++ passed, later, by rw [hqueue, hrest, List.append_assoc],
        by rw [hadvance, hsupplied, List.foldl_append]; rfl, hcount⟩
    · have hsupplied : source.artifacts files (seen ++ rest) = source.artifacts files seen := by
        rw [artifacts_append, hnone, List.append_nil]
      have hcount : (source.artifacts files (seen ++ rest)).length =
          min (calls + 1) (source.artifacts files source.queue).length := by
        rw [hnone, List.length_nil] at hall
        rw [hsupplied]
        omega
      exact ⟨seen ++ rest, [], by rw [hqueue, List.append_nil], by rw [hadvance, hsupplied], hcount⟩

theorem total_having (seen rest : List RelativePath) (htotal : source.total = (seen ++ rest).length) :
    (source.having files seen rest).total =
      (source.artifacts files seen).length + (source.having files seen rest).skipped.length + rest.length := by
  have hseen := @length_artifacts_add files source seen
  simp only [having, skipped, List.reverse_reverse, htotal, List.length_append]
  omega

/-- After some calls the artifacts of the first files that can be read are handed out, and another call finds the
next one, if there is one. -/
theorem afterCalls_of_found (hpassed : source.passedOver = []) (htotal : source.total = source.queue.length)
    (calls : Nat) :
    let supplied := source.artifacts files source.queue
    let now := afterCalls files consume source state calls
    (now.1.advance files consume now.2).1 = .ok (decide (calls < supplied.length)) ∧
      now.2 = (supplied.take calls).foldl (fun state artifact => consume artifact state) state ∧
      now.1.total = (supplied.take calls).length + now.1.skipped.length + now.1.queue.length := by
  obtain ⟨seen, rest, hqueue, hafter, hlength⟩ := @afterCalls_eq _ files consume source state hpassed calls
  have hall : source.artifacts files source.queue = source.artifacts files seen ++ source.artifacts files rest := by
    rw [hqueue, artifacts_append]
  have hcount : (source.artifacts files source.queue).length =
      (source.artifacts files seen).length + (source.artifacts files rest).length := by
    rw [hall, List.length_append]
  have hlater : (source.artifacts files rest).take (calls - (source.artifacts files seen).length) = [] := by
    rw [List.take_eq_nil_iff, ← List.length_eq_zero_iff]
    omega
  have htake : (source.artifacts files source.queue).take calls = source.artifacts files seen := by
    rw [hall, List.take_append, List.take_of_length_le (by omega), hlater, List.append_nil]
  dsimp only
  rw [hafter, htake]
  apply And.intro _ (And.intro rfl (total_having seen rest (hqueue ▸ htotal)))
  rcases advance_having seen rest with ⟨passed, later, artifact, hrest, _, hartifact, hadvance⟩ | ⟨hnone, hadvance⟩
  · have hmore : 0 < (source.artifacts files rest).length := by
      rw [hrest, artifacts_append, hartifact, List.length_append]
      exact Nat.add_pos_left Nat.one_pos _
    rw [hadvance, decide_eq_true (by omega)]
  · rw [hnone, List.length_nil] at hcount
    rw [hadvance, decide_eq_false (by omega)]

theorem drain_eq (hpassed : source.passedOver = []) :
    source.drain files = (source.artifacts files source.queue, source.having files source.queue []) := by
  have hdrain := @drainUpTo_having _ files List.cons source [] [] source.queue _ (Nat.lt_succ_self _)
  rw [having_nil_queue hpassed] at hdrain
  rw [drain, hdrain]
  simp

end

/-- Whatever files a walk has found, and whichever of them cannot be read when their turn comes, no call fails. Each
call hands the consumer the artifact of one more file that can be read, in the order of the walk, as long as there is
one, and no call does after that; all the while the files found are those handed out, those passed over and those
left. Calls until one finds no file leave none, and the files passed over are those that cannot be read, in order. -/
theorem supplies_readable_files (files : Files) (directory : RelativePath) (extension documentName : String)
    (charset : Charset) (found : List RelativePath) (consume : Artifact → σ → σ) (state : σ) :
    let source := ofFound directory extension documentName charset found
    let supplied := source.artifacts files found
    (∀ calls : Nat,
      let now := afterCalls files consume source state calls
      (now.1.advance files consume now.2).1 = .ok (decide (calls < supplied.length)) ∧
        now.2 = (supplied.take calls).foldl (fun state artifact => consume artifact state) state ∧
        now.1.total = (supplied.take calls).length + now.1.skipped.length + now.1.queue.length) ∧
    ∃ drained,
      drainUpTo files consume (found.length + 1) source state =
        (.ok false, drained, supplied.foldl (fun state artifact => consume artifact state) state) ∧
      source.drain files = (supplied, drained) ∧ drained.queue = [] ∧
      drained.skipped = unreadable files found ∧ drained.total = supplied.length + drained.skipped.length := by
  intro source supplied
  apply And.intro (afterCalls_of_found rfl rfl)
  have hdrain := @drainUpTo_having _ files consume source state [] found _ (Nat.lt_succ_self _)
  have htotal : (source.having files found []).total = _ :=
    total_having found [] (congrArg List.length (List.append_nil found).symm)
  exact ⟨source.having files found [], hdrain, drain_eq rfl, rfl, List.reverse_reverse _, htotal⟩

end TextFiles

end TextAnnotation
