import JobFlow.Proofs.Dag.Coherence

/-!
The counters of a job. They move only when a live job hears for the first time how one of its vertices
ended, and then one of them goes up by one. Main statement: after whatever a job was sent, its counters are
the numbers of the endings that it has counted, and neither an ending nor a diagnostic is ever taken back.
-/

namespace JobFlow.Dag

/-- A signal that tells a live job how a vertex ended which the job has not counted yet. -/
structure Counts (dag : Dag) (signal : DagSignal) (vertex : VertexId) (phase : Phase) : Prop where
  told : signal = .vertexCompleted vertex phase
  live : dag.phase = .running ∨ dag.phase = .killWait
  terminal : phase.isTerminal = true
  known : vertex.index < dag.vertexCount
  uncounted : dag.isCounted vertex = false

/-- How many vertices succeeded, failed and were killed. -/
def counters (dag : Dag) : Nat × Nat × Nat := (dag.succeeded, dag.failed, dag.killed)

/-- The counters with one more ending. -/
def countersWith (dag : Dag) : Phase → Nat × Nat × Nat
  | .succeeded => (dag.succeeded + 1, dag.failed, dag.killed)
  | .failed | .error => (dag.succeeded, dag.failed + 1, dag.killed)
  | .killed => (dag.succeeded, dag.failed, dag.killed + 1)
  | .new | .inited | .running | .killWait => dag.counters

variable {dag : Dag}

/-! ### What moves no counter -/

theorem windUp_keeps (dag : Dag) (fresh : Bool) :
    (dag.windUp fresh).machine.counters = dag.counters ∧
      (dag.windUp fresh).machine.diagnostics = dag.diagnostics := by
  rw [windUp, Step.machine_andThen]
  split <;> exact ⟨rfl, rfl⟩

theorem endInError_keeps (dag : Dag) : dag.endInError.machine.counters = dag.counters ∧
    dag.endInError.machine.diagnostics = dag.diagnostics := by
  rw [endInError, Step.machine_andThen]
  split <;> exact ⟨rfl, rfl⟩

/-- What was noted before a job winds up is kept. -/
theorem notes_windUp {job : Dag} (hnotes : dag.diagnostics <+: job.diagnostics) (fresh : Bool) :
    dag.diagnostics <+: (job.windUp fresh).machine.diagnostics := by
  rw [(windUp_keeps job fresh).2]
  exact hnotes

theorem notes_endInError {job : Dag} (hnotes : dag.diagnostics <+: job.diagnostics) :
    dag.diagnostics <+: job.endInError.machine.diagnostics := by
  rw [(endInError_keeps job).2]
  exact hnotes

theorem counters_violate (dag : Dag) (reason : DagViolation) :
    (dag.violate reason).machine.counters = dag.counters :=
  (endInError_keeps (dag.note (.violation reason))).1

theorem notes_violate (dag : Dag) (reason : DagViolation) :
    dag.diagnostics <+: (dag.violate reason).machine.diagnostics :=
  notes_endInError (List.prefix_append _ _)

theorem counters_killByUser (dag : Dag) : dag.killByUser.machine.counters = dag.counters := by
  rw [killByUser]
  dsimp only
  rw [(windUp_keeps _ _).1]
  split <;> rfl

theorem notes_killByUser (dag : Dag) : dag.diagnostics <+: dag.killByUser.machine.diagnostics := by
  refine notes_windUp ?_ _
  dsimp only [blame]
  split
  · exact List.prefix_append _ _
  · exact List.prefix_refl _

/-! ### What moves one -/

theorem counters_account (vertex : VertexId) (tally : Tally) {phase : Phase}
    (hterminal : phase.isTerminal = true) :
    (dag.account vertex tally phase).machine.counters = dag.countersWith phase := by
  unfold account
  cases phase with
  | succeeded | failed => exact (windUp_keeps _ _).1
  | killed =>
      dsimp only
      split <;> exact (windUp_keeps _ _).1
  | error => exact (endInError_keeps _).1
  | new | inited | running | killWait => cases hterminal

theorem notes_account (vertex : VertexId) (tally : Tally) (phase : Phase) :
    dag.diagnostics <+: (dag.account vertex tally phase).machine.diagnostics := by
  unfold account
  cases phase with
  | succeeded =>
      refine notes_windUp ?_ _
      exact List.prefix_refl _
  | failed => exact notes_windUp (List.prefix_append _ _) _
  | killed =>
      dsimp only
      split
      · refine notes_windUp ?_ _
        exact List.prefix_refl _
      · exact notes_windUp (List.prefix_append _ _) _
  | error | new | inited | running | killWait => exact notes_endInError (List.prefix_append _ _)

/-- The first news of an ending is entered. -/
theorem Counts.handle_eq {signal : DagSignal} {vertex : VertexId} {phase : Phase}
    (hcounts : dag.Counts signal vertex phase) : ∃ tally, dag.tally? vertex = some tally ∧
      tally.completed = none ∧ dag.handle signal = dag.account vertex tally phase := by
  obtain ⟨rfl, hlive, hterminal, hknown, huncounted⟩ := hcounts
  obtain ⟨tally, htally⟩ : ∃ tally, dag.tally? vertex = some tally :=
    ⟨_, List.getElem?_eq_getElem hknown⟩
  have hfresh : tally.isCounted = false := by
    rw [isCounted, htally, Option.any_some] at huncounted
    exact huncounted
  refine ⟨tally, htally, isCounted_eq_false_iff.mp hfresh, ?_⟩
  have hover : dag.vertexOver vertex phase = dag.account vertex tally phase := by
    simp [vertexOver, hterminal, htally, hfresh]
  rcases hlive with h | h <;> simpa [handle, handleVertexCompleted, h] using hover

/-! ### Steps -/

section Change

variable {after : Dag} {signal : DagSignal} (hchange : dag.Change signal after)

include hchange

theorem Change.notes : dag.diagnostics <+: after.diagnostics := by
  cases hchange with
  | kept | begun => exact List.prefix_refl _
  | killed => exact notes_killByUser dag
  | counted vertex phase _ _ _ tally => exact notes_account vertex tally phase
  | rejected _ reason => exact notes_violate dag reason

/-- Whatever is not the first news of an ending moves no counter and counts no ending. -/
theorem Change.counters_of_not_counts (hcounts : ∀ vertex phase, ¬ dag.Counts signal vertex phase) :
    after.counters = dag.counters ∧ ∀ vertex, after.ending? vertex = dag.ending? vertex := by
  cases hchange with
  | kept | begun => exact ⟨rfl, fun _ => rfl⟩
  | killed => exact ⟨counters_killByUser dag, ending?_killByUser dag⟩
  | counted vertex phase hsignal hlive hterminal tally htally hnone =>
      refine absurd ⟨hsignal, hlive, hterminal, (List.getElem?_eq_some_iff.mp htally).1, ?_⟩
        (hcounts vertex phase)
      rw [isCounted, htally, Option.any_some]
      exact isCounted_eq_false_iff.mpr hnone
  | rejected _ reason => exact ⟨counters_violate dag reason, ending?_violate dag reason⟩

end Change

/-- The first news of an ending counts that ending. -/
theorem Counts.counters_handle {signal : DagSignal} {vertex : VertexId} {phase : Phase}
    (hcounts : dag.Counts signal vertex phase) :
    (dag.handle signal).machine.counters = dag.countersWith phase ∧
      ∀ other, (dag.handle signal).machine.ending? other =
        if other = vertex then some phase else dag.ending? other := by
  obtain ⟨tally, htally, -, hstep⟩ := hcounts.handle_eq
  rw [hstep]
  refine ⟨counters_account vertex tally hcounts.terminal, fun other => ?_⟩
  rw [ending?_account, ending?_enter htally]

/-! ### Exactness -/

/-- Each counter of a job is the number of tallies with its endings, and together they are the number of
vertices that the job has counted. -/
structure Exact (dag : Dag) : Prop where
  succeeded : dag.succeeded = dag.tallies.countP (·.completed = some .succeeded)
  failed : dag.failed =
    dag.tallies.countP (fun tally => tally.completed = some .failed ∨ tally.completed = some .error)
  killed : dag.killed = dag.tallies.countP (·.completed = some .killed)
  completed : dag.completedCount = dag.tallies.countP (·.isCounted)
  terminal : ∀ tally ∈ dag.tallies, ∀ phase, tally.completed = some phase → phase.isTerminal = true

theorem count_endings_eq (phase : Phase) :
    dag.endings.count (some phase) = dag.tallies.countP (·.completed = some phase) := by
  rw [endings, List.count, List.countP_map]
  exact List.countP_congr (by simp)

/-- No vertex ended in two ways, so two endings may be counted apart. -/
theorem countP_either (tallies : List Tally) {phase other : Phase} (hne : phase ≠ other) :
    tallies.countP (fun tally => tally.completed = some phase ∨ tally.completed = some other) =
      tallies.countP (·.completed = some phase) + tallies.countP (·.completed = some other) := by
  induction tallies with
  | nil => rfl
  | cons tally rest ih =>
      rw [List.countP_cons, List.countP_cons, List.countP_cons, ih]
      by_cases hphase : tally.completed = some phase
      · simp [hphase, hne]
        omega
      · simp [hphase]
        omega

theorem Counted.exact (hcounted : dag.Counted) : dag.Exact where
  succeeded := by rw [hcounted.succeeded, count_endings_eq]
  failed := by
    rw [hcounted.failed, count_endings_eq, count_endings_eq]
    exact (countP_either dag.tallies (by decide)).symm
  killed := by rw [hcounted.killed, count_endings_eq]
  completed := by
    rw [hcounted.completedCount, endings, List.countP_map]
    rfl
  terminal tally htally phase hphase :=
    hcounted.terminal phase (hphase ▸ List.mem_map_of_mem htally)

/-- What was counted and noted stays, whatever a job is sent. -/
theorem Valid.lasting (hvalid : dag.Valid) (later : List DagSignal) :
    (∀ vertex phase, dag.ending? vertex = some phase →
      (Step.run handle dag later).machine.ending? vertex = some phase) ∧
    dag.diagnostics <+: (Step.run handle dag later).machine.diagnostics := by
  refine (Step.run_keeps (motive := fun machine : Dag => machine.Valid ∧
    (∀ vertex phase, dag.ending? vertex = some phase → machine.ending? vertex = some phase) ∧
      dag.diagnostics <+: machine.diagnostics) ⟨hvalid, fun _ _ h => h, List.prefix_refl _⟩ ?_ later).2
  rintro machine signal ⟨h, hendings, hnotes⟩
  have hlawful := lawful_handle h signal
  refine ⟨hlawful.valid, fun vertex phase hending => ?_, ?_⟩
  · exact hlawful.follows.ending vertex phase (hendings vertex phase hending)
  · exact hnotes.trans (machine.change_handle signal).notes

/-- The counters of a job over the graph of a plan, after whatever it was sent. Each is the number of the
vertices that it has counted with such an ending, all of them terminal, and together they never exceed the
vertices of the plan. Whatever comes later, no ending is overwritten and diagnostics are only added at the
end. In one step a single counter goes up, by one, if the signal is the first news of the ending of a vertex
and the job lives; otherwise the step moves no counter. -/
theorem counters_are_exact {plan : Plan} {graph : Graph} (hgraph : Graph.ofPlan plan = .ok graph)
    (id : DagId) (name : String) (signals : List DagSignal) :
    let dag := (Step.run handle (create id name graph) signals).machine
    dag.vertexCount = plan.vertices.length ∧ dag.Exact ∧ dag.completedCount ≤ plan.vertices.length ∧
    (∀ later, (∀ vertex phase, dag.ending? vertex = some phase →
        (Step.run handle dag later).machine.ending? vertex = some phase) ∧
      dag.diagnostics <+: (Step.run handle dag later).machine.diagnostics) ∧
    ∀ signal, let after := (dag.handle signal).machine
      (∃ vertex phase, dag.Counts signal vertex phase ∧ after.counters = dag.countersWith phase ∧
        ∀ other, after.ending? other = if other = vertex then some phase else dag.ending? other) ∨
      (∀ vertex phase, ¬ dag.Counts signal vertex phase) ∧ after.counters = dag.counters ∧
        ∀ vertex, after.ending? vertex = dag.ending? vertex := by
  intro dag
  have hvalid : dag.Valid := (valid_create_of_built hgraph id name).run signals
  have hexact := hvalid.toCounted.exact
  have hcount : dag.vertexCount = plan.vertices.length := vertexCount_of_built hgraph id name signals
  refine ⟨hcount, hexact, ?_, hvalid.lasting, fun signal => ?_⟩
  · rw [hexact.completed, ← hcount]
    exact List.countP_le_length
  · by_cases hcounts : ∃ vertex phase, dag.Counts signal vertex phase
    · obtain ⟨vertex, phase, hcounts⟩ := hcounts
      exact Or.inl ⟨vertex, phase, hcounts, hcounts.counters_handle⟩
    · simp only [not_exists] at hcounts
      exact Or.inr ⟨hcounts, (dag.change_handle signal).counters_of_not_counts hcounts⟩

/-- The job of two vertices after the failure of the first. The error of the second is counted as a failure
though it ends the job at once, and a second report of the first moves no counter. -/
theorem counters_are_exact_line :
    let dag := (Step.run handle (create ⟨1⟩ "line" Coordinator.lineGraph)
      [.init, .start, .vertexCompleted ⟨0⟩ .failed]).machine
    dag.Exact ∧ dag.counters = (0, 1, 0) ∧
      (dag.handle (.vertexCompleted ⟨1⟩ .error)).machine.counters = (0, 2, 0) ∧
      (dag.handle (.vertexCompleted ⟨0⟩ .succeeded)).machine.counters = (0, 1, 0) ∧
      (Step.run handle dag [.vertexCompleted ⟨1⟩ .error, .start]).machine.ending? ⟨0⟩ = some .failed := by
  intro dag
  obtain ⟨-, hexact, -, hlater, hstep⟩ := counters_are_exact Coordinator.ofPlan_line ⟨1⟩ "line"
    [.init, .start, .vertexCompleted ⟨0⟩ .failed]
  refine ⟨hexact, by decide, ?_, ?_, (hlater _).1 ⟨0⟩ .failed (by decide)⟩
  · rcases hstep (.vertexCompleted ⟨1⟩ .error) with ⟨vertex, phase, hcounts, hcounters, -⟩ | ⟨hnone, -⟩
    · cases hcounts.told
      exact hcounters
    · exact absurd ⟨rfl, by decide, rfl, by decide, by decide⟩ (hnone ⟨1⟩ .error)
  · rcases hstep (.vertexCompleted ⟨0⟩ .succeeded) with ⟨vertex, phase, hcounts, -⟩ | ⟨-, hsame, -⟩
    · cases hcounts.told
      exact absurd hcounts.uncounted (by decide)
    · exact hsame

end JobFlow.Dag
