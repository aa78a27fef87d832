import JobFlow.Proofs.Vertex.Exactness
import JobFlow.Proofs.Vertex.Repetition

/-!
Reports that come after the end. A vertex that has succeeded, failed or was killed still files the first report
of a task and counts it, and does nothing else. One that erred leaves it alone, so what it had launched counts
as running for good. Main statement: with every task reported since the launch, nothing runs if and only if the
vertex has not erred.
-/

namespace JobFlow.Vertex

variable {vertex : Vertex}

theorem handle_of_late (hover : vertex.phase.isTerminal = true) (herror : vertex.phase ≠ .error)
    {task : TaskId} (howns : vertex.Owns task) (hlaunched : vertex.launched = true)
    (hslot : vertex.slots[task.index]? = some none) (outcome : TaskOutcome) :
    vertex.handle (.taskCompleted task outcome) = .rest (vertex.file task outcome) := by
  have hreport : vertex.report task outcome = .recorded (vertex.file task outcome) := by
    rcases vertex.report_cases task outcome with ⟨-, hforeign⟩ | ⟨-, -, first, hfirst⟩ | ⟨heq, -⟩
    · exact absurd ⟨howns, hlaunched⟩ hforeign
    · cases hslot.symm.trans hfirst
    · exact heq
  rw [handle, handleTask]
  cases hphase : vertex.phase with
  | new | inited | running | killWait =>
      rw [hphase] at hover
      cases hover
  | succeeded | failed | killed =>
      dsimp only
      rw [reportLate, hreport]
  | error => exact absurd hphase herror

theorem settled_of_mem (hvalid : vertex.Valid) {task : TaskId} {outcome : TaskOutcome}
    {signals : List VertexSignal} (hmem : .taskCompleted task outcome ∈ signals) :
    (Step.run handle vertex signals).machine.Settled task := by
  obtain ⟨earlier, later, rfl⟩ := List.append_of_mem hmem
  have hbefore := (follows_run hvalid earlier).1
  rw [Step.machine_run_append, Step.machine_run_cons]
  exact Settled.run (lawful_handle hbefore (.taskCompleted task outcome)).valid
    (settled_handleTask hbefore task outcome) later

/-- When all tasks have been reported since the launch, none is counted as running, unless an error has kept a
report from being counted. -/
theorem running_eq_zero_iff_of_reported (hvalid : vertex.Valid) (hattested : vertex.Attested)
    (hlaunched : vertex.launched = true) {signals : List VertexSignal}
    (hreports : ∀ index < vertex.slots.length, ∃ outcome, .taskCompleted ⟨vertex.id, index⟩ outcome ∈ signals) :
    (Step.run handle vertex signals).machine.progress.running = 0 ↔
      (Step.run handle vertex signals).machine.phase ≠ .error := by
  obtain ⟨hafter, hfollows, -⟩ := follows_run hvalid signals
  have hflag := hfollows.launched hlaunched
  have hsettled : ∀ index < vertex.slots.length,
      (Step.run handle vertex signals).machine.Settled ⟨vertex.id, index⟩ := by
    intro index hindex
    obtain ⟨outcome, hmem⟩ := hreports index hindex
    exact settled_of_mem hvalid hmem
  have herred := (attested_run hvalid hattested signals).erred
  generalize (Step.run handle vertex signals).machine = after at *
  constructor
  · intro hrunning herror
    have hpositive := (hafter.running_pos_iff hflag).mpr (herred herror hflag)
    exact Nat.ne_of_gt hpositive hrunning
  · intro herror
    refine Nat.eq_zero_of_not_pos (fun hpositive => ?_)
    obtain ⟨index, hslot⟩ := List.getElem?_of_mem ((hafter.running_pos_iff hflag).mp hpositive)
    have hindex : index < after.slots.length := (List.getElem?_eq_some_iff.mp hslot).1
    have howns : after.Owns ⟨vertex.id, index⟩ := ⟨hfollows.id.symm, hindex⟩
    rcases hsettled index (hfollows.length ▸ hindex) with h | ⟨-, -, first, hfirst⟩ | ⟨-, hforeign⟩
    · exact herror h
    · cases hslot.symm.trans hfirst
    · exact hforeign ⟨howns, hflag⟩

/-- Late reports. A vertex has launched, whatever it was sent, and is over. The first report of a task is filed
and counted and nothing else changes, except after an error, when the report is ignored like everything else.
So when each task has been reported since the launch, nothing counts as running if and only if the vertex has
not erred. -/
theorem late_reports_count (dag : DagId) (id : VertexId) (spec : VertexSpec) (graph : Graph) (gating : Gating)
    (signals : List VertexSignal) :
    let vertex := (Step.run handle (create dag id spec graph gating) signals).machine
    vertex.launched = true →
    (vertex.phase.isTerminal = true → ∀ index < spec.taskCount, vertex.slots[index]? = some none →
      ∀ outcome,
        let step := vertex.handle (.taskCompleted ⟨id, index⟩ outcome)
        (vertex.phase ≠ .error → step = .rest (vertex.file ⟨id, index⟩ outcome) ∧
          step.machine.phase = vertex.phase ∧
          step.machine.slots[index]? = some (some outcome) ∧
          step.machine.progress.running + 1 = vertex.progress.running ∧
          ∀ other, step.machine.progress.ended other =
            vertex.progress.ended other + if other = outcome then 1 else 0) ∧
        (vertex.phase = .error → step = .rest vertex)) ∧
    ∀ later, (∀ index < spec.taskCount, ∃ outcome, .taskCompleted ⟨id, index⟩ outcome ∈ later) →
      let after := (Step.run handle vertex later).machine
      after.progress.running = 0 ↔ after.phase ≠ .error := by
  intro vertex hlaunched
  have hcreate := valid_create dag id spec graph gating
  obtain ⟨hvalid, hfollows, -⟩ := follows_run hcreate signals
  have hattested := attested_run hcreate (attested_create dag id spec graph gating) signals
  have hid : vertex.id = id := hfollows.id
  have hlength : vertex.slots.length = spec.taskCount := hvalid.total.symm.trans hfollows.total
  refine ⟨fun hover index hindex hslot outcome => ⟨fun herror => ?_, fun herror => ?_⟩, fun later hreports => ?_⟩
  · have howns : vertex.Owns ⟨id, index⟩ := ⟨hid.symm, hlength.symm ▸ hindex⟩
    rw [handle_of_late hover herror howns hlaunched hslot]
    refine ⟨rfl, rfl, List.getElem?_set_self howns.2, hvalid.running_file outcome hlaunched hslot, ?_⟩
    exact vertex.progress.ended_record outcome
  · exact handle_of_error herror _
  · refine running_eq_zero_iff_of_reported hvalid hattested hlaunched (fun index hindex => ?_)
    rw [hid]
    exact hreports index (hlength ▸ hindex)

/-- The first of two tasks fails and ends the vertex. The acknowledged kill of the second is counted then, and
nothing counts as running any more. -/
theorem late_reports_count_line :
    let start := create ⟨1⟩ ⟨0⟩ ⟨"v0", 2, {}⟩ Coordinator.lineGraph .sourceStarted
    let after := fun signals => (Step.run handle start signals).machine
    let failed := after [.init, .start, .taskCompleted ⟨⟨0⟩, 0⟩ .failed]
    let step := failed.handle (.taskCompleted ⟨⟨0⟩, 1⟩ .killed)
    failed.phase = .failed ∧ step.machine.phase = .failed ∧
      step.machine.slots[1]? = some (some .killed) ∧
      step.machine.progress.running + 1 = failed.progress.running ∧
      step.machine.progress.ended .killed = failed.progress.ended .killed + 1 ∧
      (Step.run handle (after [.init, .start])
        [.taskCompleted ⟨⟨0⟩, 0⟩ .failed, .taskCompleted ⟨⟨0⟩, 1⟩ .killed]).machine.progress.running = 0 := by
  intro start after failed step
  obtain ⟨hlate, -⟩ := late_reports_count ⟨1⟩ ⟨0⟩ ⟨"v0", 2, {}⟩ Coordinator.lineGraph .sourceStarted
    [.init, .start, .taskCompleted ⟨⟨0⟩, 0⟩ .failed] (by decide)
  obtain ⟨-, hall⟩ := late_reports_count ⟨1⟩ ⟨0⟩ ⟨"v0", 2, {}⟩ Coordinator.lineGraph .sourceStarted
    [.init, .start] (by decide)
  obtain ⟨-, hphase, hslot, hrunning, hended⟩ :=
    (hlate (by decide) 1 (by decide) (by decide) .killed).1 (by decide)
  refine ⟨by decide, hphase, hslot, hrunning, hended .killed, (hall _ ?_).mpr (by decide)⟩
  intro index hindex
  have hcases : index = 0 ∨ index = 1 := by
    have : index < 2 := hindex
    omega
  rcases hcases with rfl | rfl
  · exact ⟨.failed, by simp⟩
  · exact ⟨.killed, by simp⟩

/-- A vertex that errs while its task runs asks for the task to be killed, and takes no notice when the kill is
acknowledged: the task has no report on file and still counts as running. -/
theorem late_report_lost :
    let history := Step.run handle (create ⟨1⟩ ⟨0⟩ ⟨"v0", 1, {}⟩ Coordinator.lineGraph .sourceStarted)
      [.init, .start, .init]
    let vertex := history.machine
    let after := (vertex.handle (.taskCompleted ⟨⟨0⟩, 0⟩ .killed)).machine
    vertex.launched = true ∧ vertex.phase = .error ∧ vertex.slots[0]? = some none ∧
      .tasks ⟨0⟩ (.kill [⟨⟨0⟩, 0⟩]) ∈ history.outbound ∧
      after.slots[0]? = some none ∧ after.progress.running = 1 ∧ after.progress.ended .killed = 0 := by
  decide

end JobFlow.Vertex
