import JobFlow.Proofs.Vertex.Correspondence

/-!
The books of a vertex are exact. What a vertex is, is attested by its slots: one that runs has no failure on
file and one that failed has, one that was killed waits for no report, and one that erred after its launch
still does. Main statement: after whatever a vertex was sent, the counters are the numbers of its slots, and
every phase stands for what is on file.
-/

namespace JobFlow

/-- The counter of the tasks that ended in some way. -/
def Progress.ended (progress : Progress) : TaskOutcome → Nat
  | .succeeded => progress.succeeded
  | .failed => progress.failed
  | .killed => progress.killed

theorem Progress.ended_record (progress : Progress) (outcome other : TaskOutcome) :
    (progress.record outcome).ended other =
      progress.ended other + if other = outcome then 1 else 0 := by
  cases outcome <;> cases other <;> rfl

theorem Progress.running_record (progress : Progress) (outcome : TaskOutcome) :
    (progress.record outcome).running = progress.running - 1 := by
  cases outcome <;> rfl

namespace Vertex

variable {vertex : Vertex}

theorem Tallied.ended (htallied : vertex.Tallied) (outcome : TaskOutcome) :
    vertex.progress.ended outcome = vertex.slots.count (some outcome) := by
  cases outcome with
  | succeeded => exact htallied.succeeded
  | failed => exact htallied.failed
  | killed => exact htallied.killed

/-- A launched vertex has something running as long as a slot is empty. -/
theorem Tallied.running_pos_iff (htallied : vertex.Tallied) (hlaunched : vertex.launched = true) :
    0 < vertex.progress.running ↔ none ∈ vertex.slots := by
  rw [htallied.running, if_pos hlaunched]
  exact List.count_pos_iff

/-- A recorded report takes one task off those that run, so there was one. -/
theorem Tallied.running_file (htallied : vertex.Tallied) {task : TaskId} (outcome : TaskOutcome)
    (hlaunched : vertex.launched = true) (hslot : vertex.slots[task.index]? = some none) :
    (vertex.file task outcome).progress.running + 1 = vertex.progress.running := by
  have hrunning := (htallied.running_pos_iff hlaunched).mpr (List.mem_of_getElem? hslot)
  show (vertex.progress.record outcome).running + 1 = vertex.progress.running
  rw [Progress.running_record]
  omega

theorem Tallied.running_report (htallied : vertex.Tallied) {task : TaskId} {outcome : TaskOutcome}
    {after : Vertex} (hreport : vertex.report task outcome = .recorded after) :
    after.progress.running + 1 = vertex.progress.running := by
  rcases vertex.report_cases task outcome with
    ⟨⟨reason, heq⟩, -⟩ | ⟨heq, -⟩ | ⟨heq, hlaunched, -, hslot⟩
  · rw [heq] at hreport
    cases hreport
  · rw [heq] at hreport
    cases hreport
  · rw [heq] at hreport
    cases hreport
    exact htallied.running_file outcome hlaunched hslot

/-! ### What the slots attest -/

/-- What is on file where a vertex runs or has ended otherwise than by success. -/
structure Attested (vertex : Vertex) : Prop where
  running : vertex.phase = .running → some .failed ∉ vertex.slots
  failed : vertex.phase = .failed → some .failed ∈ vertex.slots
  killed : vertex.phase = .killed → vertex.launched = true → none ∉ vertex.slots
  erred : vertex.phase = .error → vertex.launched = true → none ∈ vertex.slots

theorem attested_create (dag : DagId) (id : VertexId) (spec : VertexSpec) (graph : Graph)
    (gating : Gating) : (create dag id spec graph gating).Attested := by
  rw [create]
  constructor <;> simp

/-- A vertex that goes on, or that begins to wait for its end, has nothing new to attest. -/
theorem attested_of_phase (hrunning : vertex.phase ≠ .running) (hfailed : vertex.phase ≠ .failed)
    (hkilled : vertex.phase ≠ .killed) (herror : vertex.phase ≠ .error) : vertex.Attested where
  running h := absurd h hrunning
  failed h := absurd h hfailed
  killed h := absurd h hkilled
  erred h := absurd h herror

theorem handle_of_error (herror : vertex.phase = .error) (signal : VertexSignal) :
    vertex.handle signal = .rest vertex := by
  cases signal with
  | init => simp [handle, handleInit, herror, Phase.isTerminal]
  | start => simp [handle, handleStart, herror, Phase.isTerminal]
  | kill => simp [handle, handleKill, herror]
  | sourceStarted | sourceSucceeded => simp [handle, handleSource, herror, Phase.isTerminal]
  | taskCompleted => simp [handle, handleTask, herror]

/-! ### Where a report takes a vertex -/

theorem running_of_phaseAfter {outcome : TaskOutcome} (hafter : vertex.phaseAfter outcome = .running) :
    vertex.phase = .running ∧ outcome ≠ .failed := by
  unfold phaseAfter at hafter
  grind

theorem failed_of_phaseAfter {outcome : TaskOutcome} (hafter : vertex.phaseAfter outcome = .failed) :
    vertex.phase = .failed ∨ outcome = .failed := by
  unfold phaseAfter at hafter
  grind

theorem killed_of_phaseAfter {outcome : TaskOutcome} (hafter : vertex.phaseAfter outcome = .killed) :
    vertex.phase = .killed ∨ vertex.progress.running = 0 := by
  unfold phaseAfter at hafter
  grind

/-! ### Steps -/

section Step

variable (hvalid : vertex.Valid) (hattested : vertex.Attested)

include hvalid

theorem attested_startDying : vertex.startDying.machine.Attested := by
  rw [machine_startDying]
  by_cases hrunning : vertex.progress.running = 0
  · refine ⟨by simp [hrunning], by simp [hrunning], fun _ hlaunched => ?_, by simp [hrunning]⟩
    have hlaunched : vertex.launched = true := hlaunched
    exact mt (hvalid.running_pos_iff hlaunched).mpr (by simp [hrunning])
  · apply attested_of_phase <;> simp [hrunning]

/-- A vertex that has launched and meets with an error still waits for a report. -/
theorem none_mem_of_live (hlive : vertex.phase.isTerminal = false) (hlaunched : vertex.launched = true) :
    none ∈ vertex.slots := by
  have hphase : vertex.phase = .running ∨ vertex.phase = .killWait := by
    cases hphase : vertex.phase with
    | new | inited => exact absurd (hvalid.waiting (by simp [hphase])) (by simp [hlaunched])
    | running => exact Or.inl rfl
    | killWait => exact Or.inr rfl
    | succeeded | failed | killed | error => simp [hphase, Phase.isTerminal] at hlive
  exact (hvalid.running_pos_iff hlaunched).mp (hvalid.live hphase).2

include hattested

theorem attested_filed (herror : vertex.phase ≠ .error) {task : TaskId} (outcome : TaskOutcome)
    (hlaunched : vertex.launched = true) (hslot : vertex.slots[task.index]? = some none)
    (diagnostics : List VertexDiagnostic) : Attested { vertex.file task outcome with
      phase := (vertex.file task outcome).phaseAfter outcome
      diagnostics := diagnostics } where
  running hafter := by
    obtain ⟨hphase, houtcome⟩ := running_of_phaseAfter hafter
    intro hmem
    rcases List.mem_or_eq_of_mem_set hmem with hold | hnew
    · exact hattested.running hphase hold
    · exact houtcome (Option.some.inj hnew).symm
  failed hafter := by
    rcases failed_of_phaseAfter hafter with hphase | rfl
    · obtain ⟨index, hindex⟩ := List.getElem?_of_mem (hattested.failed hphase)
      exact List.mem_of_getElem? ((follows_file outcome hslot).filed index .failed hindex)
    · exact List.mem_set (List.getElem?_eq_some_iff.mp hslot).1 (some .failed)
  killed hafter _ := by
    have htallied := hvalid.toTallied.file outcome hlaunched hslot
    rcases killed_of_phaseAfter hafter with hphase | hrunning
    · exact absurd (List.mem_of_getElem? hslot) (hattested.killed hphase hlaunched)
    · exact mt (htallied.running_pos_iff hlaunched).mpr (by simp [hrunning])
  erred hafter := absurd hafter ((vertex.file task outcome).phaseAfter_ne_error herror outcome)

theorem attested_handleKill : vertex.handleKill.machine.Attested := by
  rw [handleKill]
  cases vertex.phase with
  | new | inited | running => exact attested_startDying hvalid
  | killWait | succeeded | failed | killed | error => exact hattested

/-- Every step leaves on file what its phase stands for. -/
theorem attested_handle (signal : VertexSignal) : (vertex.handle signal).machine.Attested := by
  by_cases herror : vertex.phase = .error
  · rw [handle_of_error herror]
    exact hattested
  by_cases hkill : signal = .kill
  · rw [hkill]
    exact attested_handleKill hvalid hattested
  have hended := (lawful_handle hvalid signal).follows.ended
  have hchange := change_handle hvalid signal
  generalize (vertex.handle signal).machine = after at hended hchange ⊢
  cases hchange with
  | kept => exact hattested
  | inited => apply attested_of_phase <;> simp
  | noted => exact ⟨hattested.running, hattested.failed, hattested.killed, hattested.erred⟩
  | launched _ hinited =>
      have hempty := hvalid.unlaunched (hvalid.waiting (Or.inr hinited))
      rw [machine_launch]
      refine ⟨fun _ hmem => ?_, ?_, ?_, ?_⟩
      · cases hempty _ hmem
      all_goals
        dsimp only
        split <;> simp
  | stopped hsignal => exact absurd hsignal hkill
  | rejected =>
      -- A vertex that was over would have kept its phase.
      have hlive : vertex.phase.isTerminal = false :=
        Bool.eq_false_iff.mpr (fun hover => herror (hended hover).symm)
      have hpending := none_mem_of_live hvalid hlive
      exact ⟨by simp, by simp, by simp, fun _ => hpending⟩
  | filed task outcome _ _ hlaunched hslot diagnostics =>
      exact attested_filed hvalid hattested herror outcome hlaunched hslot diagnostics

theorem attested_run (signals : List VertexSignal) :
    (Step.run handle vertex signals).machine.Attested :=
  (Step.run_keeps (motive := fun machine : Vertex => machine.Valid ∧ machine.Attested)
    ⟨hvalid, hattested⟩ (fun _ signal h =>
      ⟨(lawful_handle h.1 signal).valid, attested_handle h.1 h.2 signal⟩) signals).2

end Step

/-- What each phase says of the launch and of the slots of a vertex. -/
def Justified (vertex : Vertex) : Prop :=
  match vertex.phase with
  | .new | .inited => vertex.launched = false
  | .running => vertex.launched = true ∧ 1 ≤ vertex.progress.running ∧ some .failed ∉ vertex.slots
  | .killWait => vertex.launched = true ∧ 1 ≤ vertex.progress.running
  | .succeeded => ∀ slot ∈ vertex.slots, slot = some .succeeded
  | .failed => some .failed ∈ vertex.slots
  | .killed => vertex.launched = false ∨ none ∉ vertex.slots
  | .error => vertex.launched = false ∨ none ∈ vertex.slots

theorem Attested.justified (hattested : vertex.Attested) (hvalid : vertex.Valid) : vertex.Justified := by
  rw [Justified]
  split
  next hphase => exact hvalid.waiting (Or.inl hphase)
  next hphase => exact hvalid.waiting (Or.inr hphase)
  next hphase =>
    obtain ⟨hlaunched, hrunning⟩ := hvalid.live (Or.inl hphase)
    exact ⟨hlaunched, hrunning, hattested.running hphase⟩
  next hphase => exact hvalid.live (Or.inr hphase)
  next hphase => exact (hvalid.allSucceeded hphase).2
  next hphase => exact hattested.failed hphase
  next hphase => exact (Bool.eq_false_or_eq_true vertex.launched).symm.imp_right (hattested.killed hphase)
  next hphase => exact (Bool.eq_false_or_eq_true vertex.launched).symm.imp_right (hattested.erred hphase)

/-- The books of a vertex, after whatever it was sent. Its slots are as many as its tasks, and each counter is
the number of slots with its outcome. Once it has run it counts its empty slots as running; before, nothing
runs and nothing is on file. So a recorded report always takes a task from those that run. The flag of the
launch tells of a run, or of the success of a vertex without tasks, and the phase of what is on file. -/
theorem books_are_exact (dag : DagId) (id : VertexId) (spec : VertexSpec) (graph : Graph) (gating : Gating)
    (signals : List VertexSignal) :
    let start := create dag id spec graph gating
    let vertex := (Step.run handle start signals).machine
    let ran := Step.Occurs handle start signals (fun _ _ after => after.phase = .running)
    vertex.progress.total = spec.taskCount ∧ vertex.slots.length = spec.taskCount ∧
    (∀ outcome, vertex.progress.ended outcome = vertex.slots.count (some outcome)) ∧
    (ran → vertex.progress.running = vertex.slots.count none) ∧
    (¬ ran → vertex.progress.running = 0 ∧ ∀ slot ∈ vertex.slots, slot = none) ∧
    (∀ task outcome after, vertex.report task outcome = .recorded after →
      after.progress.running + 1 = vertex.progress.running) ∧
    (vertex.launched = true ↔ ran ∨ spec.taskCount = 0 ∧ vertex.phase = .succeeded) ∧
    vertex.Justified := by
  intro start vertex ran
  have hstart : start.Valid := valid_create dag id spec graph gating
  obtain ⟨hvalid, hfollows, -⟩ := follows_run hstart signals
  have htotal : vertex.progress.total = spec.taskCount := hfollows.total
  have hlength : vertex.slots.length = spec.taskCount := hvalid.total.symm.trans htotal
  have hlaunched : vertex.launched = true ↔ ran ∨ spec.taskCount = 0 ∧ vertex.phase = .succeeded :=
    launched_iff hstart signals rfl
  refine ⟨htotal, hlength, hvalid.ended, fun hran => ?_, fun hran => ?_, ?_, hlaunched, ?_⟩
  · exact hvalid.running.trans (if_pos (hlaunched.mpr (Or.inl hran)))
  · by_cases hflag : vertex.launched = true
    · obtain ⟨htasks, -⟩ := (hlaunched.mp hflag).resolve_left hran
      have hslots : vertex.slots = [] := List.length_eq_zero_iff.mp (hlength.trans htasks)
      have hrunning := hvalid.running
      rw [hslots] at hrunning ⊢
      exact ⟨hrunning.trans (ite_self 0), by simp⟩
    · exact ⟨hvalid.running.trans (if_neg hflag), hvalid.unlaunched (Bool.eq_false_iff.mpr hflag)⟩
  · exact fun task outcome after => hvalid.running_report
  · exact (attested_run hstart (attested_create dag id spec graph gating) signals).justified hvalid

end Vertex

end JobFlow
