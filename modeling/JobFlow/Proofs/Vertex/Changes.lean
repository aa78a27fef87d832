import JobFlow.Proofs.Vertex.Steps

/-!
What one signal can make of a vertex, case by case. Main statement: a step of a vertex is one of these
changes. What a signal leaves alone and where it can lead is read off them.
-/

namespace JobFlow

/-- The news that a source has passed a gate. -/
def Gating.signal : Gating → VertexId → VertexSignal
  | .sourceStarted => .sourceStarted
  | .sourceSucceeded => .sourceSucceeded

namespace Vertex

/-- The signals that a vertex does not reject. -/
def Expects (vertex : Vertex) : VertexSignal → Prop
  | .init => vertex.phase = .new ∨ vertex.phase.isTerminal = true
  | .start => vertex.phase = .inited ∨ vertex.phase.isTerminal = true
  | .kill => True
  | .sourceStarted source | .sourceSucceeded source => source ∈ vertex.sources
  | .taskCompleted task _ => vertex.Owns task ∧ vertex.launched = true

/-- Where a report, which has just been filed, takes a vertex. -/
def phaseAfter (vertex : Vertex) (outcome : TaskOutcome) : Phase :=
  match vertex.phase with
  | .running =>
    match outcome with
    | .succeeded =>
      if vertex.progress.succeeded = vertex.progress.total then .succeeded
      else if vertex.progress.running = 0 then .killed else .running
    | .failed => .failed
    | .killed => if vertex.progress.running = 0 then .killed else .running
  | .killWait => if vertex.progress.running = 0 then .killed else .killWait
  | phase => phase

/-- What a signal can make of a vertex. -/
inductive Change (vertex : Vertex) (signal : VertexSignal) : Vertex → Prop where
  | kept (hfirst : ∀ task outcome, signal = .taskCompleted task outcome → vertex.phase ≠ .error →
      vertex.Owns task → vertex.launched = true →
      ∃ first, vertex.slots[task.index]? = some (some first)) :
    Change vertex signal vertex
  | inited (hsignal : signal = .init) (hnew : vertex.phase = .new) :
    Change vertex signal { vertex with phase := .inited }
  | noted (hsignal : ∀ task outcome, signal ≠ .taskCompleted task outcome) (told : Bool)
      (ready : List VertexId) :
    Change vertex signal { vertex with toldToStart := told, ready := ready }
  | launched (hsignal : ∀ task outcome, signal ≠ .taskCompleted task outcome)
      (hinited : vertex.phase = .inited) (told : Bool) (ready : List VertexId) :
    Change vertex signal (launch { vertex with toldToStart := told, ready := ready }).machine
  | stopped (hsignal : signal = .kill) (phase : Phase) (hphase : phase = .killWait ∨ phase = .killed)
      (diagnostics : List VertexDiagnostic) :
    Change vertex signal { vertex with phase := phase, diagnostics := diagnostics }
  | rejected (hunexpected : ¬ vertex.Expects signal) (diagnostics : List VertexDiagnostic) :
    Change vertex signal { vertex with phase := .error, diagnostics := diagnostics }
  | filed (task : TaskId) (outcome : TaskOutcome) (hsignal : signal = .taskCompleted task outcome)
      (howns : vertex.Owns task) (hlaunched : vertex.launched = true)
      (hslot : vertex.slots[task.index]? = some none) (diagnostics : List VertexDiagnostic) :
    Change vertex signal { vertex.file task outcome with
      phase := (vertex.file task outcome).phaseAfter outcome
      diagnostics := diagnostics }

theorem machine_launch (vertex : Vertex) : vertex.launch.machine = { vertex with
    phase := if vertex.progress.total = 0 then .succeeded else .running
    launched := true
    progress := { vertex.progress with running := vertex.progress.total } } := by
  rw [launch]
  by_cases htotal : vertex.progress.total = 0
  · simp [htotal, conclude]
  · simp [htotal]

/-- A vertex launches if it is initialised, told to start and free to, and waits otherwise. -/
theorem startIfReady_cases (vertex : Vertex) :
    (vertex.startIfReady.machine = vertex ∧ vertex.startIfReady.outbound = []) ∨
    (vertex.phase = .inited ∧ vertex.toldToStart = true ∧ vertex.startIfReady = vertex.launch) := by
  rw [startIfReady]
  split
  next hstart => exact Or.inr ⟨hstart.1, hstart.2.1, rfl⟩
  next => exact Or.inl ⟨rfl, rfl⟩

theorem machine_startDying (vertex : Vertex) : vertex.startDying.machine = { vertex with
    phase := if vertex.progress.running = 0 then .killed else .killWait
    diagnostics := vertex.diagnostics ++ [.killRequested] } := by
  rw [startDying]
  by_cases hrunning : vertex.progress.running = 0
  · simp [note, hrunning, conclude]
  · simp [note, hrunning]

/-! ### Commands and news of sources -/

section Handle

variable {vertex : Vertex} {signal : VertexSignal}

/-- What is kept of a signal other than a report. -/
theorem Change.unchanged (hsignal : ∀ task outcome, signal ≠ .taskCompleted task outcome) :
    vertex.Change signal vertex :=
  .kept (fun task outcome heq => absurd heq (hsignal task outcome))

theorem change_violate (hunexpected : ¬ vertex.Expects signal) (reason : VertexViolation) :
    vertex.Change signal (vertex.violate reason).machine := .rejected hunexpected _

theorem change_startIfReady (hsignal : ∀ task outcome, signal ≠ .taskCompleted task outcome)
    (told : Bool) (ready : List VertexId) : vertex.Change signal
      (startIfReady { vertex with toldToStart := told, ready := ready }).machine := by
  rcases startIfReady_cases { vertex with toldToStart := told, ready := ready } with
    ⟨hwait, -⟩ | ⟨hinited, -, hlaunch⟩
  · rw [hwait]
    exact .noted hsignal told ready
  · rw [hlaunch]
    exact .launched hsignal (show vertex.phase = .inited from hinited) told ready

theorem change_handleInit (vertex : Vertex) : vertex.Change .init vertex.handleInit.machine := by
  rw [handleInit]
  split
  next hnew => exact .inited rfl hnew
  next hnew =>
    split
    next => exact .unchanged (by simp)
    next hlive =>
      refine change_violate ?_ _
      exact not_or.mpr ⟨hnew, hlive⟩

theorem change_handleStart (vertex : Vertex) : vertex.Change .start vertex.handleStart.machine := by
  rw [handleStart]
  split
  next => exact change_startIfReady (by simp) true vertex.ready
  next hinited =>
    split
    next => exact .unchanged (by simp)
    next hlive =>
      refine change_violate ?_ _
      exact not_or.mpr ⟨hinited, hlive⟩

theorem change_handleKill (vertex : Vertex) : vertex.Change .kill vertex.handleKill.machine := by
  rw [handleKill]
  cases vertex.phase with
  | new | inited | running =>
      dsimp only
      rw [machine_startDying]
      refine .stopped rfl _ ?_ _
      split
      · exact Or.inr rfl
      · exact Or.inl rfl
  | killWait | succeeded | failed | killed | error => exact .unchanged (by simp)

theorem change_handleSource (vertex : Vertex) (source : VertexId) (gate : Gating) :
    vertex.Change (gate.signal source) (vertex.handleSource source gate).machine := by
  have hsignal : ∀ task outcome, gate.signal source ≠ .taskCompleted task outcome := by
    cases gate <;> simp [Gating.signal]
  rw [handleSource]
  split
  next => exact .unchanged hsignal
  next =>
    rw [sourcePassed]
    split
    next =>
      split
      · exact change_startIfReady hsignal vertex.toldToStart (vertex.ready.insert source)
      · exact change_startIfReady hsignal vertex.toldToStart vertex.ready
    next hforeign =>
      refine change_violate ?_ _
      cases gate <;> exact hforeign

/-! ### Reports -/

theorem machine_concludeKilled (vertex : Vertex) : ∃ diagnostics,
    vertex.concludeKilled.machine = { vertex with
      phase := if vertex.progress.running = 0 then .killed else vertex.phase
      diagnostics := diagnostics } := by
  rw [concludeKilled]
  split
  next hrunning => exact ⟨_, rfl⟩
  next hrunning => exact ⟨vertex.diagnostics, rfl⟩

theorem machine_afterReport (hrunning : vertex.phase = .running) (task : TaskId)
    (outcome : TaskOutcome) : ∃ diagnostics, (vertex.afterReport task outcome).machine =
      { vertex with phase := vertex.phaseAfter outcome, diagnostics := diagnostics } := by
  obtain ⟨diagnostics, hkilled⟩ := vertex.machine_concludeKilled
  rw [hrunning] at hkilled
  rw [phaseAfter.eq_def, hrunning]
  cases outcome with
  | succeeded =>
      rw [afterReport]
      dsimp only
      split
      · exact ⟨vertex.diagnostics, rfl⟩
      · exact ⟨diagnostics, hkilled⟩
  | failed => exact ⟨_, rfl⟩
  | killed => exact ⟨diagnostics, hkilled⟩

theorem Change.of_first {task : TaskId} {outcome : TaskOutcome}
    (hfirst : vertex.phase ≠ .error → vertex.Owns task → vertex.launched = true →
      ∃ first, vertex.slots[task.index]? = some (some first)) :
    vertex.Change (.taskCompleted task outcome) vertex := by
  refine .kept ?_
  rintro _ _ ⟨⟩
  exact hfirst

theorem change_reportRunning (hphase : vertex.phase = .running) (task : TaskId)
    (outcome : TaskOutcome) :
    vertex.Change (.taskCompleted task outcome) (vertex.reportRunning task outcome).machine := by
  rw [reportRunning]
  rcases vertex.report_cases task outcome with
    ⟨⟨reason, heq⟩, hinvalid⟩ | ⟨heq, -, hfirst⟩ | ⟨heq, hlaunched, howns, hslot⟩
  · rw [heq]
    refine change_violate ?_ _
    exact hinvalid
  · rw [heq]
    exact .of_first (fun _ _ _ => hfirst)
  · have hrunning : (vertex.file task outcome).phase = .running := hphase
    obtain ⟨diagnostics, hmachine⟩ := machine_afterReport hrunning task outcome
    rw [heq]
    dsimp only
    rw [hmachine]
    exact .filed task outcome rfl howns hlaunched hslot diagnostics

theorem change_reportDying (hphase : vertex.phase = .killWait) (task : TaskId)
    (outcome : TaskOutcome) :
    vertex.Change (.taskCompleted task outcome) (vertex.reportDying task outcome).machine := by
  rw [reportDying]
  rcases vertex.report_cases task outcome with
    ⟨⟨reason, heq⟩, hinvalid⟩ | ⟨heq, -, hfirst⟩ | ⟨heq, hlaunched, howns, hslot⟩
  · rw [heq]
    refine change_violate ?_ _
    exact hinvalid
  · rw [heq]
    exact .of_first (fun _ _ _ => hfirst)
  · have hchange : vertex.Change _ _ :=
      .filed task outcome rfl howns hlaunched hslot vertex.diagnostics
    rw [phaseAfter.eq_def, phase_file, hphase] at hchange
    rw [heq]
    dsimp only at hchange ⊢
    split
    next hrunning =>
      rw [if_pos hrunning] at hchange
      exact hchange
    next hrunning =>
      rw [if_neg hrunning, ← hphase] at hchange
      exact hchange

theorem change_reportLate (hterminal : vertex.phase.isTerminal = true) (task : TaskId)
    (outcome : TaskOutcome) :
    vertex.Change (.taskCompleted task outcome) (vertex.reportLate task outcome).machine := by
  rw [reportLate]
  rcases vertex.report_cases task outcome with
    ⟨⟨reason, heq⟩, hinvalid⟩ | ⟨heq, -, hfirst⟩ | ⟨heq, hlaunched, howns, hslot⟩
  · rw [heq]
    exact .of_first (fun _ howns hlaunched => absurd ⟨howns, hlaunched⟩ hinvalid)
  · rw [heq]
    exact .of_first (fun _ _ _ => hfirst)
  · have hchange : vertex.Change _ _ :=
      .filed task outcome rfl howns hlaunched hslot vertex.diagnostics
    have hafter : (vertex.file task outcome).phaseAfter outcome = vertex.phase := by
      rw [phaseAfter.eq_def, phase_file]
      cases hphase : vertex.phase with
      | new | inited | succeeded | failed | killed | error => rfl
      | running | killWait =>
          rw [hphase] at hterminal
          cases hterminal
    rw [hafter] at hchange
    rw [heq]
    exact hchange

theorem change_handleTask (hvalid : vertex.Valid) (task : TaskId) (outcome : TaskOutcome) :
    vertex.Change (.taskCompleted task outcome) (vertex.handleTask task outcome).machine := by
  rw [handleTask]
  cases hphase : vertex.phase with
  | new | inited =>
      refine change_violate ?_ _
      rintro ⟨-, hlaunched⟩
      rw [hvalid.waiting (by simp [hphase])] at hlaunched
      cases hlaunched
  | running => exact change_reportRunning hphase task outcome
  | killWait => exact change_reportDying hphase task outcome
  | succeeded | failed | killed => exact change_reportLate (by rw [hphase]; rfl) task outcome
  | error => exact .of_first (fun herror => absurd hphase herror)

/-- A step of a vertex is one of the changes. -/
theorem change_handle (hvalid : vertex.Valid) (signal : VertexSignal) :
    vertex.Change signal (vertex.handle signal).machine := by
  cases signal with
  | init => exact vertex.change_handleInit
  | start => exact vertex.change_handleStart
  | kill => exact vertex.change_handleKill
  | sourceStarted source => exact vertex.change_handleSource source .sourceStarted
  | sourceSucceeded source => exact vertex.change_handleSource source .sourceSucceeded
  | taskCompleted task outcome => exact change_handleTask hvalid task outcome

end Handle

end Vertex

end JobFlow
