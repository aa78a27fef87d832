import JobFlow.Proofs.Dag.Accounting

/-!
What one signal can make of a job, case by case. Main statement: a step of a job is one of these changes.
-/

namespace JobFlow.Dag

/-- The signals that a job does not reject. -/
def Expects (dag : Dag) : DagSignal → Prop
  | .init => dag.phase = .new
  | .start => dag.phase = .inited
  | .kill => dag.phase ≠ .new
  | .vertexCompleted vertex phase => (dag.phase = .running ∨ dag.phase = .killWait) ∧
      phase.isTerminal = true ∧ phase ≠ .error ∧ vertex.index < dag.vertexCount

/-- What a signal can make of a job. -/
inductive Change (dag : Dag) (signal : DagSignal) : Dag → Prop where
  | kept (hidle : dag.phase = .error ∨ signal = .kill ∨
      ∃ vertex phase, signal = .vertexCompleted vertex phase ∧ dag.ending? vertex ≠ none) :
    Change dag signal dag
  | begun (phase : Phase) (hphase : dag.phase = .new ∧ phase = .inited ∨
      dag.phase = .inited ∧ phase = .running)
      (hsignal : ∀ vertex ending, signal ≠ .vertexCompleted vertex ending) :
    Change dag signal { dag with phase := phase }
  | killed (hsignal : signal = .kill) (hphase : dag.phase = .inited ∨ dag.phase = .running) :
    Change dag signal dag.killByUser.machine
  | counted (vertex : VertexId) (phase : Phase) (hsignal : signal = .vertexCompleted vertex phase)
      (hlive : dag.phase = .running ∨ dag.phase = .killWait) (hterminal : phase.isTerminal = true)
      (tally : Tally) (htally : dag.tally? vertex = some tally) (hnone : tally.completed = none) :
    Change dag signal (dag.account vertex tally phase).machine
  | rejected (hunexpected : ¬ dag.Expects signal) (reason : DagViolation) :
    Change dag signal (dag.violate reason).machine

variable {dag : Dag}

theorem isCounted_iff {vertex : VertexId} :
    dag.isCounted vertex = true ↔ dag.ending? vertex ≠ none := by
  rw [isCounted, ending?]
  cases dag.tally? vertex with
  | none => simp
  | some tally => simp [Tally.isCounted, Option.isSome_iff_ne_none]

theorem change_handleInit (dag : Dag) : dag.Change .init dag.handleInit.machine := by
  rw [handleInit]
  split
  next hnew => exact .begun .inited (Or.inl ⟨hnew, rfl⟩) (by simp)
  next herror => exact .kept (Or.inl herror)
  next hnew _ =>
    refine .rejected ?_ _
    exact hnew

theorem change_handleStart (dag : Dag) : dag.Change .start dag.handleStart.machine := by
  rw [handleStart]
  split
  next hinited => exact .begun .running (Or.inr ⟨hinited, rfl⟩) (by simp)
  next herror => exact .kept (Or.inl herror)
  next hinited _ =>
    refine .rejected ?_ _
    exact hinited

theorem change_handleKill (dag : Dag) : dag.Change .kill dag.handleKill.machine := by
  rw [handleKill]
  cases hphase : dag.phase with
  | inited => exact .killed rfl (Or.inl hphase)
  | running => exact .killed rfl (Or.inr hphase)
  | killWait | succeeded | failed | killed | error => exact .kept (Or.inr (Or.inl rfl))
  | new =>
      refine .rejected ?_ _
      exact not_not_intro hphase

theorem change_vertexOver (hlive : dag.phase = .running ∨ dag.phase = .killWait) (vertex : VertexId)
    (phase : Phase) :
    dag.Change (.vertexCompleted vertex phase) (dag.vertexOver vertex phase).machine := by
  rw [vertexOver]
  split
  next hterminal =>
    refine .rejected ?_ _
    rintro ⟨-, hexpected, -⟩
    exact hterminal hexpected
  next hterminal =>
    cases htally : dag.tally? vertex with
    | none =>
        refine .rejected ?_ _
        rintro ⟨-, -, -, hindex⟩
        rw [tally?, List.getElem?_eq_getElem hindex] at htally
        cases htally
    | some tally =>
        dsimp only
        cases hcompleted : tally.completed with
        | none =>
            simp only [Tally.isCounted, hcompleted]
            exact .counted vertex phase rfl hlive (Decidable.of_not_not hterminal) tally htally hcompleted
        | some counted =>
            simp only [Tally.isCounted, hcompleted]
            refine .kept (Or.inr (Or.inr ⟨vertex, phase, rfl, ?_⟩))
            rw [ending?, htally, Option.bind_some, hcompleted]
            simp

theorem change_handleVertexCompleted (dag : Dag) (vertex : VertexId) (phase : Phase) :
    dag.Change (.vertexCompleted vertex phase) (dag.handleVertexCompleted vertex phase).machine := by
  rw [handleVertexCompleted]
  cases hphase : dag.phase with
  | running => exact change_vertexOver (Or.inl hphase) vertex phase
  | killWait => exact change_vertexOver (Or.inr hphase) vertex phase
  | error => exact .kept (Or.inl hphase)
  | succeeded | failed | killed =>
      dsimp only
      split
      next hcounted => exact .kept (Or.inr (Or.inr ⟨vertex, phase, rfl, isCounted_iff.mp hcounted⟩))
      next =>
        refine .rejected ?_ _
        simp [Expects, hphase]
  | new | inited =>
      refine .rejected ?_ _
      simp [Expects, hphase]

/-- A step of a job is one of the changes. -/
theorem change_handle (dag : Dag) (signal : DagSignal) :
    dag.Change signal (dag.handle signal).machine := by
  cases signal with
  | init => exact dag.change_handleInit
  | start => exact dag.change_handleStart
  | kill => exact dag.change_handleKill
  | vertexCompleted vertex phase => exact dag.change_handleVertexCompleted vertex phase

end JobFlow.Dag
