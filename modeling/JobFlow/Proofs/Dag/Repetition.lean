import JobFlow.Proofs.Dag.Coherence

/-!
Signals that a job is sent twice. What a signal leaves behind in a job it leaves for good: a kill that was
heard is under way or too late for ever, and the ending of a vertex, once reported, is counted or was the
job's undoing. Main statement: the second copy of a kill or of a report does nothing, however late it
comes, while a second command to initialise or to start always ends in error.
-/

namespace JobFlow

theorem Phase.rank_le_of_mem_successors {phase next : Phase} (hnext : next ∈ phase.successors) :
    phase.rank ≤ next.rank := by
  cases phase <;> cases next <;> simp_all [successors, rank]

namespace Dag

/-- What a signal leaves behind in a job, whatever the job has made of it. -/
def Heard (dag : Dag) : DagSignal → Prop
  | .init => 1 ≤ dag.phase.rank
  | .start => 2 ≤ dag.phase.rank
  | .kill => 3 ≤ dag.phase.rank
  | .vertexCompleted vertex phase => (dag.phase = .error ∨ dag.ending? vertex ≠ none) ∧
      (phase.isTerminal = true ∨ dag.phase.isTerminal = true)

variable {dag : Dag}

/-! ### The first copy -/

theorem rank_handleInit (dag : Dag) : 1 ≤ dag.handleInit.machine.phase.rank := by
  rw [handleInit]
  split
  next => exact Nat.le_refl 1
  next herror =>
    rw [Step.machine_rest, herror]
    decide
  next =>
    rw [phase_violate]
    decide

theorem rank_handleStart (dag : Dag) : 2 ≤ dag.handleStart.machine.phase.rank := by
  rw [handleStart]
  split
  next => exact Nat.le_refl 2
  next herror =>
    rw [Step.machine_rest, herror]
    decide
  next =>
    rw [phase_violate]
    decide

theorem rank_killByUser (dag : Dag) : 3 ≤ dag.killByUser.machine.phase.rank := by
  rw [killByUser]
  rcases phase_windUp _ _ with hlive | hover
  · rw [hlive]
    exact Nat.le_refl 3
  · rw [hover, Phase.rank_eq_four.mpr (Cause.isTerminal_finalPhase _)]
    decide

theorem rank_handleKill (dag : Dag) : 3 ≤ dag.handleKill.machine.phase.rank := by
  rw [handleKill]
  cases hphase : dag.phase with
  | inited | running => exact dag.rank_killByUser
  | killWait | succeeded | failed | killed | error =>
      rw [Step.machine_rest, hphase]
      decide
  | new =>
      rw [phase_violate]
      decide

/-- A report of an ending that is none is only borne by a job that is over. -/
theorem isTerminal_handleVertexCompleted (vertex : VertexId) {phase : Phase}
    (hphase : phase.isTerminal = false) :
    (dag.handleVertexCompleted vertex phase).machine.phase.isTerminal = true := by
  have hover : ∀ reason, (dag.violate reason).machine.phase.isTerminal = true := by
    intro reason
    rw [phase_violate]
    rfl
  rw [handleVertexCompleted]
  cases hlife : dag.phase with
  | new | inited => exact hover _
  | running | killWait =>
      dsimp only
      rw [vertexOver, if_pos (by simp [hphase])]
      exact hover _
  | succeeded | failed | killed =>
      dsimp only
      split
      next =>
        rw [Step.machine_rest, hlife]
        rfl
      next => exact hover _
  | error =>
      rw [Step.machine_rest, hlife]
      rfl

theorem heard_handle (hvalid : dag.Valid) (signal : DagSignal) : (dag.handle signal).machine.Heard signal := by
  cases signal with
  | init => exact dag.rank_handleInit
  | start => exact dag.rank_handleStart
  | kill => exact dag.rank_handleKill
  | vertexCompleted vertex phase =>
      have hlawful := lawful_handle hvalid (.vertexCompleted vertex phase)
      constructor
      · cases hending : dag.ending? vertex with
        | some ending => exact Or.inr (by rw [hlawful.follows.ending vertex ending hending]; simp)
        | none =>
            refine or_iff_not_imp_left.mpr (fun herror => ?_)
            rw [(dag.change_handle _).ending?_self rfl hending herror]
            simp
      · cases hphase : phase.isTerminal with
        | true => exact Or.inl rfl
        | false => exact Or.inr (isTerminal_handleVertexCompleted vertex hphase)

/-! ### What comes between -/

theorem rank_handle (hvalid : dag.Valid) (signal : DagSignal) :
    dag.phase.rank ≤ (dag.handle signal).machine.phase.rank := by
  rcases moves_handle hvalid signal with hsame | hnext
  · exact Nat.le_of_eq (congrArg Phase.rank hsame.symm)
  · exact Phase.rank_le_of_mem_successors hnext

/-- What a signal has left behind stays, whatever the job is sent. -/
theorem Heard.handle (hvalid : dag.Valid) {signal : DagSignal} (hheard : dag.Heard signal)
    (other : DagSignal) : (dag.handle other).machine.Heard signal := by
  have hrank := rank_handle hvalid other
  cases signal with
  | init | start | kill => exact Nat.le_trans hheard hrank
  | vertexCompleted vertex phase =>
      have hfollows := (lawful_handle hvalid other).follows
      refine ⟨hheard.1.imp hfollows.erred (fun hcounted => ?_),
        hheard.2.imp_right (dag.change_handle other).isTerminal⟩
      obtain ⟨ending, hending⟩ := Option.ne_none_iff_exists'.mp hcounted
      rw [hfollows.ending vertex ending hending]
      simp

theorem heard_run (hvalid : dag.Valid) (signal : DagSignal) (later : List DagSignal) :
    (Step.run handle dag (signal :: later)).machine.Heard signal := by
  refine (Step.run_keeps (motive := fun machine : Dag => machine.Valid ∧ machine.Heard signal)
    ⟨(lawful_handle hvalid signal).valid, heard_handle hvalid signal⟩ ?_ later).2
  exact fun machine other h => ⟨(lawful_handle h.1 other).valid, h.2.handle h.1 other⟩

/-! ### The second copy -/

theorem handleInit_of_heard (hheard : dag.Heard .init) : dag.handleInit.machine.phase = .error := by
  rw [handleInit]
  split
  next hnew =>
    have hrank : 1 ≤ dag.phase.rank := hheard
    rw [hnew] at hrank
    cases hrank
  next herror => exact herror
  next => exact phase_violate dag _

theorem handleStart_of_heard (hheard : dag.Heard .start) : dag.handleStart.machine.phase = .error := by
  rw [handleStart]
  split
  next hinited =>
    have hrank : 2 ≤ dag.phase.rank := hheard
    rw [hinited] at hrank
    exact absurd hrank (by decide)
  next herror => exact herror
  next => exact phase_violate dag _

theorem handleKill_of_heard (hheard : dag.Heard .kill) : dag.handleKill = .rest dag := by
  have hrank : 3 ≤ dag.phase.rank := hheard
  rw [handleKill]
  cases hphase : dag.phase with
  | killWait | succeeded | failed | killed | error => rfl
  | new | inited | running =>
      rw [hphase] at hrank
      exact absurd hrank (by decide)

/-- A job that was not started has counted no ending. -/
theorem Valid.ending?_of_fresh (hvalid : dag.Valid) (hfresh : dag.phase = .new ∨ dag.phase = .inited)
    (vertex : VertexId) : dag.ending? vertex = none := by
  cases hending : dag.ending? vertex with
  | none => rfl
  | some phase =>
      have hmem := List.mem_of_getElem? (ending?_eq_some_iff.mp hending)
      cases (hvalid.fresh hfresh).2 _ hmem

/-- The ending of a vertex that was counted is not counted again. -/
theorem vertexOver_of_counted {vertex : VertexId} {phase : Phase} (hterminal : phase.isTerminal = true)
    (hcounted : dag.ending? vertex ≠ none) : dag.vertexOver vertex phase = .rest dag := by
  rw [vertexOver, if_neg (not_not_intro hterminal)]
  rw [ending?] at hcounted
  cases htally : dag.tally? vertex with
  | none => exact absurd (by rw [htally]; rfl) hcounted
  | some tally =>
      rw [htally, Option.bind_some] at hcounted
      have hentered : tally.isCounted = true := Option.isSome_iff_ne_none.mpr hcounted
      exact if_pos hentered

theorem handleVertexCompleted_of_heard (hvalid : dag.Valid) {vertex : VertexId} {phase : Phase}
    (hheard : dag.Heard (.vertexCompleted vertex phase)) :
    dag.handleVertexCompleted vertex phase = .rest dag := by
  obtain ⟨hended, hterminal⟩ := hheard
  rw [handleVertexCompleted]
  cases hphase : dag.phase with
  | error => rfl
  | running | killWait =>
      rw [hphase] at hended hterminal
      exact vertexOver_of_counted (hterminal.resolve_right (by decide)) (hended.resolve_left (by decide))
  | succeeded | failed | killed =>
      rw [hphase] at hended
      exact if_pos (isCounted_iff.mpr (hended.resolve_left (by decide)))
  | new | inited =>
      rw [hphase] at hended
      exact absurd (hvalid.ending?_of_fresh (by simp [hphase]) vertex) (hended.resolve_left (by decide))

/-- The second copy of a signal, after whatever a job was sent before the first one and in between. A kill
and a report of the end of a vertex then make no difference, also a report with another ending if both are
endings; a command to initialise or to start leaves the job in error. -/
theorem second_copy_rests {plan : Plan} {graph : Graph} (hgraph : Graph.ofPlan plan = .ok graph) (id : DagId)
    (name : String) (before between : List DagSignal) :
    let after := fun signal =>
      (Step.run handle (create id name graph) (before ++ [signal] ++ between)).machine
    (after .kill).handle .kill = .rest (after .kill) ∧
    (∀ vertex phase,
      let dag := after (.vertexCompleted vertex phase)
      dag.handle (.vertexCompleted vertex phase) = .rest dag ∧
      (phase.isTerminal = true → ∀ other : Phase, other.isTerminal = true →
        dag.handle (.vertexCompleted vertex other) = .rest dag)) ∧
    ((after .init).handle .init).machine.phase = .error ∧
    ((after .start).handle .start).machine.phase = .error := by
  intro after
  have hbefore := (valid_create_of_built hgraph id name).run before
  have hvalid : ∀ signal, (after signal).Valid := fun signal =>
    (valid_create_of_built hgraph id name).run (before ++ [signal] ++ between)
  have hheard : ∀ signal, (after signal).Heard signal := by
    intro signal
    simp only [after, List.append_assoc, Step.machine_run_append before]
    exact heard_run hbefore signal between
  refine ⟨handleKill_of_heard (hheard .kill), fun vertex phase => ⟨?_, fun _ other hother => ?_⟩,
    handleInit_of_heard (hheard .init), handleStart_of_heard (hheard .start)⟩
  · exact handleVertexCompleted_of_heard (hvalid _) (hheard _)
  · exact handleVertexCompleted_of_heard (hvalid _) ⟨(hheard (.vertexCompleted vertex phase)).1, Or.inl hother⟩

/-- In the job of two vertices the first is reported as killed though nobody asked for it, and then the user
kills the job. While that goes on, the news that the vertex failed after all makes no difference; and a job
that is started, killed and started again errs. -/
theorem second_copy_rests_line :
    let dag := (Step.run handle (create ⟨1⟩ "line" Coordinator.lineGraph)
      ([.init, .start] ++ [.vertexCompleted ⟨0⟩ .killed] ++ [.kill])).machine
    dag.phase = .killWait ∧ dag.killed = 1 ∧ dag.handle (.vertexCompleted ⟨0⟩ .failed) = .rest dag ∧
      ((Step.run handle (create ⟨1⟩ "line" Coordinator.lineGraph)
        ([.init] ++ [.start] ++ [.kill])).machine.handle .start).machine.phase = .error := by
  intro dag
  obtain ⟨-, hreports, -⟩ := second_copy_rests Coordinator.ofPlan_line ⟨1⟩ "line" [.init, .start] [.kill]
  obtain ⟨-, -, -, hstart⟩ := second_copy_rests Coordinator.ofPlan_line ⟨1⟩ "line" [.init] [.kill]
  exact ⟨by decide, by decide, (hreports ⟨0⟩ .killed).2 rfl .failed rfl, hstart⟩

end Dag

end JobFlow
