import JobFlow.Proofs.Dag.Kills
import JobFlow.Proofs.DeadlockFreedom
import JobFlow.Proofs.Operation

/-!
A job that is torn down leaves nobody behind. Whichever way a live job takes to its end, it has told
everyone to die whose ending it had not counted by then, and it never forgets whom it has told. Main
statement: once nothing waits, no vertex of such a job is left that has not begun or that still runs.
-/

namespace JobFlow

namespace Coordinator

variable {setting : Setting} {coordinator : Coordinator}

theorem Manned.attended (hmanned : coordinator.Manned setting)
    (hattended : coordinator.attempt.dag.Attended) (operations : List Operation) :
    (coordinator.through operations).attempt.dag.Attended := by
  refine hmanned.invariant (fun _ => True) (motive := fun situation => situation.attempt.dag.Attended)
    hattended ?_ ?_ ?_ (fun _ _ _ => trivial)
  · exact fun situation event _ hearlier => hearlier
  · intro situation event rest step hsound hqueue hturn hearlier
    rcases hturn.dag_cases with hsame | ⟨signal, -, hdag, hlawful, -⟩
    · show step.machine.dag.Attended
      rw [hsame]
      exact hearlier
    · show step.machine.dag.Attended
      rw [hdag]
      exact hearlier.handle hlawful
  · intro before after hfades hbefore
    rw [hfades.attempt]
    exact hbefore

/-- With nothing waiting, everyone who was told to die has heard of it, and everyone who was counted is
over. -/
theorem Fresh.brought_down {layer : Option TaskLayer} (hfresh : coordinator.Fresh setting layer)
    {moves : List Move}
    (hsends : ∀ vertex phase, Move.send (.dag setting.id (.vertexCompleted vertex phase)) ∉ moves)
    (hquiet : (coordinator.after moves).situation.Quiet)
    (htorn : (coordinator.after moves).attempt.dag.TornDown) {id : VertexId} {vertex : Vertex}
    (hvertex : (coordinator.after moves).attempt.vertex? id = some vertex) :
    vertex.phase = .killWait ∨ vertex.phase.isTerminal = true := by
  have hwired := (hfresh.sound moves).wired
  have hindex := hwired.index_lt hvertex
  cases hending : (coordinator.after moves).attempt.dag.ending? id with
  | some phase =>
      have hphase := (hfresh.accounted moves hsends).of_ending hvertex hending
      rw [hphase]
      exact Or.inr (hwired.dag.toCounted.isTerminal hending)
  | none =>
      have hasked := htorn id (hwired.index_lt_vertexCount hvertex) hending
      have hrank := ((hfresh.promises moves).1.kill id hasked hindex).fulfilled hquiet hvertex
      cases hphase : vertex.phase with
      | new | inited | running =>
          rw [hphase] at hrank
          exact absurd hrank (by decide)
      | killWait => exact Or.inl rfl
      | succeeded | failed | killed | error => exact Or.inr rfl

/-- A teardown reaches every vertex. Whatever is sent from outside, short of news in the name of this
job, and in whatever order lanes are served: when no event waits and the job has a cause to be torn down,
or is over after it was running or being killed, every vertex is being killed or over. -/
theorem teardown_complete {id : DagId} {plan : Plan} {config : Config} {coordinator : Coordinator}
    (hsubmit : Coordinator.submit id plan config = .ok coordinator) (layer : Option TaskLayer)
    (moves : List Move)
    (hsends : ∀ vertex phase, Move.send (.dag id (.vertexCompleted vertex phase)) ∉ moves) :
    let start := coordinator.equip layer
    let reached := start.after moves
    reached.situation.Quiet →
    (reached.attempt.dag.cause ≠ .none ∨ reached.attempt.dag.phase.isTerminal = true ∧
      ∃ earlier, earlier <+: moves ∧ ((start.after earlier).attempt.dag.phase = .running ∨
        (start.after earlier).attempt.dag.phase = .killWait)) →
    reached.attempt.vertices.length = plan.vertices.length ∧
      ∀ vertex ∈ reached.attempt.vertices,
        vertex.phase = .killWait ∨ vertex.phase.isTerminal = true := by
  obtain ⟨setting, rfl, rfl, -, hfresh⟩ := fresh_of_submit hsubmit layer
  have hwired := (hfresh.sound moves).wired
  intro start reached hquiet hdown
  have htorn : reached.attempt.dag.TornDown := by
    rcases hdown with hcause | ⟨hterminal, earlier, ⟨later, rfl⟩, hlive⟩
    · exact hwired.dag.hurt hcause
    · -- From the moment the job was live the rest of the run is a run of its own.
      have hearlier : (start.after earlier).Manned setting := by
        rw [after_eq_through]
        exact hfresh.manned.through _
      have hattended := hearlier.attended (Or.inl hlive) (later.map Move.operation)
      rw [after_eq_through, ← through_append, ← List.map_append, ← after_eq_through] at hattended
      rcases hattended with hstill | ⟨-, htorn⟩
      · exfalso
        rcases hstill with h | h
        · rw [h] at hterminal
          cases hterminal
        · rw [h] at hterminal
          cases hterminal
      · exact htorn
  refine ⟨hwired.length.trans setting.size, fun vertex hmem => ?_⟩
  obtain ⟨index, hvertex⟩ := List.getElem?_of_mem hmem
  have hfound : reached.attempt.vertex? ⟨index⟩ = some vertex := hvertex
  exact hfresh.brought_down hsends hquiet htorn hfound

/-- The job of two vertices, whose tasks nobody carries out, is started once more while its first vertex
runs, and errs; or it is killed by its user. Both times the first vertex is left being killed and the
second one is over. -/
theorem teardown_complete_line :
    let erring := lineRun 4 ++ .send (.dag ⟨1⟩ .start) :: (lineLanes ++ lineLanes).map .deliver
    let killing := lineRun 4 ++ .send (.dag ⟨1⟩ .kill) :: (lineLanes ++ lineLanes).map .deliver
    (line.after erring).attempt.dag.phase = .error ∧
      (line.after erring).attempt.dag.cause = .none ∧
      (line.after killing).attempt.dag.cause = .userKill ∧
      ∀ moves ∈ [erring, killing], ∀ vertex ∈ (line.after moves).attempt.vertices,
        vertex.phase = .killWait ∨ vertex.phase.isTerminal = true := by
  intro erring killing
  have hnoNews : ∀ vertex phase, ∀ moves ∈ [erring, killing],
      Move.send (.dag ⟨1⟩ (.vertexCompleted vertex phase)) ∉ moves := by
    simp [erring, killing, lineRun]
  have hlive : (line.after (lineRun 4)).attempt.dag.phase = .running := by decide
  have herring := teardown_complete submit_line none erring
    (fun vertex phase => hnoNews vertex phase erring (by simp))
    (quiet_of_queued (by decide))
    (Or.inr ⟨by decide, lineRun 4, List.prefix_append _ _, Or.inl hlive⟩)
  have hkilling := teardown_complete submit_line none killing
    (fun vertex phase => hnoNews vertex phase killing (by simp))
    (quiet_of_queued (by decide))
    (Or.inl (by decide))
  refine ⟨by decide, by decide, by decide, ?_⟩
  intro moves hmoves
  rcases List.mem_pair.mp hmoves with rfl | rfl
  · exact herring.2
  · exact hkilling.2

end Coordinator

end JobFlow
