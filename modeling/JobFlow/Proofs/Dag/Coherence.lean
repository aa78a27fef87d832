import JobFlow.Proofs.Dag.Responses
import JobFlow.Proofs.Graph.Soundness
import JobFlow.Proofs.History
import JobFlow.Proofs.Run

/-!
The phase, the cause and the tallies of a job agree with each other, whatever the job is sent. The first
cause stays, and it decides where the phase can go: a job succeeds or fails out of `running` only, and
out of `killWait` it never succeeds. Main statement: all of this holds in the whole of every history.
-/

namespace JobFlow

/-- The phases to which a job can move. -/
def Phase.successors : Phase → List Phase
  | new => [inited, error]
  | inited => [running, killWait, error]
  | running => [killWait, succeeded, failed, error]
  | killWait => [killed, failed, error]
  | succeeded | failed | killed => [error]
  | error => []

/-- The cause that the end of a vertex gives to a job that has none. -/
def Tally.blame (tally : Tally) : Phase → Cause
  | .failed => .vertexFailure
  | .killed => if tally.killRequested then .none else .vertexFailure
  | .new | .inited | .running | .succeeded | .error | .killWait => .none

theorem Cause.orElse_none (cause : Cause) : cause.orElse .none = cause := by
  cases cause <;> rfl

namespace Dag

/-! ### The cause -/

theorem cause_killByUser (dag : Dag) : dag.killByUser.machine.cause = dag.cause.orElse .userKill := by
  rw [killByUser]
  dsimp only
  rw [cause_windUp]
  split <;> rfl

theorem cause_account_eq (dag : Dag) (vertex : VertexId) (tally : Tally) (phase : Phase) :
    (dag.account vertex tally phase).machine.cause = dag.cause.orElse (tally.blame phase) := by
  unfold account
  cases phase with
  | succeeded =>
      dsimp only
      rw [cause_windUp, Tally.blame, Cause.orElse_none]
  | failed =>
      dsimp only
      rw [cause_windUp]
      rfl
  | killed =>
      rw [Tally.blame]
      dsimp only
      split
      · rw [cause_windUp, Cause.orElse_none]
      · rw [cause_windUp]
        rfl
  | error | new | inited | running | killWait =>
      dsimp only
      rw [Step.machine_andThen, cause_endInError, Tally.blame, Cause.orElse_none]
      rfl

section Change

variable {dag after : Dag} {signal : DagSignal} (hchange : dag.Change signal after)

include hchange

/-- The first cause is kept. -/
theorem Change.cause_of_set (hcause : dag.cause ≠ .none) : after.cause = dag.cause := by
  cases hchange with
  | kept | begun => rfl
  | killed => rw [cause_killByUser, blame_kept hcause]
  | counted vertex phase _ _ _ tally => rw [cause_account_eq, blame_kept hcause]
  | rejected _ reason => exact cause_violate dag reason

/-- Only a live job counts endings. -/
theorem Change.ending?_of_idle (hidle : ¬ (dag.phase = .running ∨ dag.phase = .killWait))
    (vertex : VertexId) : after.ending? vertex = dag.ending? vertex := by
  cases hchange with
  | kept | begun => rfl
  | killed => exact ending?_killByUser dag vertex
  | counted _ _ _ hlive => exact absurd hlive hidle
  | rejected _ reason => exact ending?_violate dag reason vertex

end Change

/-! ### The ways of the phase -/

section Moves

variable {dag : Dag} (hvalid : dag.Valid) (signal : DagSignal)

include hvalid

/-- As long as an ending is missing after a step, the job is not over otherwise than in error. -/
theorem Valid.not_ended {vertex : VertexId} (hindex : vertex.index < dag.vertexCount)
    (hending : dag.ending? vertex = none) :
    ¬ (dag.phase = .succeeded ∨ dag.phase = .failed ∨ dag.phase = .killed) := by
  intro hended
  have hnone := (ending?_eq_none_iff hindex).mp hending
  exact (hvalid.ended hended).1 (List.mem_of_getElem? hnone)

/-- A job that was not started has counted nobody, so it does not end in one step. -/
theorem not_ended_of_inited (hphase : dag.phase = .inited) :
    ¬ ((dag.handle signal).machine.phase = .succeeded ∨ (dag.handle signal).machine.phase = .failed ∨
      (dag.handle signal).machine.phase = .killed) := by
  have hlawful := lawful_handle hvalid signal
  have hindex : (VertexId.mk 0).index < dag.vertexCount := List.length_pos_iff.mpr hvalid.nonempty
  have hempty : dag.ending? ⟨0⟩ = none :=
    (hvalid.fresh (Or.inr hphase)).2 _ (List.mem_of_getElem? (getElem?_endings_of_lt hindex))
  have hsame := (dag.change_handle signal).ending?_of_idle (by simp [hphase]) ⟨0⟩
  rw [← hlawful.follows.vertexCount] at hindex
  exact hlawful.valid.not_ended hindex (hsame.trans hempty)

/-- A running job has no kill of its user for a cause, and gets none by counting an ending. -/
theorem not_killed_of_running (hphase : dag.phase = .running) :
    (dag.handle signal).machine.phase ≠ .killed := by
  intro hkilled
  have hlawful := lawful_handle hvalid signal
  have hchange := dag.change_handle signal
  have hcause : (dag.handle signal).machine.cause = .userKill := by
    have hfinal := (hlawful.valid.ended (Or.inr (Or.inr hkilled))).2
    rw [hkilled] at hfinal
    cases hnew : (dag.handle signal).machine.cause with
    | userKill => rfl
    | none | vertexFailure =>
        rw [hnew] at hfinal
        cases hfinal
  by_cases hkill : signal = .kill
  · obtain ⟨vertex, hindex, hending⟩ := exists_of_none_mem (hvalid.alive (Or.inl hphase))
    have hsame := hchange.ending?_of_command (by simp [hkill]) vertex
    rw [← hlawful.follows.vertexCount] at hindex
    exact hlawful.valid.not_ended hindex (hsame.trans hending) (Or.inr (Or.inr hkilled))
  · rcases hchange.cause_cases hkill with hsame | ⟨hfailure, -⟩
    · exact hvalid.running hphase (hsame.symm.trans hcause)
    · rw [hfailure] at hcause
      cases hcause

/-- A job that is being killed has a cause, and keeps it. -/
theorem not_succeeded_of_killWait (hphase : dag.phase = .killWait) :
    (dag.handle signal).machine.phase ≠ .succeeded := by
  intro hsucceeded
  have hcause := hvalid.killWait hphase
  have hfinal := ((lawful_handle hvalid signal).valid.ended (Or.inl hsucceeded)).2
  rw [hsucceeded, (dag.change_handle signal).cause_of_set hcause] at hfinal
  cases hset : dag.cause with
  | none => exact hcause hset
  | userKill | vertexFailure =>
      rw [hset] at hfinal
      cases hfinal

/-- A step leaves the phase as it is or moves it to a successor. -/
theorem moves_handle : (dag.handle signal).machine.phase = dag.phase ∨
    (dag.handle signal).machine.phase ∈ dag.phase.successors := by
  have hfollows := (lawful_handle hvalid signal).follows
  have hover := (dag.change_handle signal).phase_of_isTerminal
  cases hbefore : dag.phase with
  | new => rcases hfollows.started hbefore with h | h | h <;> simp [h, Phase.successors]
  | inited =>
      have hended := not_ended_of_inited hvalid signal hbefore
      have hnew := mt hfollows.new (by simp [hbefore])
      cases hafter : (dag.handle signal).machine.phase <;> simp_all [Phase.successors]
  | running =>
      have hkilled := not_killed_of_running hvalid signal hbefore
      have hnew := mt hfollows.new (by simp [hbefore])
      have hinited := mt hfollows.inited (by simp [hbefore])
      cases hafter : (dag.handle signal).machine.phase <;> simp_all [Phase.successors]
  | killWait =>
      have hsucceeded := not_succeeded_of_killWait hvalid signal hbefore
      have hnew := mt hfollows.new (by simp [hbefore])
      have hinited := mt hfollows.inited (by simp [hbefore])
      have hrunning := mt hfollows.running (by simp [hbefore])
      cases hafter : (dag.handle signal).machine.phase <;> simp_all [Phase.successors]
  | succeeded | failed | killed =>
      rcases hover (by rw [hbefore]; rfl) with h | h <;> simp [h, hbefore, Phase.successors]
  | error => exact Or.inl (hfollows.erred hbefore)

end Moves

/-! ### Coherence -/

/-- The phase, the cause and the tallies of a job agree. -/
structure Coherent (dag : Dag) : Prop where
  waiting : dag.phase = .new ∨ dag.phase = .inited → dag.cause = .none ∧
    ∀ tally ∈ dag.tallies, tally.isCounted = false ∧ tally.killRequested = false
  running : dag.phase = .running → (dag.cause = .none ∨ dag.cause = .vertexFailure) ∧
    ∃ tally ∈ dag.tallies, tally.isCounted = false
  killWait : dag.phase = .killWait → dag.cause.isSet = true ∧
    ∃ tally ∈ dag.tallies, tally.isCounted = false
  ended : dag.phase = .succeeded ∨ dag.phase = .failed ∨ dag.phase = .killed →
    dag.phase = dag.cause.finalPhase ∧ ∀ tally ∈ dag.tallies, tally.isCounted = true
  succeeded : dag.phase = .succeeded → ∀ tally ∈ dag.tallies, tally.completed = some .succeeded
  unhurt : dag.cause = .none → dag.phase ≠ .error → ∀ tally ∈ dag.tallies,
    (tally.isCounted = true → tally.completed = some .succeeded) ∧ tally.killRequested = false
  hurt : dag.cause.isSet = true → ∀ tally ∈ dag.tallies,
    tally.isCounted = false → tally.killRequested = true

section Coherent

variable {dag : Dag}

/-- What a job knows of a vertex is what its tally says. -/
theorem exists_vertex_of_mem {tally : Tally} (hmem : tally ∈ dag.tallies) :
    ∃ vertex : VertexId, vertex.index < dag.vertexCount ∧ dag.ending? vertex = tally.completed ∧
      dag.asked vertex = tally.killRequested := by
  obtain ⟨index, hindex, rfl⟩ := List.mem_iff_getElem.mp hmem
  have htally : dag.tally? ⟨index⟩ = some dag.tallies[index] := List.getElem?_eq_getElem hindex
  refine ⟨⟨index⟩, hindex, ?_, ?_⟩
  · rw [ending?, htally, Option.bind_some]
  · rw [asked, htally, Option.any_some]

theorem isCounted_eq_false_iff {tally : Tally} : tally.isCounted = false ↔ tally.completed = none := by
  rw [Tally.isCounted, Option.isSome_eq_false_iff, Option.isNone_iff_eq_none]

theorem Valid.coherent (hvalid : dag.Valid) : dag.Coherent := by
  have hending : ∀ tally ∈ dag.tallies, tally.completed ∈ dag.endings :=
    fun tally hmem => List.mem_map_of_mem hmem
  have hmissing : none ∈ dag.endings → ∃ tally ∈ dag.tallies, tally.isCounted = false := by
    intro hnone
    obtain ⟨tally, hmem, hcompleted⟩ := List.mem_map.mp hnone
    exact ⟨tally, hmem, isCounted_eq_false_iff.mpr hcompleted⟩
  have hunhurt : dag.cause = .none → dag.phase ≠ .error → ∀ tally ∈ dag.tallies,
      (tally.completed = none ∨ tally.completed = some .succeeded) ∧ tally.killRequested = false := by
    intro hcause herror tally hmem
    obtain ⟨hasked, hbooks, -⟩ := hvalid.unhurt hcause herror
    obtain ⟨vertex, -, -, hrequested⟩ := exists_vertex_of_mem hmem
    exact ⟨hbooks _ (hending tally hmem), hrequested ▸ hasked vertex⟩
  have hended : dag.phase = .succeeded ∨ dag.phase = .failed ∨ dag.phase = .killed →
      ∀ tally ∈ dag.tallies, tally.completed ≠ none := by
    intro hphase tally hmem hnone
    exact (hvalid.ended hphase).1 (hnone ▸ hending tally hmem)
  constructor
  · intro hphase
    obtain ⟨hcause, hempty⟩ := hvalid.fresh hphase
    have herror : dag.phase ≠ .error := by rcases hphase with h | h <;> simp [h]
    refine ⟨hcause, fun tally hmem => ⟨?_, (hunhurt hcause herror tally hmem).2⟩⟩
    exact isCounted_eq_false_iff.mpr (hempty _ (hending tally hmem))
  · intro hphase
    refine ⟨?_, hmissing (hvalid.alive (Or.inl hphase))⟩
    have hcause := hvalid.running hphase
    cases hset : dag.cause with
    | none => exact Or.inl rfl
    | userKill => exact absurd hset hcause
    | vertexFailure => exact Or.inr rfl
  · intro hphase
    exact ⟨Cause.isSet_iff.mpr (hvalid.killWait hphase), hmissing (hvalid.alive (Or.inr hphase))⟩
  · intro hphase
    refine ⟨(hvalid.ended hphase).2, fun tally hmem => ?_⟩
    rw [← Bool.not_eq_false, isCounted_eq_false_iff]
    exact hended hphase tally hmem
  · intro hphase tally hmem
    have hfinal := (hvalid.ended (Or.inl hphase)).2
    have hcause : dag.cause = .none := by
      cases hset : dag.cause with
      | none => rfl
      | userKill | vertexFailure =>
          rw [hphase, hset] at hfinal
          cases hfinal
    have hbooks := (hunhurt hcause (by simp [hphase]) tally hmem).1
    exact hbooks.resolve_left (hended (Or.inl hphase) tally hmem)
  · intro hcause herror tally hmem
    obtain ⟨hbooks, hrequested⟩ := hunhurt hcause herror tally hmem
    refine ⟨fun hcounted => hbooks.resolve_left ?_, hrequested⟩
    intro hnone
    rw [isCounted_eq_false_iff.mpr hnone] at hcounted
    cases hcounted
  · intro hcause tally hmem hcounted
    obtain ⟨vertex, hindex, hcompleted, hrequested⟩ := exists_vertex_of_mem hmem
    have hnone : dag.ending? vertex = none := hcompleted.trans (isCounted_eq_false_iff.mp hcounted)
    exact hrequested ▸ hvalid.hurt (Cause.isSet_iff.mp hcause) vertex hindex hnone

end Coherent

section History

variable {dag : Dag} (hvalid : dag.Valid) (signals : List DagSignal)

include hvalid

theorem Valid.run : (Step.run handle dag signals).machine.Valid :=
  Step.run_keeps hvalid (fun _ signal h => (lawful_handle h signal).valid) signals

theorem Valid.stays_run : (Step.run handle dag signals).machine.vertexCount = dag.vertexCount ∧
    (Step.run handle dag signals).machine.id = dag.id := by
  refine (Step.run_keeps (motive := fun machine : Dag => machine.Valid ∧
    machine.vertexCount = dag.vertexCount ∧ machine.id = dag.id) ⟨hvalid, rfl, rfl⟩ ?_ signals).2
  rintro machine signal ⟨h, hcount, hid⟩
  have hlawful := lawful_handle h signal
  exact ⟨hlawful.valid, hlawful.follows.vertexCount.trans hcount, hlawful.follows.id.trans hid⟩

theorem Valid.vertexCount_run : (Step.run handle dag signals).machine.vertexCount = dag.vertexCount :=
  (hvalid.stays_run signals).1

theorem Valid.id_run : (Step.run handle dag signals).machine.id = dag.id :=
  (hvalid.stays_run signals).2

omit hvalid in
theorem cause_run_of_set (hcause : dag.cause ≠ .none) :
    (Step.run handle dag signals).machine.cause = dag.cause := by
  refine Step.run_keeps (motive := fun machine : Dag => machine.cause = dag.cause) rfl ?_ signals
  intro machine signal hsame
  rw [← hsame]
  exact (machine.change_handle signal).cause_of_set (hsame ▸ hcause)

end History

/-- The books of a job over the graph of a plan, at the start. -/
theorem valid_create_of_built {plan : Plan} {graph : Graph} (hgraph : Graph.ofPlan plan = .ok graph)
    (id : DagId) (name : String) : (create id name graph).Valid :=
  valid_create (Graph.sound_ofPlan hgraph).1.nonempty

/-- A job over the graph of a plan has a tally for each vertex of the plan, whatever it is sent. -/
theorem vertexCount_of_built {plan : Plan} {graph : Graph} (hgraph : Graph.ofPlan plan = .ok graph)
    (id : DagId) (name : String) (signals : List DagSignal) :
    (Step.run handle (create id name graph) signals).machine.vertexCount = plan.vertices.length :=
  calc (Step.run handle (create id name graph) signals).machine.vertexCount
      = (create id name graph).vertexCount :=
        (valid_create_of_built hgraph id name).vertexCount_run signals
    _ = graph.size := List.length_replicate
    _ = plan.vertices.length := (Graph.sound_ofPlan hgraph).2

/-- Whatever a job over the graph of a plan is sent, in whatever order, its phase, its cause and its
tallies agree all the time. The next signal moves the phase along the table of successors or not at all,
and a cause that is set stays in all that follows. -/
theorem coherent_throughout {plan : Plan} {graph : Graph} (hgraph : Graph.ofPlan plan = .ok graph)
    (id : DagId) (name : String) (signals : List DagSignal) :
    let dag := (Step.run handle (create id name graph) signals).machine
    dag.tallies.length = plan.vertices.length ∧ dag.Coherent ∧
      (∀ signal, (dag.handle signal).machine.phase = dag.phase ∨
        (dag.handle signal).machine.phase ∈ dag.phase.successors) ∧
      (dag.cause.isSet = true →
        ∀ later, (Step.run handle dag later).machine.cause = dag.cause) := by
  have hstart := valid_create_of_built hgraph id name
  have hvalid := hstart.run signals
  refine ⟨?_, hvalid.coherent, moves_handle hvalid, ?_⟩
  · have hcount : (create id name graph).vertexCount = graph.size := List.length_replicate
    exact (hstart.vertexCount_run signals).trans (hcount.trans (Graph.sound_ofPlan hgraph).2)
  · exact fun hcause later => cause_run_of_set later (Cause.isSet_iff.mp hcause)

/-- The job of two vertices after the failure of the first: it runs on, and waits for the second, which
it told to die. -/
theorem coherent_throughout_line :
    let dag := (Step.run handle (create ⟨1⟩ "line" Coordinator.lineGraph)
      [.init, .start, .vertexCompleted ⟨0⟩ .failed]).machine
    dag.phase = .running ∧ dag.cause = .vertexFailure ∧ dag.Coherent ∧
      (Step.run handle dag [.kill, .vertexCompleted ⟨1⟩ .killed]).machine.cause = .vertexFailure := by
  intro dag
  obtain ⟨-, hcoherent, -, hkept⟩ := coherent_throughout Coordinator.ofPlan_line ⟨1⟩ "line"
    [.init, .start, .vertexCompleted ⟨0⟩ .failed]
  have hcause : dag.cause = .vertexFailure := by decide
  exact ⟨by decide, hcause, hcoherent, (hkept (by decide) _).trans hcause⟩

end Dag

end JobFlow
