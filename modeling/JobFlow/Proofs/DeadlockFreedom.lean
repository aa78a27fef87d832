import JobFlow.Proofs.Completions
import JobFlow.Proofs.Promises

/-!
A job never waits for nothing. When no event waits and the job is not over, all promises are fulfilled
and the job knows how every vertex ended; so a vertex that has not started misses a source that has not
passed the gate, and going back from source to source, which must end somewhere, leads to a vertex that
runs and still waits for the report of a task that it has scheduled.
-/

namespace JobFlow

namespace Situation

variable {setting : Setting} {situation : Situation}

/-- Every launched vertex with tasks has asked for them: the request waits, or was handled. -/
def Requested (heard : List Event) (situation : Situation) : Prop :=
  ∀ id vertex, situation.attempt.vertex? id = some vertex → vertex.launched = true →
    vertex.progress.total ≠ 0 → ∃ resource, situation.Waits (.tasks id (.schedule vertex.tasks resource)) ∨
      .tasks id (.schedule vertex.tasks resource) ∈ heard

theorem requested_create (setting : Setting) (layer : Option TaskLayer) : Requested []
    ⟨{ Attempt.create setting.id setting.plan setting.graph setting.gating with layer := layer },
      fun _ => []⟩ := by
  intro id vertex hvertex hlaunched
  obtain ⟨spec, -, rfl⟩ := Attempt.vertex?_create hvertex
  cases hlaunched

theorem Requested.send {heard : List Event} (hrequested : situation.Requested heard)
    (events : List Event) : (situation.send events).Requested heard := by
  intro id vertex hvertex hlaunched htotal
  obtain ⟨resource, h⟩ := hrequested id vertex hvertex hlaunched htotal
  exact ⟨resource, h.imp_left (fun hwaits => waits_send.mpr (Or.inl hwaits))⟩

theorem Requested.take (hsound : situation.Sound setting) {heard : List Event}
    (hrequested : situation.Requested heard) {event : Event} {rest : List Event} {step : Step Attempt}
    (hqueue : situation.queue event.entity = event :: rest)
    (hturn : situation.attempt.Turn event step) :
    (situation.take event.entity rest step).Requested (heard ++ [event]) := by
  intro id vertex hvertex hlaunched htotal
  have hkeep : ∀ resource, (situation.Waits (.tasks id (.schedule vertex.tasks resource)) ∨
      .tasks id (.schedule vertex.tasks resource) ∈ heard) →
      ((situation.take event.entity rest step).Waits (.tasks id (.schedule vertex.tasks resource)) ∨
        .tasks id (.schedule vertex.tasks resource) ∈ heard ++ [event]) := by
    intro resource h
    rcases h with hwaits | hheard
    · rcases hwaits.take step hqueue with heq | hstill
      · exact Or.inr (List.mem_append_right _ (List.mem_singleton.mpr heq))
      · exact Or.inl hstill
    · exact Or.inr (List.mem_append_left _ hheard)
  rcases hturn.vertex_cases hvertex with hsame | ⟨before, signal, -, hbefore, rfl, hlawful, houtbound, -⟩
  · obtain ⟨resource, h⟩ := hrequested id vertex hsame hlaunched htotal
    exact ⟨resource, hkeep resource h⟩
  · have hid := hlawful.follows.id.trans (hsound.wired.vertex_id hbefore)
    cases hfirst : before.launched with
    | false =>
        have hmem := Vertex.schedule_mem_announcements hfirst hlaunched htotal
        rw [hid, ← houtbound] at hmem
        exact ⟨_, Or.inl (waits_of_outbound hmem)⟩
    | true =>
        have htasks : (before.handle signal).machine.tasks = before.tasks := by
          simp only [Vertex.tasks, hlawful.follows.id, hlawful.follows.total]
        rw [hlawful.follows.total] at htotal
        obtain ⟨resource, h⟩ := hrequested id before hbefore hfirst htotal
        rw [← htasks] at h
        exact ⟨resource, hkeep resource h⟩

section Quiet

variable (hsound : situation.Sound setting) (haccounted : situation.Accounted setting)
  (hpromises : situation.Promises setting) (hquiet : situation.Quiet)
  (hlive : situation.attempt.dag.phase = .running ∨ situation.attempt.dag.phase = .killWait)

include hsound haccounted hpromises hquiet hlive

/-- When nothing waits, a live job without a cause has a vertex that has neither ended nor started only
because a source has not passed the gate. -/
theorem waiting_of_quiet {id : VertexId} {vertex : Vertex}
    (hvertex : situation.attempt.vertex? id = some vertex) :
    vertex.phase ≠ .new ∧ (vertex.phase = .inited → situation.attempt.dag.cause = .none ∧
      vertex.toldToStart = true ∧ ∃ source ∈ vertex.sources, ∃ machine,
        situation.attempt.vertex? source = some machine ∧ ¬ machine.Passed setting.gating) := by
  have hwired := hsound.wired
  have hindex := hwired.index_lt hvertex
  have herror : situation.attempt.dag.phase ≠ .error := by
    rcases hlive with h | h <;> simp [h]
  have hnew : situation.attempt.dag.phase ≠ .new := by
    rcases hlive with h | h <;> simp [h]
  constructor
  · intro hphase
    have hinit := (hpromises.init hnew herror id hindex).fulfilled hquiet hvertex
    rw [hphase] at hinit
    exact absurd hinit (by decide)
  · intro hphase
    have hcause : situation.attempt.dag.cause = .none := by
      apply Decidable.of_not_not
      intro hset
      have hending := haccounted.ending?_eq_ended? hquiet herror hvertex
      rw [Vertex.ended?_of_live (by rw [hphase]; rfl)] at hending
      have hasked := hwired.dag.hurt hset id (by rwa [hwired.vertexCount]) hending
      have hkill := (hpromises.kill id hasked hindex).fulfilled hquiet hvertex
      rw [hphase] at hkill
      exact absurd hkill (by decide)
    have hrunning : situation.attempt.dag.phase = .running := by
      rcases hlive with h | h
      · exact h
      · exact absurd hcause (hwired.dag.killWait h)
    have htold : vertex.toldToStart = true := by
      rcases (hpromises.start hrunning id hindex).fulfilled hquiet hvertex with h | h
      · exact h
      · rw [hphase] at h
        exact absurd h (by decide)
    obtain ⟨source, hsource, hmissing⟩ := (hwired.valid id vertex hvertex).gated hphase htold
    have hlink := hsource
    rw [hwired.vertex_sources hvertex] at hlink
    obtain ⟨machine, hmachine⟩ := hwired.exists_vertex source (setting.sound.source_lt source id hlink)
    refine ⟨hcause, htold, source, hsource, machine, hmachine, fun hpassed => ?_⟩
    have htarget := (setting.sound.linked source id).mp hlink
    rcases (hpromises.source source machine hmachine hpassed id htarget).fulfilled hquiet hvertex with
      hready | hrank
    · exact hmissing hready
    · rw [hphase] at hrank
      exact absurd hrank (by decide)

/-- Going back from a vertex that has not ended to the sources that it waits for ends at a vertex that
runs or is being killed. -/
theorem exists_busy_of_rank {rank : VertexId → Nat}
    (hrank : ∀ source target, source ∈ setting.graph.sources target → rank source < rank target)
    (bound : Nat) {id : VertexId} (hbound : rank id < bound) {vertex : Vertex}
    (hvertex : situation.attempt.vertex? id = some vertex)
    (hunfinished : vertex.phase.isTerminal = false) :
    ∃ busy machine, situation.attempt.vertex? busy = some machine ∧
      (machine.phase = .running ∨ machine.phase = .killWait) := by
  induction bound generalizing id vertex with
  | zero => omega
  | succ bound ih =>
      have hwaiting := waiting_of_quiet hsound haccounted hpromises hquiet hlive hvertex
      cases hphase : vertex.phase with
      | new => exact absurd hphase hwaiting.1
      | running => exact ⟨id, vertex, hvertex, Or.inl hphase⟩
      | killWait => exact ⟨id, vertex, hvertex, Or.inr hphase⟩
      | succeeded | failed | killed | error => simp [hphase, Phase.isTerminal] at hunfinished
      | inited =>
          obtain ⟨hcause, -, source, hsource, machine, hmachine, hnotPassed⟩ := hwaiting.2 hphase
          have herror : situation.attempt.dag.phase ≠ .error := by
            rcases hlive with h | h <;> simp [h]
          rw [hsound.wired.vertex_sources hvertex] at hsource
          have hsmaller := hrank source id hsource
          apply ih (by omega) hmachine
          -- A source that ended has succeeded, since the job has no cause, and so passed every gate.
          cases hterminal : machine.phase.isTerminal with
          | false => rfl
          | true =>
              have hending := haccounted.ending?_eq_ended? hquiet herror hmachine
              rw [Vertex.ended?_of_isTerminal hterminal, Dag.ending?_eq_some_iff] at hending
              have hbooks := (hsound.wired.dag.unhurt hcause herror).2.1 _
                (List.mem_of_getElem? hending)
              have hsucceeded : machine.phase = .succeeded := by simpa using hbooks
              have hlaunched :=
                ((hsound.wired.valid source machine hmachine).allSucceeded hsucceeded).1
              exfalso
              apply hnotPassed
              cases setting.gating with
              | sourceStarted => exact hlaunched
              | sourceSucceeded => exact hsucceeded

/-- Some vertex runs or is being killed. -/
theorem exists_busy : ∃ busy machine, situation.attempt.vertex? busy = some machine ∧
    (machine.phase = .running ∨ machine.phase = .killWait) := by
  obtain ⟨rank, hrank⟩ := setting.sound.acyclic
  have herror : situation.attempt.dag.phase ≠ .error := by
    rcases hlive with h | h <;> simp [h]
  obtain ⟨id, hindex, hending⟩ := Dag.exists_of_none_mem (hsound.wired.dag.alive hlive)
  rw [hsound.wired.vertexCount] at hindex
  obtain ⟨vertex, hvertex⟩ := hsound.wired.exists_vertex id hindex
  have hended := haccounted.ending?_eq_ended? hquiet herror hvertex
  rw [hending] at hended
  refine exists_busy_of_rank hsound haccounted hpromises hquiet hlive hrank (rank id + 1)
    (Nat.lt_succ_self _) hvertex ?_
  cases hterminal : vertex.phase.isTerminal with
  | false => rfl
  | true =>
      rw [Vertex.ended?_of_isTerminal hterminal] at hended
      cases hended

end Quiet

end Situation

/-- Whatever is sent from outside, no signal is lost and every task that was launched is asked for. -/
theorem Coordinator.Fresh.promises {setting : Setting} {layer : Option TaskLayer}
    {coordinator : Coordinator} (hfresh : coordinator.Fresh setting layer) (moves : List Move) :
    (coordinator.after moves).situation.Promises setting ∧
      (coordinator.after moves).situation.Requested (coordinator.delivered moves) := by
  refine hfresh.induction (motive := fun _ heard situation =>
    situation.Promises setting ∧ situation.Requested heard) ?_ ?_ ?_ ?_ moves
  · exact ⟨Situation.promises_create setting layer, Situation.requested_create setting layer⟩
  · rintro earlier event ⟨hpromises, hrequested⟩
    exact ⟨hpromises.send [event], hrequested.send [event]⟩
  · exact fun earlier entity hearlier => hearlier
  · rintro earlier event rest step hqueue hturn ⟨hpromises, hrequested⟩
    have hsound := hfresh.sound earlier
    exact ⟨hpromises.take hsound hqueue hturn, hrequested.take hsound hqueue hturn⟩

/-- A job that is neither over nor in error never waits for nothing: when no event waits, some vertex
runs or is being killed and waits for the report of a task that it scheduled, and every vertex that
has not started is held back only by a source that has not passed the gate. -/
theorem Coordinator.deadlock_free {id : DagId} {plan : Plan} {config : Config}
    {coordinator : Coordinator} (hsubmit : Coordinator.submit id plan config = .ok coordinator)
    (layer : Option TaskLayer) (moves : List Move)
    (hsends : ∀ vertex phase, Move.send (.dag id (.vertexCompleted vertex phase)) ∉ moves) :
    let reached := (coordinator.equip layer).after moves
    reached.situation.Quiet →
    reached.attempt.dag.phase = .running ∨ reached.attempt.dag.phase = .killWait →
      (∃ vertexId vertex task, reached.attempt.vertex? vertexId = some vertex ∧
        (vertex.phase = .running ∨ vertex.phase = .killWait) ∧
        vertex.launched = true ∧ task ∈ vertex.unreported ∧
        ∃ tasks resource, task ∈ tasks ∧ Event.tasks vertexId (.schedule tasks resource) ∈
          (coordinator.equip layer).delivered moves) ∧
      ∀ vertexId vertex, reached.attempt.vertex? vertexId = some vertex →
        vertex.phase ≠ .new ∧ (vertex.phase = .inited → vertex.toldToStart = true ∧
          ∃ source ∈ vertex.sources, ∃ machine, reached.attempt.vertex? source = some machine ∧
            ¬ machine.Passed config.settings.gating) := by
  obtain ⟨setting, rfl, -, hgating, hfresh⟩ := fresh_of_submit hsubmit layer
  have haccounted := hfresh.accounted moves hsends
  obtain ⟨hpromises, hrequested⟩ := hfresh.promises moves
  have hsound := hfresh.sound moves
  intro reached hquiet hlive
  constructor
  · obtain ⟨vertexId, vertex, hvertex, hbusy⟩ :=
      Situation.exists_busy hsound haccounted hpromises hquiet hlive
    have hvalid := hsound.wired.valid vertexId vertex hvertex
    obtain ⟨hlaunched, hrunning⟩ := hvalid.live hbusy
    obtain ⟨task, htask⟩ := List.exists_mem_of_ne_nil _
      (hvalid.toTallied.unreported_ne_nil hlaunched hrunning)
    have hmem := (Vertex.mem_tasks hvalid.total task).mpr (Vertex.owns_of_mem_unreported htask)
    have htotal : vertex.progress.total ≠ 0 := by
      intro hzero
      simp [Vertex.tasks, hzero] at hmem
    obtain ⟨resource, hwaits | hheard⟩ := hrequested vertexId vertex hvertex hlaunched htotal
    · exact absurd (hquiet _) hwaits.ne_nil
    · exact ⟨vertexId, vertex, task, hvertex, hbusy, hlaunched, htask, vertex.tasks, resource, hmem,
        hheard⟩
  · intro vertexId vertex hvertex
    have hwaiting := Situation.waiting_of_quiet hsound haccounted hpromises hquiet hlive hvertex
    refine ⟨hwaiting.1, fun hphase => ?_⟩
    obtain ⟨-, htold, hmissing⟩ := hwaiting.2 hphase
    rw [← hgating]
    exact ⟨htold, hmissing⟩

/-- Without a task layer, the job of two vertices soon waits for the report of its first task. -/
theorem Coordinator.deadlock_free_line :
    let reached := line.after (lineRun 4)
    reached.situation.Quiet ∧ reached.attempt.dag.phase = .running ∧
      (∃ vertexId vertex task, reached.attempt.vertex? vertexId = some vertex ∧
        (vertex.phase = .running ∨ vertex.phase = .killWait) ∧ task ∈ vertex.unreported) ∧
      ∀ vertexId vertex, reached.attempt.vertex? vertexId = some vertex → vertex.phase ≠ .new := by
  have hquiet : (line.after (lineRun 4)).situation.Quiet := quiet_of_queued (by decide)
  have hrunning : (line.after (lineRun 4)).attempt.dag.phase = .running := by decide
  have hsends : ∀ vertex phase,
      Move.send (.dag ⟨1⟩ (.vertexCompleted vertex phase)) ∉ lineRun 4 := by
    simp [lineRun, lineLanes]
  obtain ⟨⟨vertexId, vertex, task, hvertex, hbusy, -, htask, -⟩, hwaiting⟩ :=
    deadlock_free submit_line none (lineRun 4) hsends hquiet (Or.inl hrunning)
  refine ⟨hquiet, hrunning, ⟨vertexId, vertex, task, hvertex, hbusy, htask⟩, ?_⟩
  exact fun otherId other hother => (hwaiting otherId other hother).1

end JobFlow
