import JobFlow.Proofs.Announcements
import JobFlow.Proofs.Situation

/-!
Signals that are never lost. Each command of the job to a vertex, and the news to a target that its
source passed the gate, are kept as promises: the signal still waits on the lane of the vertex, or the
vertex is as far as handling it takes a vertex.
-/

namespace JobFlow

/-! ### Turns of the job and of a vertex -/

namespace Attempt

variable {attempt : Attempt} {event : Event} {step : Step Attempt} (hturn : attempt.Turn event step)

include hturn

/-- A turn leaves the job alone or is its own. -/
theorem Turn.dag_cases : step.machine.dag = attempt.dag ∨
    ∃ signal, event = .dag attempt.id signal ∧
      step.machine.dag = (attempt.dag.handle signal).machine ∧
      attempt.dag.Lawful (attempt.dag.handle signal) ∧
      step.outbound = attempt.dag.announcements step.machine.dag ∧
      ∀ id, step.machine.vertex? id = attempt.vertex? id := by
  cases hturn with
  | dag signal published hlawful =>
      exact Or.inr ⟨signal, rfl, rfl, hlawful, rfl, fun _ => rfl⟩
  | vertex | tasks | finished | stray => exact Or.inl rfl

/-- A turn leaves a vertex alone or is its own. -/
theorem Turn.vertex_cases {id : VertexId} {after : Vertex}
    (hafter : step.machine.vertex? id = some after) : attempt.vertex? id = some after ∨
    ∃ before signal, event = .vertex id signal ∧ attempt.vertex? id = some before ∧
      after = (before.handle signal).machine ∧ before.Lawful (before.handle signal) ∧
      step.outbound = before.announcements after ∧ step.machine.dag = attempt.dag := by
  cases hturn with
  | dag | tasks | finished | stray => exact Or.inl hafter
  | vertex hvertex signal hlawful =>
      rw [vertex?_set hvertex] at hafter
      split at hafter
      next heq =>
        cases hafter
        subst heq
        exact Or.inr ⟨_, signal, rfl, hvertex, rfl, hlawful, rfl, rfl⟩
      next => exact Or.inl hafter

/-- A vertex after a turn follows the vertex before. -/
theorem Turn.follows {id : VertexId} {before : Vertex} (hbefore : attempt.vertex? id = some before) :
    ∃ after, step.machine.vertex? id = some after ∧ before.Follows after := by
  cases hturn with
  | dag | tasks | finished | stray => exact ⟨before, hbefore, Vertex.Follows.refl before⟩
  | vertex hvertex signal hlawful =>
      rw [vertex?_set hvertex]
      split
      next heq =>
        subst heq
        cases hvertex.symm.trans hbefore
        exact ⟨_, rfl, hlawful.follows⟩
      next => exact ⟨before, hbefore, Vertex.Follows.refl before⟩

/-- A signal for a vertex is handled by that vertex. -/
theorem Turn.handled {id : VertexId} {signal : VertexSignal} (hevent : event = .vertex id signal)
    {before : Vertex} (hbefore : attempt.vertex? id = some before) :
    step.machine.vertex? id = some (before.handle signal).machine := by
  subst hevent
  cases hturn with
  | vertex hvertex _ hlawful =>
      cases hvertex.symm.trans hbefore
      rw [vertex?_set hvertex, if_pos rfl]
  | stray _ hvertex =>
      have hnone := hvertex id signal rfl
      rw [hbefore] at hnone
      cases hnone

end Attempt

/-! ### Promises -/

namespace Situation

/-- A signal waits for a vertex, or the vertex has come to what handling the signal leads to. -/
def Promised (situation : Situation) (id : VertexId) (signal : VertexSignal)
    (reached : Vertex → Prop) : Prop :=
  situation.Waits (.vertex id signal) ∨
    ∃ vertex, situation.attempt.vertex? id = some vertex ∧ reached vertex

variable {setting : Setting} {situation : Situation}

theorem Promised.send {id : VertexId} {signal : VertexSignal} {reached : Vertex → Prop}
    (hpromised : situation.Promised id signal reached) (events : List Event) :
    (situation.send events).Promised id signal reached :=
  hpromised.imp_left (fun hwaits => waits_send.mpr (Or.inl hwaits))

/-- With nothing waiting, a promise is fulfilled. -/
theorem Promised.fulfilled {id : VertexId} {signal : VertexSignal} {reached : Vertex → Prop}
    (hpromised : situation.Promised id signal reached) (hquiet : situation.Quiet) {vertex : Vertex}
    (hvertex : situation.attempt.vertex? id = some vertex) : reached vertex := by
  rcases hpromised with hwaits | ⟨other, hother, hreached⟩
  · exact absurd (hquiet _) hwaits.ne_nil
  · cases hvertex.symm.trans hother
    exact hreached

section Take

variable {event : Event} {rest : List Event} {step : Step Attempt} (hsound : situation.Sound setting)
  (hqueue : situation.queue event.entity = event :: rest)
  (hturn : situation.attempt.Turn event step)

include hsound hqueue hturn

/-- A promise is kept in every turn, if what handling the signal leads to is never lost. -/
theorem Promised.take {id : VertexId} (hindex : id.index < setting.graph.size) (signal : VertexSignal)
    {reached : Vertex → Prop}
    (hstable : ∀ before after : Vertex, before.Follows after → reached before → reached after)
    (hreached : ∀ vertex, situation.attempt.vertex? id = some vertex →
      reached (vertex.handle signal).machine)
    (hpromised : situation.Promised id signal reached) :
    (situation.take event.entity rest step).Promised id signal reached := by
  rcases hpromised with hwaits | ⟨before, hbefore, hdone⟩
  · rcases hwaits.take step hqueue with heq | hstill
    · obtain ⟨before, hbefore⟩ := hsound.wired.exists_vertex id hindex
      exact Or.inr ⟨_, hturn.handled heq.symm hbefore, hreached before hbefore⟩
    · exact Or.inl hstill
  · obtain ⟨after, hafter, hfollows⟩ := hturn.follows hbefore
    exact Or.inr ⟨after, hafter, hstable before after hfollows hdone⟩

end Take

/-- The promises of the job to its vertices and of the vertices to their targets. -/
structure Promises (setting : Setting) (situation : Situation) : Prop where
  init : situation.attempt.dag.phase ≠ .new → situation.attempt.dag.phase ≠ .error →
    ∀ id : VertexId, id.index < setting.graph.size →
      situation.Promised id .init (fun vertex => 1 ≤ vertex.phase.rank)
  start : situation.attempt.dag.phase = .running → ∀ id : VertexId, id.index < setting.graph.size →
    situation.Promised id .start
      (fun vertex => vertex.toldToStart = true ∨ 2 ≤ vertex.phase.rank)
  kill : ∀ id : VertexId, situation.attempt.dag.asked id = true → id.index < setting.graph.size →
    situation.Promised id .kill (fun vertex => 3 ≤ vertex.phase.rank)
  source : ∀ id source, situation.attempt.vertex? id = some source → source.Passed setting.gating →
    ∀ target ∈ setting.graph.targets id, situation.Promised target (setting.gating.signal id)
      (fun vertex => id ∈ vertex.ready ∨ 2 ≤ vertex.phase.rank)

theorem promises_create (setting : Setting) (layer : Option TaskLayer) : Promises setting
    ⟨{ Attempt.create setting.id setting.plan setting.graph setting.gating with layer := layer },
      fun _ => []⟩ where
  init hnew := absurd rfl hnew
  start hrunning := by cases hrunning
  kill id hasked := by
    have hvalid : (Dag.create setting.id setting.plan.name setting.graph).Valid :=
      Dag.valid_create setting.sound.nonempty
    have hunhurt := hvalid.unhurt rfl (by simp [Dag.create])
    exact absurd ((hunhurt.1 id).symm.trans hasked) (by decide)
  source id source hsource hpassed := by
    obtain ⟨spec, -, rfl⟩ := Attempt.vertex?_create hsource
    cases hgate : setting.gating <;> rw [hgate] at hpassed <;> cases hpassed

theorem Promises.send (hpromises : situation.Promises setting) (events : List Event) :
    (situation.send events).Promises setting where
  init hnew herror id hindex := (hpromises.init hnew herror id hindex).send events
  start hrunning id hindex := (hpromises.start hrunning id hindex).send events
  kill id hasked hindex := (hpromises.kill id hasked hindex).send events
  source id source hsource hpassed target htarget :=
    (hpromises.source id source hsource hpassed target htarget).send events

section Promises

variable {event : Event} {rest : List Event} {step : Step Attempt} (hsound : situation.Sound setting)
  (hpromises : situation.Promises setting)
  (hqueue : situation.queue event.entity = event :: rest)
  (hturn : situation.attempt.Turn event step)

theorem rank_of_follows (least : Nat) {before after : Vertex} (hfollows : before.Follows after)
    (hbefore : least ≤ before.phase.rank) : least ≤ after.phase.rank :=
  Nat.le_trans hbefore hfollows.rank

include hsound hpromises hqueue hturn

theorem Promises.init_take (hnew : step.machine.dag.phase ≠ .new)
    (herror : step.machine.dag.phase ≠ .error) {id : VertexId} (hindex : id.index < setting.graph.size) :
    (situation.take event.entity rest step).Promised id .init (fun vertex => 1 ≤ vertex.phase.rank) := by
  have hkeep := Promised.take hsound hqueue hturn hindex .init
    (fun _ _ => rank_of_follows 1) (fun vertex _ => vertex.rank_handleInit)
  rcases hturn.dag_cases with hsame | ⟨signal, -, hdag, hlawful, houtbound, -⟩
  · rw [hsame] at hnew herror
    exact hkeep (hpromises.init hnew herror id hindex)
  · by_cases hfirst : situation.attempt.dag.phase = .new
    · have hinited : step.machine.dag.phase = .inited := by
        rw [hdag] at hnew herror ⊢
        rcases hlawful.follows.started hfirst with h | h | h
        · exact absurd h hnew
        · exact h
        · exact absurd h herror
      refine Or.inl (waits_of_outbound ?_)
      rw [houtbound]
      exact Dag.init_mem_announcements (by rwa [hsound.wired.vertexCount]) hfirst hinited
    · rw [hdag] at herror
      exact hkeep (hpromises.init hfirst (fun h => herror (hlawful.follows.erred h)) id hindex)

theorem Promises.start_take (hrunning : step.machine.dag.phase = .running) {id : VertexId}
    (hindex : id.index < setting.graph.size) :
    (situation.take event.entity rest step).Promised id .start
      (fun vertex => vertex.toldToStart = true ∨ 2 ≤ vertex.phase.rank) := by
  have hkeep := Promised.take hsound hqueue hturn hindex .start
    (fun _ _ hfollows => Or.imp hfollows.told (rank_of_follows 2 hfollows))
    (fun vertex _ => vertex.told_handleStart)
  rcases hturn.dag_cases with hsame | ⟨signal, -, hdag, hlawful, houtbound, -⟩
  · rw [hsame] at hrunning
    exact hkeep (hpromises.start hrunning id hindex)
  · rcases hlawful.follows.running (hdag ▸ hrunning) with hinited | hbefore
    · refine Or.inl (waits_of_outbound ?_)
      rw [houtbound]
      exact Dag.start_mem_announcements (by rwa [hsound.wired.vertexCount]) hinited hrunning
    · exact hkeep (hpromises.start hbefore id hindex)

theorem Promises.kill_take {id : VertexId} (hasked : step.machine.dag.asked id = true)
    (hindex : id.index < setting.graph.size) :
    (situation.take event.entity rest step).Promised id .kill (fun vertex => 3 ≤ vertex.phase.rank) := by
  have hkeep := Promised.take hsound hqueue hturn hindex .kill
    (fun _ _ => rank_of_follows 3) (fun vertex _ => vertex.rank_handleKill)
  rcases hturn.dag_cases with hsame | ⟨signal, -, hdag, hlawful, houtbound, -⟩
  · rw [hsame] at hasked
    exact hkeep (hpromises.kill id hasked hindex)
  · cases hbefore : situation.attempt.dag.asked id with
    | true => exact hkeep (hpromises.kill id hbefore hindex)
    | false =>
        refine Or.inl (waits_of_outbound ?_)
        rw [houtbound]
        exact Dag.kill_mem_announcements (by rwa [hsound.wired.vertexCount]) hbefore hasked

theorem Promises.source_take {id : VertexId} {source : Vertex}
    (hsource : step.machine.vertex? id = some source) (hpassed : source.Passed setting.gating)
    {target : VertexId} (htarget : target ∈ setting.graph.targets id) :
    (situation.take event.entity rest step).Promised target (setting.gating.signal id)
      (fun vertex => id ∈ vertex.ready ∨ 2 ≤ vertex.phase.rank) := by
  have hwired := hsound.wired
  have hindex : target.index < setting.graph.size :=
    setting.sound.target_lt id target ((setting.sound.linked id target).mpr htarget)
  have hkeep := Promised.take hsound hqueue hturn hindex (setting.gating.signal id)
    (fun _ _ hfollows => Or.imp (hfollows.ready id) (rank_of_follows 2 hfollows))
    (fun vertex hvertex => by
      rw [Vertex.handle_signal, ← hwired.vertex_gating hvertex]
      exact vertex.ready_handleSource id)
  rcases hturn.vertex_cases hsource with hsame | ⟨before, signal, -, hbefore, rfl, hlawful, houtbound, -⟩
  · exact hkeep (hpromises.source id source hsame hpassed target htarget)
  · by_cases hfirst : before.Passed setting.gating
    · exact hkeep (hpromises.source id before hbefore hfirst target htarget)
    · refine Or.inl (waits_of_outbound ?_)
      have hid := hlawful.follows.id.trans (hwired.vertex_id hbefore)
      have htargets := hlawful.follows.targets.trans (hwired.vertex_targets hbefore)
      have hmem := Vertex.signal_mem_announcements hlawful.follows hfirst hpassed (htargets ▸ htarget)
      rw [hid] at hmem
      rw [houtbound]
      exact hmem

/-- Every turn keeps the promises and makes those that it owes. -/
theorem Promises.take : (situation.take event.entity rest step).Promises setting where
  init hnew herror _ hindex := hpromises.init_take hsound hqueue hturn hnew herror hindex
  start hrunning _ hindex := hpromises.start_take hsound hqueue hturn hrunning hindex
  kill _ hasked hindex := hpromises.kill_take hsound hqueue hturn hasked hindex
  source _ _ hsource hpassed _ htarget :=
    hpromises.source_take hsound hqueue hturn hsource hpassed htarget

end Promises

end Situation

end JobFlow
