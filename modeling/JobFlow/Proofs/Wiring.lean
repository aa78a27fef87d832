import JobFlow.Proofs.Run
import JobFlow.Proofs.Graph.Soundness
import JobFlow.Proofs.Vertex.Steps
import JobFlow.Proofs.Dag.Accounting

/-!
The machines of an attempt and what a delivery can be to them: a turn of the job, of a vertex, of the task
layer or of the owner, or nothing to anybody. Every turn is a lawful step, and keeps the machines those
of the plan with their books in order.
-/

namespace JobFlow

/-- What a run starts from: the identifier and the plan of the job, the graph that was built from it and
the gate of its vertices. -/
structure Setting where
  id : DagId
  plan : Plan
  graph : Graph
  gating : Gating
  built : Graph.ofPlan plan = .ok graph

theorem Setting.sound (setting : Setting) : setting.graph.Sound :=
  (Graph.sound_ofPlan setting.built).1

theorem Setting.size (setting : Setting) : setting.graph.size = setting.plan.vertices.length :=
  (Graph.sound_ofPlan setting.built).2

namespace Attempt

theorem vertex?_set {attempt : Attempt} {id : VertexId} {old : Vertex}
    (hold : attempt.vertex? id = some old) (new : Vertex) (other : VertexId) :
    vertex? { attempt with vertices := attempt.vertices.set id.index new } other =
      if other = id then some new else attempt.vertex? other := by
  obtain ⟨hindex, -⟩ := List.getElem?_eq_some_iff.mp hold
  unfold vertex?
  by_cases h : other = id
  · rw [h, if_pos rfl, List.getElem?_set_self hindex]
  · have hne : id.index ≠ other.index := fun heq => h (congrArg VertexId.mk heq.symm)
    rw [List.getElem?_set_ne hne, if_neg h]

/-- The machines of an attempt have their books in order and go back to those of the setting. -/
structure Wired (setting : Setting) (attempt : Attempt) : Prop where
  id : attempt.id = setting.id
  dag : attempt.dag.Valid
  dagId : attempt.dag.id = setting.id
  vertexCount : attempt.dag.vertexCount = setting.graph.size
  length : attempt.vertices.length = setting.graph.size
  valid : ∀ id vertex, attempt.vertex? id = some vertex → vertex.Valid
  grown : ∀ id vertex, attempt.vertex? id = some vertex → ∃ spec,
    setting.plan.vertices[id.index]? = some spec ∧
      (Vertex.create setting.id id spec setting.graph setting.gating).Follows vertex

/-- What a delivery can be to an attempt, with the step that comes of it. -/
inductive Turn (attempt : Attempt) : Event → Step Attempt → Prop
  | dag (signal : DagSignal) (published : Phase)
      (hlawful : attempt.dag.Lawful (attempt.dag.handle signal)) :
      Turn attempt (.dag attempt.id signal)
        { machine := { attempt with
            dag := (attempt.dag.handle signal).machine, published := published }
          outbound := attempt.dag.announcements (attempt.dag.handle signal).machine
          notices := (attempt.dag.handle signal).notices }
  | vertex {id : VertexId} {vertex : Vertex} (hvertex : attempt.vertex? id = some vertex)
      (signal : VertexSignal) (hlawful : vertex.Lawful (vertex.handle signal)) :
      Turn attempt (.vertex id signal)
        { machine := { attempt with
            vertices := attempt.vertices.set id.index (vertex.handle signal).machine }
          outbound := vertex.announcements (vertex.handle signal).machine
          notices := (vertex.handle signal).notices }
  | tasks {layer : TaskLayer} (hlayer : attempt.layer = some layer) (id : VertexId)
      (request : TaskRequest) :
      Turn attempt (.tasks id request)
        { machine := { attempt with layer := some (layer.record id request) }
          outbound := layer.reports request
          notices := [] }
  | finished (dag : DagId) (phase : Phase) :
      Turn attempt (.finished dag phase)
        { machine := { attempt with finished := attempt.finished ++ [(dag, phase)] }
          outbound := []
          notices := [] }
  | stray {event : Event} {notices : List Notice} (hdag : event.entity ≠ .dag attempt.id)
      (hvertex : ∀ id signal, event = .vertex id signal → attempt.vertex? id = none)
      (htasks : ∀ id request, event = .tasks id request → attempt.layer = none)
      (hfinished : ∀ dag phase, event ≠ .finished dag phase)
      (hnotices : ∀ notice ∈ notices, notice.isViolation = false) :
      Turn attempt event { machine := attempt, outbound := [], notices := notices }

/-- Every reaction is a turn. -/
theorem Wired.turn {setting : Setting} {attempt : Attempt} (hwired : attempt.Wired setting)
    (event : Event) : Turn attempt event (attempt.react event) := by
  cases event with
  | dag id signal =>
      by_cases hid : id = attempt.id
      · subst hid
        have hlawful := Dag.lawful_handle hwired.dag signal
        have hturn := Turn.dag signal (if (attempt.dag.handle signal).machine.phase =
          attempt.dag.phase then attempt.published else (attempt.dag.handle signal).machine.phase)
          hlawful
        rw [← hlawful.outbound] at hturn
        rw [react]
        dsimp only
        rw [if_neg (fun h => h rfl)]
        exact hturn
      · unfold react
        dsimp only
        rw [if_pos hid]
        refine .stray ?_ (by simp) (by simp) (by simp) ?_
        · intro heq
          exact hid (Entity.dag.inj heq)
        · intro notice hnotice
          rw [List.mem_singleton.mp hnotice]
          rfl
  | vertex id signal =>
      rw [react]
      dsimp only
      cases hvertex : attempt.vertex? id with
      | none =>
          refine .stray (by simp [Event.entity]) ?_ (by simp) (by simp) ?_
          · intro other _ heq
            cases heq
            exact hvertex
          · intro notice hnotice
            rw [List.mem_singleton.mp hnotice]
            rfl
      | some vertex =>
          have hlawful := Vertex.lawful_handle (hwired.valid id vertex hvertex) signal
          have hturn := Turn.vertex hvertex signal hlawful
          rw [← hlawful.outbound] at hturn
          exact hturn
  | tasks id request =>
      unfold react
      dsimp only
      cases hlayer : attempt.layer with
      | none =>
          refine .stray (by simp [Event.entity]) (by simp) ?_ (by simp) (by simp)
          intro _ _ _
          exact hlayer
      | some layer => exact .tasks hlayer id request
  | finished dag phase => exact .finished dag phase

namespace Wired

variable {setting : Setting} {attempt : Attempt} (hwired : attempt.Wired setting)

include hwired

theorem exists_vertex (id : VertexId) (hindex : id.index < setting.graph.size) :
    ∃ vertex, attempt.vertex? id = some vertex := by
  rw [← hwired.length] at hindex
  exact ⟨_, List.getElem?_eq_getElem hindex⟩

section

variable {id : VertexId} {vertex : Vertex} (hvertex : attempt.vertex? id = some vertex)

include hvertex

theorem index_lt : id.index < setting.graph.size := by
  rw [← hwired.length]
  exact (List.getElem?_eq_some_iff.mp hvertex).1

theorem index_lt_vertexCount : id.index < attempt.dag.vertexCount := by
  rw [hwired.vertexCount]
  exact hwired.index_lt hvertex

theorem vertex_id : vertex.id = id := by
  obtain ⟨spec, -, hfollows⟩ := hwired.grown id vertex hvertex
  exact hfollows.id

theorem vertex_dag : vertex.dag = setting.id := by
  obtain ⟨spec, -, hfollows⟩ := hwired.grown id vertex hvertex
  exact hfollows.dag

theorem vertex_sources : vertex.sources = setting.graph.sources id := by
  obtain ⟨spec, -, hfollows⟩ := hwired.grown id vertex hvertex
  exact hfollows.sources

theorem vertex_targets : vertex.targets = setting.graph.targets id := by
  obtain ⟨spec, -, hfollows⟩ := hwired.grown id vertex hvertex
  exact hfollows.targets

theorem vertex_gating : vertex.gating = setting.gating := by
  obtain ⟨spec, -, hfollows⟩ := hwired.grown id vertex hvertex
  exact hfollows.gating

/-- A vertex has a slot for each task of the plan. -/
theorem vertex_length : ∃ spec, setting.plan.vertices[id.index]? = some spec ∧
    vertex.slots.length = spec.taskCount ∧ vertex.progress.total = spec.taskCount := by
  obtain ⟨spec, hspec, hfollows⟩ := hwired.grown id vertex hvertex
  exact ⟨spec, hspec, hfollows.length.trans List.length_replicate, hfollows.total⟩

end

/-- A lawful step of the job keeps the wiring. -/
theorem step_dag {step : Step Dag} (hlawful : attempt.dag.Lawful step) (published : Phase) :
    Wired setting { attempt with dag := step.machine, published := published } where
  id := hwired.id
  dag := hlawful.valid
  dagId := hlawful.follows.id.trans hwired.dagId
  vertexCount := hlawful.follows.vertexCount.trans hwired.vertexCount
  length := hwired.length
  valid := hwired.valid
  grown := hwired.grown

/-- A lawful step of a vertex keeps the wiring. -/
theorem step_vertex {id : VertexId} {vertex : Vertex} (hvertex : attempt.vertex? id = some vertex)
    {step : Step Vertex} (hlawful : vertex.Lawful step) :
    Wired setting { attempt with vertices := attempt.vertices.set id.index step.machine } where
  id := hwired.id
  dag := hwired.dag
  dagId := hwired.dagId
  vertexCount := hwired.vertexCount
  length := List.length_set.trans hwired.length
  valid := by
    intro other machine hmachine
    rw [vertex?_set hvertex] at hmachine
    split at hmachine
    next =>
      cases hmachine
      exact hlawful.valid
    next => exact hwired.valid other machine hmachine
  grown := by
    intro other machine hmachine
    rw [vertex?_set hvertex] at hmachine
    split at hmachine
    next heq =>
      cases hmachine
      subst heq
      obtain ⟨spec, hspec, hfollows⟩ := hwired.grown _ vertex hvertex
      exact ⟨spec, hspec, hfollows.trans hlawful.follows⟩
    next => exact hwired.grown other machine hmachine

/-- Every turn keeps the wiring. -/
theorem step {event : Event} {step : Step Attempt} (hturn : attempt.Turn event step) :
    step.machine.Wired setting := by
  cases hturn with
  | dag signal published hlawful => exact hwired.step_dag hlawful published
  | vertex hvertex signal hlawful => exact hwired.step_vertex hvertex hlawful
  | tasks hlayer id request =>
      exact ⟨hwired.id, hwired.dag, hwired.dagId, hwired.vertexCount, hwired.length, hwired.valid,
        hwired.grown⟩
  | finished dag phase =>
      exact ⟨hwired.id, hwired.dag, hwired.dagId, hwired.vertexCount, hwired.length, hwired.valid,
        hwired.grown⟩
  | stray => exact hwired

end Wired

theorem vertex?_create {setting : Setting} {id : VertexId} {vertex : Vertex}
    (hvertex : (create setting.id setting.plan setting.graph setting.gating).vertex? id = some vertex) :
    ∃ spec, setting.plan.vertices[id.index]? = some spec ∧
      vertex = Vertex.create setting.id id spec setting.graph setting.gating := by
  unfold vertex? create Graph.vertexIds at hvertex
  rw [List.getElem?_map, Option.map_eq_some_iff] at hvertex
  obtain ⟨⟨other, spec⟩, hpair, rfl⟩ := hvertex
  rw [List.getElem?_zip_eq_some] at hpair
  obtain ⟨hother, hspec⟩ := hpair
  rw [List.getElem?_map, Option.map_eq_some_iff] at hother
  obtain ⟨index, hindex, rfl⟩ := hother
  obtain ⟨hlt, hget⟩ := List.getElem?_eq_some_iff.mp hindex
  rw [List.getElem_range] at hget
  subst hget
  exact ⟨spec, hspec, rfl⟩

theorem wired_create (setting : Setting) (layer : Option TaskLayer) : Wired setting
    { create setting.id setting.plan setting.graph setting.gating with layer := layer } where
  id := rfl
  dag := Dag.valid_create setting.sound.nonempty
  dagId := rfl
  vertexCount := List.length_replicate
  length := by
    rw [create, Graph.vertexIds]
    simp [setting.size]
  valid := by
    intro id vertex hvertex
    obtain ⟨spec, -, rfl⟩ := vertex?_create hvertex
    exact Vertex.valid_create _ _ _ _ _
  grown := by
    intro id vertex hvertex
    obtain ⟨spec, hspec, rfl⟩ := vertex?_create hvertex
    exact ⟨spec, hspec, Vertex.Follows.refl _⟩

end Attempt

end JobFlow
