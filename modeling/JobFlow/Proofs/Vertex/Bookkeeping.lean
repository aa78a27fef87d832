import Mathlib.Tactic.ByContra
import JobFlow.Vertex

/-!
The books of a vertex. Its counters agree with its slots, which hold the first report of each task, and
its phase agrees with both: a vertex that is alive has launched and still waits for a report, and one
that succeeded has nothing but successes on file.
-/

namespace JobFlow.Vertex

/-- The counters agree with the slots, which stay empty until the tasks are launched. -/
structure Tallied (vertex : Vertex) : Prop where
  total : vertex.progress.total = vertex.slots.length
  succeeded : vertex.progress.succeeded = vertex.slots.count (some .succeeded)
  failed : vertex.progress.failed = vertex.slots.count (some .failed)
  killed : vertex.progress.killed = vertex.slots.count (some .killed)
  running : vertex.progress.running = if vertex.launched then vertex.slots.count none else 0
  unlaunched : vertex.launched = false → ∀ slot ∈ vertex.slots, slot = none

/-- The phase agrees with the books. An initialised vertex that was told to start misses a source. -/
structure Valid (vertex : Vertex) : Prop extends Tallied vertex where
  waiting : vertex.phase = .new ∨ vertex.phase = .inited → vertex.launched = false
  live : vertex.phase = .running ∨ vertex.phase = .killWait →
    vertex.launched = true ∧ 0 < vertex.progress.running
  untold : vertex.phase = .new → vertex.toldToStart = false
  told : vertex.launched = true → vertex.toldToStart = true
  gated : vertex.phase = .inited → vertex.toldToStart = true →
    ∃ source ∈ vertex.sources, source ∉ vertex.ready
  allSucceeded : vertex.phase = .succeeded →
    vertex.launched = true ∧ ∀ slot ∈ vertex.slots, slot = some .succeeded
  clean : vertex.phase = .new ∨ vertex.phase = .inited ∨ vertex.phase = .running ∨
    vertex.phase = .succeeded → vertex.diagnostics = []

/-- The books of a vertex before anything happened to it. -/
theorem valid_create (dag : DagId) (id : VertexId) (spec : VertexSpec) (graph : Graph)
    (gating : Gating) : (create dag id spec graph gating).Valid := by
  rw [create]
  constructor
  · constructor <;> simp [List.count_replicate]
  all_goals simp

/-- A vertex with the first report of a task on file. -/
def file (vertex : Vertex) (task : TaskId) (outcome : TaskOutcome) : Vertex :=
  { vertex with
    slots := vertex.slots.set task.index (some outcome)
    progress := vertex.progress.record outcome }

/-- Whether a task is one of the tasks of a vertex. -/
def Owns (vertex : Vertex) (task : TaskId) : Prop :=
  task.vertex = vertex.id ∧ task.index < vertex.slots.length

theorem mem_tasks {vertex : Vertex} (htotal : vertex.progress.total = vertex.slots.length)
    (task : TaskId) : task ∈ vertex.tasks ↔ vertex.Owns task := by
  rw [tasks, Owns, List.mem_map, htotal]
  constructor
  · rintro ⟨index, hindex, rfl⟩
    exact ⟨rfl, List.mem_range.mp hindex⟩
  · rintro ⟨hvertex, hindex⟩
    refine ⟨task.index, List.mem_range.mpr hindex, ?_⟩
    rw [← hvertex]

theorem mem_unreported {vertex : Vertex} {task : TaskId} :
    task ∈ vertex.unreported ↔ task.vertex = vertex.id ∧ vertex.slots[task.index]? = some none := by
  rw [unreported, List.mem_map]
  constructor
  · rintro ⟨index, hindex, rfl⟩
    rw [List.mem_filter] at hindex
    exact ⟨rfl, of_decide_eq_true hindex.2⟩
  · rintro ⟨hvertex, hslot⟩
    obtain ⟨hlt, -⟩ := List.getElem?_eq_some_iff.mp hslot
    refine ⟨task.index, ?_, by rw [← hvertex]⟩
    rw [List.mem_filter]
    exact ⟨List.mem_range.mpr hlt, decide_eq_true hslot⟩

theorem owns_of_mem_unreported {vertex : Vertex} {task : TaskId} (h : task ∈ vertex.unreported) :
    vertex.Owns task := by
  obtain ⟨hvertex, hslot⟩ := mem_unreported.mp h
  exact ⟨hvertex, (List.getElem?_eq_some_iff.mp hslot).1⟩

theorem unreported_eq_nil_iff {vertex : Vertex} :
    vertex.unreported = [] ↔ vertex.slots.count none = 0 := by
  rw [List.count_eq_zero]
  constructor
  · intro hnil hmem
    obtain ⟨index, hindex⟩ := List.getElem?_of_mem hmem
    have : (⟨vertex.id, index⟩ : TaskId) ∈ vertex.unreported := mem_unreported.mpr ⟨rfl, hindex⟩
    rw [hnil] at this
    cases this
  · intro hcount
    rw [List.eq_nil_iff_forall_not_mem]
    intro task htask
    exact hcount (List.mem_of_getElem? (mem_unreported.mp htask).2)

/-- A launched vertex with nothing running has every report. -/
theorem Tallied.unreported_eq_nil {vertex : Vertex} (htallied : vertex.Tallied)
    (hlaunched : vertex.launched = true) (hrunning : vertex.progress.running = 0) :
    vertex.unreported = [] := by
  have hcount := htallied.running
  rw [hlaunched, if_pos rfl, hrunning] at hcount
  exact unreported_eq_nil_iff.mpr hcount.symm

theorem Tallied.unreported_ne_nil {vertex : Vertex} (htallied : vertex.Tallied)
    (hlaunched : vertex.launched = true) (hrunning : 0 < vertex.progress.running) :
    vertex.unreported ≠ [] := by
  intro hnil
  have hcount := htallied.running
  rw [hlaunched, if_pos rfl, unreported_eq_nil_iff.mp hnil] at hcount
  omega

/-- The three things that can become of a report. -/
theorem report_cases (vertex : Vertex) (task : TaskId) (outcome : TaskOutcome) :
    ((∃ reason, vertex.report task outcome = .invalid reason) ∧
      ¬ (vertex.Owns task ∧ vertex.launched = true)) ∨
    (vertex.report task outcome = .repeated ∧ vertex.launched = true ∧
      ∃ first, vertex.slots[task.index]? = some (some first)) ∨
    (vertex.report task outcome = .recorded (vertex.file task outcome) ∧
      vertex.launched = true ∧ vertex.Owns task ∧ vertex.slots[task.index]? = some none) := by
  rw [report]
  split
  next hforeign =>
    refine Or.inl ⟨⟨_, rfl⟩, ?_⟩
    rintro ⟨⟨hvertex, hindex⟩, -⟩
    rcases hforeign with hother | hbeyond
    · exact hother hvertex
    · exact Nat.not_lt.mpr hbeyond hindex
  next hown =>
    have hvertex : task.vertex = vertex.id := Decidable.of_not_not (fun h => hown (Or.inl h))
    have hindex : task.index < vertex.slots.length := Nat.lt_of_not_le (fun h => hown (Or.inr h))
    split
    next hlaunched => exact Or.inl ⟨⟨_, rfl⟩, fun h => hlaunched h.2⟩
    next hlaunched =>
      have hlaunched : vertex.launched = true := by simpa using hlaunched
      split
      next hslot => exact Or.inr (Or.inr ⟨rfl, hlaunched, ⟨hvertex, hindex⟩, hslot⟩)
      next hslot =>
        refine Or.inr (Or.inl ⟨rfl, hlaunched, ?_⟩)
        rw [List.getElem?_eq_getElem hindex] at hslot ⊢
        cases hfirst : vertex.slots[task.index] with
        | none => exact absurd (congrArg some hfirst) hslot
        | some first => exact ⟨first, rfl⟩

theorem Tallied.file {vertex : Vertex} (htallied : vertex.Tallied) {task : TaskId}
    (outcome : TaskOutcome) (hlaunched : vertex.launched = true)
    (hslot : vertex.slots[task.index]? = some none) : (vertex.file task outcome).Tallied := by
  obtain ⟨hindex, hnone⟩ := List.getElem?_eq_some_iff.mp hslot
  have hpositive : 0 < vertex.slots.count none :=
    List.count_pos_iff.mpr (List.mem_of_getElem? hslot)
  have hrunning := htallied.running
  rw [hlaunched, if_pos rfl] at hrunning
  have hcount := fun slot => List.count_set (a := some outcome) (b := slot) hindex
  simp only [hnone] at hcount
  rw [Vertex.file]
  constructor
  · cases outcome <;> simp [Progress.record, htallied.total]
  · cases outcome <;> simp [Progress.record, htallied.succeeded, hcount]
  · cases outcome <;> simp [Progress.record, htallied.failed, hcount]
  · cases outcome <;> simp [Progress.record, htallied.killed, hcount]
  · cases outcome <;> simp [Progress.record, hlaunched, hrunning, hcount]
  · intro hunlaunched
    simp [hlaunched] at hunlaunched

end JobFlow.Vertex
