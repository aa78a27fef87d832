import Mathlib.Tactic.ByContra
import JobFlow.Dag

/-!
The books of a job. Its counters agree with the endings that it has counted, it is alive as long as an
ending is missing, and once it has a cause it has told every vertex that it still counts on to die.
-/

namespace JobFlow

namespace Dag

/-- What the job has counted of each vertex, in order. -/
def endings (dag : Dag) : List (Option Phase) := dag.tallies.map (·.completed)

/-- The ending of a vertex that the job has counted. -/
def ending? (dag : Dag) (vertex : VertexId) : Option Phase :=
  (dag.tally? vertex).bind (·.completed)

/-- Whether the job told a vertex to die. -/
def asked (dag : Dag) (vertex : VertexId) : Bool := (dag.tally? vertex).any (·.killRequested)

/-- The counters agree with the endings, each of which is a terminal phase. -/
structure Counted (dag : Dag) : Prop where
  nonempty : dag.tallies ≠ []
  succeeded : dag.succeeded = dag.endings.count (some .succeeded)
  failed : dag.failed = dag.endings.count (some .failed) + dag.endings.count (some .error)
  killed : dag.killed = dag.endings.count (some .killed)
  terminal : ∀ phase, some phase ∈ dag.endings → phase.isTerminal = true

/-- The phase and the cause agree with the books. -/
structure Valid (dag : Dag) : Prop extends Counted dag where
  fresh : dag.phase = .new ∨ dag.phase = .inited →
    dag.cause = .none ∧ ∀ ending ∈ dag.endings, ending = none
  alive : dag.phase = .running ∨ dag.phase = .killWait → none ∈ dag.endings
  running : dag.phase = .running → dag.cause ≠ .userKill
  killWait : dag.phase = .killWait → dag.cause ≠ .none
  ended : dag.phase = .succeeded ∨ dag.phase = .failed ∨ dag.phase = .killed →
    none ∉ dag.endings ∧ dag.phase = dag.cause.finalPhase
  unhurt : dag.cause = .none → dag.phase ≠ .error → (∀ vertex, dag.asked vertex = false) ∧
    (∀ ending ∈ dag.endings, ending = none ∨ ending = some .succeeded) ∧ dag.diagnostics = []
  hurt : dag.cause ≠ .none → ∀ vertex : VertexId, vertex.index < dag.vertexCount →
    dag.ending? vertex = none → dag.asked vertex = true
  unerred : dag.phase ≠ .error → some .error ∉ dag.endings
  ownerTold : dag.ownerTold = dag.phase.isTerminal

@[simp] theorem length_endings (dag : Dag) : dag.endings.length = dag.vertexCount :=
  List.length_map _

theorem getElem?_endings (dag : Dag) (vertex : VertexId) :
    dag.endings[vertex.index]? = (dag.tally? vertex).map (·.completed) := List.getElem?_map

/-- A counted ending is the entry of its vertex. -/
theorem ending?_eq_some_iff {dag : Dag} {vertex : VertexId} {phase : Phase} :
    dag.ending? vertex = some phase ↔ dag.endings[vertex.index]? = some (some phase) := by
  rw [getElem?_endings]
  rw [ending?]
  cases dag.tally? vertex <;> simp

theorem ending?_eq_none_iff {dag : Dag} {vertex : VertexId} (hindex : vertex.index < dag.vertexCount) :
    dag.ending? vertex = none ↔ dag.endings[vertex.index]? = some none := by
  rw [getElem?_endings]
  rw [ending?, tally?, List.getElem?_eq_getElem hindex]
  simp

theorem exists_of_none_mem {dag : Dag} (hnone : none ∈ dag.endings) :
    ∃ vertex : VertexId, vertex.index < dag.vertexCount ∧ dag.ending? vertex = none := by
  obtain ⟨index, hindex, hget⟩ := List.mem_iff_getElem.mp hnone
  have hlt : index < dag.vertexCount := by rwa [length_endings] at hindex
  exact ⟨⟨index⟩, hlt, (ending?_eq_none_iff hlt).mpr (List.getElem?_eq_some_iff.mpr ⟨hindex, hget⟩)⟩

theorem Counted.isTerminal {dag : Dag} (hcounted : dag.Counted) {vertex : VertexId} {phase : Phase}
    (hending : dag.ending? vertex = some phase) : phase.isTerminal = true :=
  hcounted.terminal phase (List.mem_of_getElem? (ending?_eq_some_iff.mp hending))

/-- Endings that were counted are of four kinds. -/
theorem countP_isSome_of_isTerminal {endings : List (Option Phase)}
    (hterminal : ∀ phase, some phase ∈ endings → phase.isTerminal = true) :
    endings.countP (·.isSome) = endings.count (some .succeeded) +
      (endings.count (some .failed) + endings.count (some .error)) + endings.count (some .killed) := by
  induction endings with
  | nil => rfl
  | cons first rest ih =>
      have hrest := ih (fun phase hphase => hterminal phase (List.mem_cons_of_mem _ hphase))
      simp only [List.countP_cons, List.count_cons]
      cases first with
      | none => simpa using hrest
      | some phase =>
          have hfirst := hterminal phase List.mem_cons_self
          cases phase with
          | succeeded | failed | killed | error =>
              simp
              omega
          | new | inited | running | killWait => cases hfirst

theorem Counted.completedCount {dag : Dag} (hcounted : dag.Counted) :
    dag.completedCount = dag.endings.countP (·.isSome) := by
  rw [countP_isSome_of_isTerminal hcounted.terminal, ← hcounted.succeeded, ← hcounted.failed,
    ← hcounted.killed]
  rfl

theorem getElem?_endings_of_lt {dag : Dag} {vertex : VertexId} (hindex : vertex.index < dag.vertexCount) :
    dag.endings[vertex.index]? = some (dag.ending? vertex) := by
  rw [getElem?_endings]
  rw [ending?, tally?, List.getElem?_eq_getElem hindex]
  rfl

theorem allCounted_iff (dag : Dag) : Tally.allCounted dag.tallies = true ↔ none ∉ dag.endings := by
  rw [Tally.allCounted, endings, List.all_eq_true, List.mem_map]
  constructor
  · rintro hall ⟨tally, htally, hnone⟩
    have := hall tally htally
    simp [Tally.isCounted, hnone] at this
  · intro hnone tally htally
    cases hcompleted : tally.completed with
    | none => exact absurd ⟨tally, htally, hcompleted⟩ hnone
    | some phase => simp [Tally.isCounted, hcompleted]

/-! ### Telling vertices to die -/

theorem tally?_tellToDie (dag : Dag) (targets : List VertexId) (vertex : VertexId) :
    (dag.tellToDie targets).machine.tally? vertex = (dag.tally? vertex).map (fun tally =>
      if vertex ∈ targets then { tally with killRequested := true } else tally) :=
  List.getElem?_mapIdx

theorem endings_tellToDie (dag : Dag) (targets : List VertexId) :
    (dag.tellToDie targets).machine.endings = dag.endings := by
  apply List.ext_getElem?
  intro index
  have hright := getElem?_endings dag ⟨index⟩
  have hleft := getElem?_endings (dag.tellToDie targets).machine ⟨index⟩
  rw [tally?_tellToDie, Option.map_map] at hleft
  rw [hleft, hright]
  congr 1
  funext tally
  dsimp only [Function.comp]
  split <;> rfl

theorem ending?_tellToDie (dag : Dag) (targets : List VertexId) (vertex : VertexId) :
    (dag.tellToDie targets).machine.ending? vertex = dag.ending? vertex := by
  unfold ending?
  rw [tally?_tellToDie]
  cases dag.tally? vertex with
  | none => rfl
  | some tally =>
      rw [Option.map_some, Option.bind_some, Option.bind_some]
      split <;> rfl

theorem asked_tellToDie (dag : Dag) (targets : List VertexId) (vertex : VertexId) :
    (dag.tellToDie targets).machine.asked vertex =
      (dag.asked vertex || decide (vertex ∈ targets ∧ vertex.index < dag.vertexCount)) := by
  unfold asked
  rw [tally?_tellToDie]
  by_cases hindex : vertex.index < dag.vertexCount
  · rw [tally?, List.getElem?_eq_getElem hindex]
    by_cases htarget : vertex ∈ targets <;> simp [htarget, hindex]
  · rw [tally?, List.getElem?_eq_none_iff.mpr (Nat.not_lt.mp hindex)]
    simp [hindex]

theorem vertexCount_tellToDie (dag : Dag) (targets : List VertexId) :
    (dag.tellToDie targets).machine.vertexCount = dag.vertexCount := List.length_mapIdx

/-- The killable vertices are those that are not counted and were not told to die. -/
theorem mem_killable {dag : Dag} {vertex : VertexId} : vertex ∈ Tally.killable dag.tallies ↔
    vertex.index < dag.vertexCount ∧ dag.ending? vertex = none ∧ dag.asked vertex = false := by
  rw [Tally.killable, ending?, asked, tally?, List.mem_map]
  constructor
  · rintro ⟨index, hindex, rfl⟩
    rw [List.mem_filter, List.mem_range] at hindex
    obtain ⟨hlt, hany⟩ := hindex
    refine ⟨hlt, ?_⟩
    rw [List.getElem?_eq_getElem hlt] at hany ⊢
    simpa [Tally.isCounted] using hany
  · rintro ⟨hlt, hending, hasked⟩
    refine ⟨vertex.index, ?_, rfl⟩
    rw [List.mem_filter, List.mem_range]
    refine ⟨hlt, ?_⟩
    have hlt : vertex.index < dag.tallies.length := hlt
    rw [List.getElem?_eq_getElem hlt] at hending hasked ⊢
    simpa [Tally.isCounted] using And.intro hending hasked

theorem valid_create {id : DagId} {name : String} {graph : Graph} (hgraph : graph.nodes ≠ []) :
    (create id name graph).Valid := by
  have hlength : graph.size ≠ 0 := fun h => hgraph (List.length_eq_zero_iff.mp h)
  have hendings : (create id name graph).endings = List.replicate graph.size none := by
    rw [endings, create, List.map_replicate]
  have hasked : ∀ vertex, (create id name graph).asked vertex = false := by
    intro vertex
    rw [asked, tally?, create, List.getElem?_replicate]
    split <;> rfl
  have hnone : ∀ ending ∈ (create id name graph).endings, ending = none := by
    rw [hendings]
    exact fun ending hending => (List.mem_replicate.mp hending).2
  have habsent : ∀ phase, some phase ∉ (create id name graph).endings := by
    intro phase hphase
    cases hnone _ hphase
  have hcount : ∀ phase, (create id name graph).endings.count (some phase) = 0 :=
    fun phase => List.count_eq_zero.mpr (habsent phase)
  constructor
  · constructor
    · unfold create
      simpa using hlength
    · rw [hcount]
      rfl
    · rw [hcount, hcount]
      rfl
    · rw [hcount]
      rfl
    · exact fun phase hphase => absurd hphase (habsent phase)
  · exact fun _ => ⟨rfl, hnone⟩
  · simp [create]
  · simp [create]
  · simp [create]
  · simp [create]
  · exact fun _ _ => ⟨hasked, fun ending hending => Or.inl (hnone ending hending), rfl⟩
  · simp [create]
  · exact fun _ => habsent .error
  · rfl

end Dag

end JobFlow
