import JobFlow.Proofs.Announcements
import JobFlow.Proofs.Vertex.Correspondence

/-!
Whom a vertex asks to be killed. An order to kill names the tasks that have no report on file when it goes out,
and it goes out when the vertex comes to stop, from which it never goes back to work. Main statement: a vertex
that has launched and has stopped has ordered every task without a report to be killed, and one that has not
stopped has ordered none.
-/

namespace JobFlow.Vertex

variable {vertex : Vertex}

/-- The tasks without a report come in the order of their positions. -/
theorem pairwise_unreported (vertex : Vertex) :
    vertex.unreported.Pairwise (fun left right => left.index < right.index) := by
  rw [unreported, List.pairwise_map]
  exact List.pairwise_lt_range.filter _

/-- What a vertex has sent covers the tasks that it must not leave running, and kills none before that. -/
structure Covered (vertex : Vertex) (sent : List Event) : Prop where
  valid : vertex.Valid
  stopped : vertex.phase.isStopping = true → vertex.launched = true → ∀ task ∈ vertex.unreported,
    ∃ tasks, .tasks vertex.id (.kill tasks) ∈ sent ∧ task ∈ tasks
  spared : vertex.phase.isStopping = false → ∀ place tasks, .tasks place (.kill tasks) ∉ sent

theorem covered_create (dag : DagId) (id : VertexId) (spec : VertexSpec) (graph : Graph)
    (gating : Gating) : (create dag id spec graph gating).Covered [] where
  valid := valid_create dag id spec graph gating
  stopped hstopping := by cases hstopping
  spared _ _ _ hsent := by cases hsent

/-- A vertex that is being stopped does not launch any more. -/
theorem Change.launched_of_stopping {after : Vertex} {signal : VertexSignal}
    (hchange : vertex.Change signal after) (hstopping : vertex.phase.isStopping = true)
    (hlaunched : after.launched = true) : vertex.launched = true := by
  by_contra hunlaunched
  have hinited := (hchange.of_launched hunlaunched hlaunched).1
  rw [hinited] at hstopping
  cases hstopping

section Step

variable {sent : List Event} (hcovered : vertex.Covered sent) (signal : VertexSignal)

include hcovered

theorem Covered.handle_stopped (hstopping : (vertex.handle signal).machine.phase.isStopping = true)
    (hlaunched : (vertex.handle signal).machine.launched = true) {task : TaskId}
    (htask : task ∈ (vertex.handle signal).machine.unreported) :
    ∃ tasks, .tasks (vertex.handle signal).machine.id (.kill tasks) ∈
      sent ++ (vertex.handle signal).outbound ∧ task ∈ tasks := by
  have hlawful := lawful_handle hcovered.valid signal
  cases hbefore : vertex.phase.isStopping with
  | true =>
      have hlaunchedBefore :=
        (change_handle hcovered.valid signal).launched_of_stopping hbefore hlaunched
      have htaskBefore := hlawful.follows.mem_unreported htask
      obtain ⟨tasks, hsent, hmem⟩ := hcovered.stopped hbefore hlaunchedBefore task htaskBefore
      rw [hlawful.follows.id]
      exact ⟨tasks, List.mem_append_left _ hsent, hmem⟩
  | false =>
      have horder := kill_mem_announcements hbefore hstopping hlaunched (List.ne_nil_of_mem htask)
      rw [← hlawful.outbound] at horder
      exact ⟨_, List.mem_append_right _ horder, htask⟩

theorem Covered.handle_spared (hgoing : (vertex.handle signal).machine.phase.isStopping = false)
    (place : VertexId) (tasks : List TaskId) :
    .tasks place (.kill tasks) ∉ sent ++ (vertex.handle signal).outbound := by
  intro hkill
  rcases List.mem_append.mp hkill with hold | hnew
  · cases hbefore : vertex.phase.isStopping with
    | true =>
        have hstopping := (change_handle hcovered.valid signal).isStopping hbefore
        cases hgoing.symm.trans hstopping
    | false => exact hcovered.spared hbefore place tasks hold
  · rw [(lawful_handle hcovered.valid signal).outbound] at hnew
    cases hgoing.symm.trans (of_kill_mem hnew).1

/-- A step that stops the vertex sends the order for all that it leaves without a report. -/
theorem Covered.handle :
    (vertex.handle signal).machine.Covered (sent ++ (vertex.handle signal).outbound) where
  valid := (lawful_handle hcovered.valid signal).valid
  stopped hstopping hlaunched _ htask := hcovered.handle_stopped signal hstopping hlaunched htask
  spared hgoing := hcovered.handle_spared signal hgoing

omit hcovered in
theorem covered_run (hcovered : vertex.Covered []) (signals : List VertexSignal) :
    (Step.run handle vertex signals).machine.Covered (Step.run handle vertex signals).outbound :=
  Step.run_keeps_sent (motive := Covered) hcovered (fun _ _ signal h => h.handle signal) signals

end Step

/-- The orders to kill that a vertex gives, whatever it is sent. Each names, in order, just those of its tasks
that have no report on file when it goes out, of which there is at least one. A vertex that has launched and is
being killed, or has failed, erred or been killed, has ordered every task without a report to be killed; one that
waits, runs or has succeeded has ordered none. -/
theorem kills_what_runs (dag : DagId) (id : VertexId) (spec : VertexSpec) (graph : Graph) (gating : Gating)
    (signals : List VertexSignal) :
    let history := Step.run handle (create dag id spec graph gating) signals
    let vertex := history.machine
    (∀ signal place tasks, .tasks place (.kill tasks) ∈ (vertex.handle signal).outbound →
      let after := (vertex.handle signal).machine
      place = id ∧ tasks ≠ [] ∧ tasks.Pairwise (fun left right => left.index < right.index) ∧
        ∀ task, task ∈ tasks ↔ task.vertex = id ∧ after.slots[task.index]? = some none) ∧
    (vertex.phase = .killWait ∨ vertex.phase = .failed ∨ vertex.phase = .killed ∨ vertex.phase = .error →
      vertex.launched = true → ∀ index, vertex.slots[index]? = some none →
        ∃ tasks, .tasks id (.kill tasks) ∈ history.outbound ∧ ⟨id, index⟩ ∈ tasks) ∧
    (vertex.phase = .new ∨ vertex.phase = .inited ∨ vertex.phase = .running ∨ vertex.phase = .succeeded →
      ∀ place tasks, .tasks place (.kill tasks) ∉ history.outbound) := by
  intro history vertex
  have hcovered : vertex.Covered history.outbound :=
    covered_run (covered_create dag id spec graph gating) signals
  have hid : vertex.id = id := (follows_run (valid_create dag id spec graph gating) signals).2.1.id
  refine ⟨fun signal place tasks hkill => ?_, fun hphase hlaunched index hslot => ?_, fun hphase => ?_⟩
  · have hlawful := lawful_handle hcovered.valid signal
    have hafter : (vertex.handle signal).machine.id = id := hlawful.follows.id.trans hid
    rw [hlawful.outbound] at hkill
    obtain ⟨-, hplace, rfl, hsome⟩ := of_kill_mem hkill
    refine ⟨hplace.trans hafter, hsome, pairwise_unreported _, fun task => ?_⟩
    rw [mem_unreported, hafter]
  · have hstopping : vertex.phase.isStopping = true := by
      rcases hphase with h | h | h | h <;> rw [h] <;> rfl
    have htask : ⟨id, index⟩ ∈ vertex.unreported := mem_unreported.mpr ⟨hid.symm, hslot⟩
    have horder := hcovered.stopped hstopping hlaunched _ htask
    rwa [hid] at horder
  · refine hcovered.spared ?_
    rcases hphase with h | h | h | h <;> rw [h] <;> rfl

end JobFlow.Vertex
