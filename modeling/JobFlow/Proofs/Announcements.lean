import JobFlow.Attempt
import JobFlow.Proofs.Dag.Steps
import JobFlow.Proofs.Vertex.Responses

/-!
What the machines announce, read off the changes that they made: a job commands its vertices and tells
its owner of its end, a vertex asks for its tasks and tells its targets and the job how far it has come,
and a task layer reports on the tasks that it was asked for.
-/

namespace JobFlow

/-- The commands of a job to a vertex. -/
def VertexSignal.isCommand : VertexSignal → Bool
  | .init | .start | .kill => true
  | .sourceStarted _ | .sourceSucceeded _ | .taskCompleted _ _ => false

/-! ### The job -/

namespace Dag

/-- What a job announces: commands to its vertices, and its own end. -/
theorem mem_announcements {before after : Dag} {event : Event}
    (hevent : event ∈ before.announcements after) :
    (∃ id signal, event = .vertex id signal ∧ signal.isCommand = true) ∨
    event = .finished after.id after.phase := by
  simp only [announcements, broadcast, List.mem_append, List.mem_map] at hevent
  rcases hevent with ((hinit | hstart) | ⟨target, -, rfl⟩) | hfinished
  · split at hinit
    · obtain ⟨index, -, rfl⟩ := List.mem_map.mp hinit
      exact Or.inl ⟨_, _, rfl, rfl⟩
    · cases hinit
  · split at hstart
    · obtain ⟨index, -, rfl⟩ := List.mem_map.mp hstart
      exact Or.inl ⟨_, _, rfl, rfl⟩
    · cases hstart
  · exact Or.inl ⟨_, _, rfl, rfl⟩
  · split at hfinished
    · exact Or.inr (List.mem_singleton.mp hfinished)
    · cases hfinished

variable {before after : Dag} {id : VertexId} (hindex : id.index < before.vertexCount)

include hindex

theorem mem_broadcast (signal : VertexSignal) : .vertex id signal ∈ before.broadcast signal := by
  rw [broadcast]
  exact List.mem_map.mpr ⟨id.index, List.mem_range.mpr hindex, rfl⟩

theorem init_mem_announcements (hbefore : before.phase = .new) (hafter : after.phase = .inited) :
    .vertex id .init ∈ before.announcements after := by
  simp only [announcements, List.mem_append, if_pos (And.intro hbefore hafter)]
  exact Or.inl (Or.inl (Or.inl (mem_broadcast hindex .init)))

theorem start_mem_announcements (hbefore : before.phase = .inited) (hafter : after.phase = .running) :
    .vertex id .start ∈ before.announcements after := by
  have hnew : ¬ (before.phase = .new ∧ after.phase = .inited) := fun h => by simp [hbefore] at h
  simp only [announcements, List.mem_append, if_neg hnew, if_pos (And.intro hbefore hafter)]
  exact Or.inl (Or.inl (Or.inr (mem_broadcast hindex .start)))

theorem kill_mem_announcements (hbefore : before.asked id = false) (hafter : after.asked id = true) :
    .vertex id .kill ∈ before.announcements after := by
  have hnewly : id ∈ before.newlyAsked after := by
    rw [newlyAsked]
    refine List.mem_map.mpr ⟨id.index, List.mem_filter.mpr ⟨List.mem_range.mpr hindex, ?_⟩, rfl⟩
    rw [hbefore, hafter]
    rfl
  simp only [announcements, List.mem_append]
  exact Or.inl (Or.inr (List.mem_map.mpr ⟨id, hnewly, rfl⟩))

end Dag

/-! ### A vertex -/

namespace Vertex

variable {before after : Vertex} {event : Event}

theorem announcements_cases (hevent : event ∈ before.announcements after) :
    (after.launched = true ∧ event ∈ after.launchEvents) ∨
    (after.phase.isStopping = true ∧ event ∈ after.killRequest) ∨
    (after.phase.isTerminal = true ∧ event ∈ after.endEvents) := by
  rw [announcements, List.mem_append, List.mem_append] at hevent
  rcases hevent with (hlaunch | hkill) | hend
  · split at hlaunch
    next h => exact Or.inl ⟨h.2, hlaunch⟩
    next => cases hlaunch
  · split at hkill
    next h => exact Or.inr (Or.inl ⟨h.2, hkill⟩)
    next => cases hkill
  · split at hend
    next h => exact Or.inr (Or.inr ⟨h.2, hend⟩)
    next => cases hend

theorem mem_launchEvents (hevent : event ∈ after.launchEvents) :
    event = .tasks after.id (.schedule after.tasks after.resource) ∨
      ∃ target ∈ after.targets, event = .vertex target (.sourceStarted after.id) := by
  rw [launchEvents, List.mem_append, List.mem_map] at hevent
  rcases hevent with hrequest | ⟨target, htarget, rfl⟩
  · split at hrequest
    · cases hrequest
    · exact Or.inl (List.mem_singleton.mp hrequest)
  · exact Or.inr ⟨target, htarget, rfl⟩

theorem mem_killRequest (hevent : event ∈ after.killRequest) :
    after.launched = true ∧ event = .tasks after.id (.kill after.unreported) := by
  rw [killRequest] at hevent
  split at hevent
  next h => exact ⟨h.1, List.mem_singleton.mp hevent⟩
  next => cases hevent

theorem mem_endEvents (hevent : event ∈ after.endEvents) :
    event = .dag after.dag (.vertexCompleted after.id after.phase) ∨
      ∃ target ∈ after.targets, event = .vertex target (.sourceSucceeded after.id) := by
  rw [endEvents, List.mem_cons] at hevent
  rcases hevent with hnews | htargets
  · exact Or.inl hnews
  · split at htargets
    · obtain ⟨target, htarget, rfl⟩ := List.mem_map.mp htargets
      exact Or.inr ⟨target, htarget, rfl⟩
    · cases htargets

/-- What a vertex announces: requests for tasks that it launched, its progress to its targets, and its
own end. -/
theorem mem_announcements (hvalid : after.Valid) (hevent : event ∈ before.announcements after) :
    (∃ request, event = .tasks after.id request ∧
      ∀ task ∈ request.tasks, after.Owns task ∧ after.launched = true) ∨
    (∃ target ∈ after.targets, ∃ gate : Gating, event = .vertex target (gate.signal after.id)) ∨
    event = .dag after.dag (.vertexCompleted after.id after.phase) := by
  rcases announcements_cases hevent with ⟨hlaunched, hlaunch⟩ | ⟨-, hkill⟩ | ⟨-, hend⟩
  · rcases mem_launchEvents hlaunch with rfl | ⟨target, htarget, rfl⟩
    · refine Or.inl ⟨_, rfl, fun task htask => ?_⟩
      exact ⟨(mem_tasks hvalid.total task).mp htask, hlaunched⟩
    · exact Or.inr (Or.inl ⟨target, htarget, .sourceStarted, rfl⟩)
  · obtain ⟨hlaunched, rfl⟩ := mem_killRequest hkill
    exact Or.inl ⟨_, rfl, fun task htask => ⟨owns_of_mem_unreported htask, hlaunched⟩⟩
  · rcases mem_endEvents hend with rfl | ⟨target, htarget, rfl⟩
    · exact Or.inr (Or.inr rfl)
    · exact Or.inr (Or.inl ⟨target, htarget, .sourceSucceeded, rfl⟩)

/-- A vertex asks for tasks of its own that it has launched. -/
theorem owns_of_request_mem (hvalid : after.Valid) {id : VertexId} {request : TaskRequest}
    (hmem : .tasks id request ∈ before.announcements after) :
    ∀ task ∈ request.tasks, after.Owns task ∧ after.launched = true := by
  rcases mem_announcements hvalid hmem with ⟨_, heq, htasks⟩ | ⟨_, -, gate, heq⟩ | heq
  · rw [(Event.tasks.inj heq).2]
    exact htasks
  · cases heq
  · cases heq

/-- A vertex asks for its tasks to be run only when it has launched. -/
theorem launched_of_schedule_mem {id : VertexId} {tasks : List TaskId} {resource : Resources}
    (hmem : .tasks id (.schedule tasks resource) ∈ before.announcements after) :
    id = after.id ∧ after.launched = true := by
  rcases announcements_cases hmem with ⟨hlaunched, hlaunch⟩ | ⟨-, hkill⟩ | ⟨-, hend⟩
  · rcases mem_launchEvents hlaunch with heq | ⟨_, -, heq⟩
    · cases heq
      exact ⟨rfl, hlaunched⟩
    · cases heq
  · cases (mem_killRequest hkill).2
  · rcases mem_endEvents hend with heq | ⟨_, -, heq⟩ <;> cases heq

/-- A vertex asks for its tasks to be killed only on the way of stopping, and then for all that have no
report. -/
theorem of_kill_mem {id : VertexId} {tasks : List TaskId}
    (hmem : .tasks id (.kill tasks) ∈ before.announcements after) :
    after.phase.isStopping = true ∧ id = after.id ∧ tasks = after.unreported ∧ tasks ≠ [] := by
  rcases announcements_cases hmem with ⟨-, hlaunch⟩ | ⟨hstopping, horder⟩ | ⟨-, hend⟩
  · rcases mem_launchEvents hlaunch with h | ⟨_, -, h⟩ <;> cases h
  · cases (mem_killRequest horder).2
    refine ⟨hstopping, rfl, rfl, fun hnone => ?_⟩
    rw [killRequest, if_neg (fun h => h.2 hnone)] at horder
    cases horder
  · rcases mem_endEvents hend with h | ⟨_, -, h⟩ <;> cases h

/-- A launched vertex that comes to stop asks for all that have no report to be killed. -/
theorem kill_mem_announcements (hbefore : before.phase.isStopping = false)
    (hafter : after.phase.isStopping = true) (hlaunched : after.launched = true)
    (hunreported : after.unreported ≠ []) :
    .tasks after.id (.kill after.unreported) ∈ before.announcements after := by
  have hmoves : before.phase ≠ after.phase := by
    intro hsame
    rw [hsame, hafter] at hbefore
    cases hbefore
  simp only [announcements, killRequest, List.mem_append, if_pos (And.intro hmoves hafter),
    if_pos (And.intro hlaunched hunreported)]
  exact Or.inl (Or.inr (List.mem_singleton.mpr rfl))

/-- Whether a vertex has passed a gate. -/
def Passed (vertex : Vertex) : Gating → Prop
  | .sourceStarted => vertex.launched = true
  | .sourceSucceeded => vertex.phase = .succeeded

/-- A vertex that passes a gate tells its targets. -/
theorem signal_mem_announcements (hfollows : before.Follows after)
    {gate : Gating} (hbefore : ¬ before.Passed gate) (hafter : after.Passed gate) {target : VertexId}
    (htarget : target ∈ after.targets) :
    .vertex target (gate.signal after.id) ∈ before.announcements after := by
  rw [announcements, List.mem_append, List.mem_append]
  cases gate with
  | sourceStarted =>
      left
      left
      have hunlaunched : before.launched = false := by simpa [Passed] using hbefore
      rw [if_pos ⟨hunlaunched, hafter⟩, launchEvents]
      exact List.mem_append_right _ (List.mem_map.mpr ⟨target, htarget, rfl⟩)
  | sourceSucceeded =>
      right
      have hsucceeded : after.phase = .succeeded := hafter
      have hlive : before.phase.isTerminal = false := by
        cases hterminal : before.phase.isTerminal with
        | false => rfl
        | true => exact absurd ((hfollows.ended hterminal).symm.trans hsucceeded) hbefore
      rw [if_pos ⟨hlive, by rw [hsucceeded]; rfl⟩, endEvents, if_pos hsucceeded]
      exact List.mem_cons_of_mem _ (List.mem_map.mpr ⟨target, htarget, rfl⟩)

/-- Only a vertex that has passed a gate tells its targets so. -/
theorem passed_of_signal_mem {gate : Gating} {target source : VertexId}
    (hmem : .vertex target (gate.signal source) ∈ before.announcements after) :
    source = after.id ∧ after.Passed gate := by
  rcases announcements_cases hmem with ⟨hlaunched, hlaunch⟩ | ⟨-, hkill⟩ | ⟨-, hend⟩
  · rcases mem_launchEvents hlaunch with heq | ⟨_, -, heq⟩
    · cases heq
    · cases gate <;> cases heq
      exact ⟨rfl, hlaunched⟩
  · cases (mem_killRequest hkill).2
  · rw [endEvents, List.mem_cons] at hend
    rcases hend with heq | htargets
    · cases heq
    · split at htargets
      next hsucceeded =>
        obtain ⟨_, -, heq⟩ := List.mem_map.mp htargets
        cases gate <;> cases heq
        exact ⟨rfl, hsucceeded⟩
      next => cases htargets

/-- A vertex that launches asks for its tasks, if it has any. -/
theorem schedule_mem_announcements (hbefore : before.launched = false)
    (hafter : after.launched = true) (htotal : after.progress.total ≠ 0) :
    .tasks after.id (.schedule after.tasks after.resource) ∈ before.announcements after := by
  rw [announcements, if_pos ⟨hbefore, hafter⟩, launchEvents, if_neg htotal]
  simp

end Vertex

/-! ### The task layer -/

namespace TaskLayer

theorem mem_reports {layer : TaskLayer} {request : TaskRequest} {event : Event}
    (hevent : event ∈ layer.reports request) :
    ∃ task ∈ request.tasks, ∃ outcome, event = .taskCompleted task outcome := by
  cases request with
  | schedule tasks resource =>
      simp only [reports] at hevent
      split at hevent
      · obtain ⟨task, htask, rfl⟩ := List.mem_map.mp hevent
        exact ⟨task, htask, _, rfl⟩
      · cases hevent
  | kill tasks =>
      simp only [reports] at hevent
      split at hevent
      · obtain ⟨task, htask, rfl⟩ := List.mem_map.mp hevent
        exact ⟨task, htask, _, rfl⟩
      · cases hevent

theorem mem_reports_schedule {layer : TaskLayer} (hcompletes : layer.completes = true)
    {tasks : List TaskId} {resource : Resources} {task : TaskId} (htask : task ∈ tasks) :
    .taskCompleted task (layer.outcome task) ∈ layer.reports (.schedule tasks resource) := by
  simp only [reports, hcompletes, if_true]
  exact List.mem_map.mpr ⟨task, htask, rfl⟩

/-- The reports in answer to a request to run tasks. -/
theorem of_report_of_schedule {layer : TaskLayer} {tasks : List TaskId} {resource : Resources}
    {task : TaskId} {outcome : TaskOutcome}
    (hmem : .taskCompleted task outcome ∈ layer.reports (.schedule tasks resource)) :
    task ∈ tasks ∧ outcome = layer.outcome task := by
  simp only [reports] at hmem
  split at hmem
  · obtain ⟨other, hother, heq⟩ := List.mem_map.mp hmem
    simp only [Event.taskCompleted, Event.vertex.injEq, VertexSignal.taskCompleted.injEq] at heq
    obtain ⟨-, rfl, rfl⟩ := heq
    exact ⟨hother, rfl⟩
  · cases hmem

/-- A success is reported only of a task that is not set to fail. -/
theorem not_failing_of_mem_reports {layer : TaskLayer} {request : TaskRequest} {task : TaskId}
    (hmem : .taskCompleted task .succeeded ∈ layer.reports request) : task ∉ layer.failing := by
  cases request with
  | schedule tasks resource =>
      have houtcome := (of_report_of_schedule hmem).2
      intro hfailing
      rw [outcome, if_pos hfailing] at houtcome
      cases houtcome
  | kill tasks =>
      simp only [reports] at hmem
      split at hmem
      · obtain ⟨other, -, heq⟩ := List.mem_map.mp hmem
        simp [Event.taskCompleted] at heq
      · cases hmem

end TaskLayer

end JobFlow
