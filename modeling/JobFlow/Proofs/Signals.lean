import JobFlow.Proofs.Completions
import JobFlow.Proofs.Promises

/-!
Signals that are never made up. While the outside only reports tasks that it was asked to run, a vertex
hears of sources only from its own sources, and every request and every report on its way concerns tasks
that their vertex has launched.
-/

namespace JobFlow

namespace Attempt

variable {attempt : Attempt} {event : Event} {step : Step Attempt} (hturn : attempt.Turn event step)

include hturn

/-- Only the task layer reports, and only in answer to a request. -/
theorem Turn.of_report {id : VertexId} {task : TaskId} {outcome : TaskOutcome}
    (hsent : .vertex id (.taskCompleted task outcome) ∈ step.outbound) :
    ∃ layer place request, event = .tasks place request ∧ attempt.layer = some layer ∧
      .vertex id (.taskCompleted task outcome) ∈ layer.reports request := by
  cases hturn with
  | dag signal published hlawful =>
      rcases Dag.mem_announcements hsent with ⟨_, _, heq, hcommand⟩ | heq
      · cases heq
        cases hcommand
      · cases heq
  | vertex hvertex signal hlawful =>
      rcases Vertex.mem_announcements hlawful.valid hsent with ⟨_, heq, -⟩ | ⟨_, -, gate, heq⟩ | heq
      · cases heq
      · cases gate <;> cases heq
      · cases heq
  | tasks hlayer place request => exact ⟨_, place, request, rfl, hlayer, hsent⟩
  | finished | stray => cases hsent

/-- Only vertices make requests, each in its own name. -/
theorem Turn.of_request {setting : Setting} (hwired : attempt.Wired setting) {id : VertexId}
    {request : TaskRequest} (hsent : .tasks id request ∈ step.outbound) :
    ∃ before after : Vertex, step.machine.vertex? id = some after ∧ after.Valid ∧
      .tasks id request ∈ before.announcements after := by
  cases hturn with
  | dag signal published hlawful =>
      rcases Dag.mem_announcements hsent with ⟨_, _, heq, -⟩ | heq <;> cases heq
  | @vertex place before hbefore signal hlawful =>
      have hid := hlawful.follows.id.trans (hwired.vertex_id hbefore)
      rcases Vertex.mem_announcements hlawful.valid hsent with ⟨_, heq, -⟩ | ⟨_, -, gate, heq⟩ | heq
      · have hplace : id = place := (Event.tasks.inj heq).1.trans hid
        subst hplace
        exact ⟨before, _, (vertex?_set hbefore _ id).trans (if_pos rfl), hlawful.valid, hsent⟩
      · cases heq
      · cases heq
  | tasks hlayer place request =>
      obtain ⟨task, -, outcome, heq⟩ := TaskLayer.mem_reports hsent
      cases heq
  | finished | stray => cases hsent

/-- Vertices hear of sources from those only. -/
theorem Turn.of_source {setting : Setting} (hwired : attempt.Wired setting) {id source : VertexId}
    {gate : Gating} (hsent : .vertex id (gate.signal source) ∈ step.outbound) :
    source ∈ setting.graph.sources id := by
  cases hturn with
  | dag signal published hlawful =>
      rcases Dag.mem_announcements hsent with ⟨_, _, heq, hcommand⟩ | heq
      · cases gate <;> cases heq <;> cases hcommand
      · cases heq
  | @vertex place before hbefore signal hlawful =>
      rcases Vertex.mem_announcements hlawful.valid hsent with
        ⟨_, heq, -⟩ | ⟨target, htarget, other, heq⟩ | heq
      · cases heq
      · rw [hlawful.follows.targets.trans (hwired.vertex_targets hbefore)] at htarget
        rw [hlawful.follows.id.trans (hwired.vertex_id hbefore)] at heq
        have hlink := (setting.sound.linked place target).mpr htarget
        cases gate <;> cases other <;> cases heq <;> exact hlink
      · cases heq
  | tasks hlayer place request =>
      obtain ⟨task, -, outcome, heq⟩ := TaskLayer.mem_reports hsent
      cases gate <;> cases heq
  | finished | stray => cases hsent

/-- Only the job tells of its end. -/
theorem Turn.of_finished {dag : DagId} {phase : Phase} (hsent : .finished dag phase ∈ step.outbound) :
    dag = attempt.dag.id := by
  cases hturn with
  | dag signal published hlawful =>
      rcases Dag.mem_announcements hsent with ⟨_, _, heq, -⟩ | heq
      · cases heq
      · exact (Event.finished.inj heq).1.trans hlawful.follows.id
  | vertex hvertex signal hlawful =>
      rcases Vertex.mem_announcements hlawful.valid hsent with ⟨_, h, -⟩ | ⟨_, -, _, h⟩ | h <;> cases h
  | tasks hlayer place request =>
      obtain ⟨task, -, outcome, heq⟩ := TaskLayer.mem_reports hsent
      cases heq
  | finished | stray => cases hsent

end Attempt

/-- The vertex of a task has launched it. -/
def Attempt.Scheduled (attempt : Attempt) (task : TaskId) : Prop :=
  ∃ vertex, attempt.vertex? task.vertex = some vertex ∧ vertex.Owns task ∧ vertex.launched = true

theorem Attempt.Scheduled.step {attempt : Attempt} {task : TaskId} (hscheduled : attempt.Scheduled task)
    {event : Event} {step : Step Attempt} (hturn : attempt.Turn event step) :
    step.machine.Scheduled task := by
  obtain ⟨before, hbefore, ⟨hid, hindex⟩, hlaunched⟩ := hscheduled
  obtain ⟨after, hafter, hfollows⟩ := hturn.follows hbefore
  refine ⟨after, hafter, ⟨?_, ?_⟩, hfollows.launched hlaunched⟩
  · rw [hfollows.id]
    exact hid
  · rw [hfollows.length]
    exact hindex

namespace Situation

/-- What is on its way is true, and the outside was asked only for tasks that were launched. -/
structure Informed (setting : Setting) (heard : List Event) (situation : Situation) : Prop where
  sources : ∀ id source (gate : Gating), situation.Waits (.vertex id (gate.signal source)) →
    source ∈ setting.graph.sources id
  reports : ∀ id task outcome, situation.Waits (.vertex id (.taskCompleted task outcome)) →
    id = task.vertex ∧ situation.attempt.Scheduled task
  requests : ∀ id request, situation.Waits (.tasks id request) →
    ∀ task ∈ request.tasks, id = task.vertex ∧ situation.attempt.Scheduled task
  received : ∀ id tasks resource, .tasks id (.schedule tasks resource) ∈ heard →
    ∀ task ∈ tasks, situation.attempt.Scheduled task

theorem informed_create (setting : Setting) (layer : Option TaskLayer) : Informed setting []
    ⟨{ Attempt.create setting.id setting.plan setting.graph setting.gating with layer := layer },
      fun _ => []⟩ where
  sources _ _ _ hwaits := by cases hwaits
  reports _ _ _ hwaits := by cases hwaits
  requests _ _ hwaits := by cases hwaits
  received _ _ _ hheard := by cases hheard

/-- The outside may command the job and report tasks that it was asked to run. -/
def Permitted (dag : DagId) (heard : List Event) (event : Event) : Prop :=
  event = .dag dag .init ∨ event = .dag dag .start ∨ event = .dag dag .kill ∨
    ∃ id tasks resource task outcome, Event.tasks id (.schedule tasks resource) ∈ heard ∧
      task ∈ tasks ∧ event = .taskCompleted task outcome

variable {setting : Setting} {situation : Situation} {heard : List Event}

theorem Informed.send (hinformed : situation.Informed setting heard) {event : Event}
    (hpermitted : Permitted setting.id heard event) :
    (situation.send [event]).Informed setting heard := by
  have hwaits : ∀ {other : Event}, (situation.send [event]).Waits other →
      situation.Waits other ∨ other = event := by
    intro other hother
    rcases waits_send.mp hother with h | h
    · exact Or.inl h
    · exact Or.inr (List.mem_singleton.mp h)
  refine ⟨?_, ?_, ?_, hinformed.received⟩
  · intro id source gate hsource
    rcases hwaits hsource with hold | rfl
    · exact hinformed.sources id source gate hold
    · rcases hpermitted with h | h | h | ⟨_, _, _, _, _, -, -, h⟩ <;> cases gate <;> cases h
  · intro id task outcome hreport
    rcases hwaits hreport with hold | rfl
    · exact hinformed.reports id task outcome hold
    · rcases hpermitted with h | h | h | ⟨other, tasks, resource, _, _, hheard, htask, h⟩
      · cases h
      · cases h
      · cases h
      · cases h
        exact ⟨rfl, hinformed.received other tasks resource hheard task htask⟩
  · intro id request hrequest
    rcases hwaits hrequest with hold | rfl
    · exact hinformed.requests id request hold
    · rcases hpermitted with h | h | h | ⟨_, _, _, _, _, -, -, h⟩ <;> cases h

section Take

variable {event : Event} {rest : List Event} {step : Step Attempt} (hsound : situation.Sound setting)
  (hinformed : situation.Informed setting heard)
  (hqueue : situation.queue event.entity = event :: rest)
  (hturn : situation.attempt.Turn event step)

include hsound hinformed hqueue hturn

theorem Informed.take :
    (situation.take event.entity rest step).Informed setting (heard ++ [event]) := by
  have hwired := hsound.wired
  refine ⟨?_, ?_, ?_, ?_⟩
  · intro id source gate hwaits
    rcases waits_of_take hqueue hwaits with hold | hsent
    · exact hinformed.sources id source gate hold
    · exact hturn.of_source hwired hsent
  · intro id task outcome hwaits
    rcases waits_of_take hqueue hwaits with hold | hsent
    · obtain ⟨heq, hscheduled⟩ := hinformed.reports id task outcome hold
      exact ⟨heq, hscheduled.step hturn⟩
    · obtain ⟨layer, place, request, rfl, -, hreport⟩ := hturn.of_report hsent
      obtain ⟨other, hother, _, heq⟩ := TaskLayer.mem_reports hreport
      cases heq
      exact ⟨rfl, (hinformed.requests place request (waits_of_cons hqueue) task hother).2.step hturn⟩
  · intro id request hwaits task htask
    rcases waits_of_take hqueue hwaits with hold | hsent
    · obtain ⟨heq, hscheduled⟩ := hinformed.requests id request hold task htask
      exact ⟨heq, hscheduled.step hturn⟩
    · obtain ⟨before, after, hafter, hvalid, hmem⟩ := hturn.of_request hwired hsent
      have hid := (hwired.step hturn).vertex_id hafter
      obtain ⟨howns, hlaunched⟩ := Vertex.owns_of_request_mem hvalid hmem task htask
      have hplace : task.vertex = id := howns.1.trans hid
      refine ⟨hplace.symm, after, ?_, howns, hlaunched⟩
      rw [hplace]
      exact hafter
  · intro id tasks resource hheard task htask
    rcases List.mem_append.mp hheard with hold | hnew
    · exact (hinformed.received id tasks resource hold task htask).step hturn
    · have heq := List.mem_singleton.mp hnew
      subst heq
      exact (hinformed.requests id _ (waits_of_cons hqueue) task htask).2.step hturn

end Take

end Situation

end JobFlow
