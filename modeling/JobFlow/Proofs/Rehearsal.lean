import JobFlow.Proofs.Conduct

/-!
Runs with a task layer that completes what it is given. Every report that is missing is on its way, or
the request for its task is; no task that is set to fail is ever filed as a success; and the records of
the layer agree with what the vertices launched and stopped.
-/

namespace JobFlow

/-- A task layer that completes tasks, failing some of them. -/
def TaskLayer.Completing (failing : List TaskId) (layer : TaskLayer) : Prop :=
  layer.completes = true ∧ layer.failing = failing

/-- A turn leaves the task layer alone, or has it take down a request and answer it. -/
theorem Attempt.Turn.layer_cases {attempt : Attempt} {event : Event} {step : Step Attempt}
    (hturn : attempt.Turn event step) : step.machine.layer = attempt.layer ∨
    ∃ id request layer, event = .tasks id request ∧ attempt.layer = some layer ∧
      step.machine.layer = some (layer.record id request) ∧ step.outbound = layer.reports request := by
  cases hturn with
  | tasks hlayer id request => exact Or.inr ⟨id, request, _, rfl, hlayer, rfl, rfl⟩
  | dag | vertex | finished | stray => exact Or.inl rfl

/-- A layer that is there answers every request. -/
theorem Attempt.Turn.answered {attempt : Attempt} {event : Event} {step : Step Attempt}
    (hturn : attempt.Turn event step) {layer : TaskLayer} (hlayer : attempt.layer = some layer)
    {id : VertexId} {request : TaskRequest} (hevent : event = .tasks id request) :
    step.machine.layer = some (layer.record id request) ∧ step.outbound = layer.reports request ∧
      ∀ other, step.machine.vertex? other = attempt.vertex? other := by
  subst hevent
  cases hturn with
  | tasks hother _ _ =>
      cases hlayer.symm.trans hother
      exact ⟨rfl, rfl, fun _ => rfl⟩
  | stray _ _ htasks =>
      have hnone := htasks id request rfl
      rw [hlayer] at hnone
      cases hnone

theorem TaskLayer.completing_record {failing : List TaskId} {layer : TaskLayer}
    (hcompleting : layer.Completing failing) (id : VertexId) (request : TaskRequest) :
    (layer.record id request).Completing failing := by
  cases request <;> exact hcompleting

namespace Situation

/-- The report of a task, or the request to run it, is on its way. -/
def Pending (situation : Situation) (task : TaskId) : Prop :=
  (∃ tasks resource, task ∈ tasks ∧
    situation.Waits (.tasks task.vertex (.schedule tasks resource))) ∨
  ∃ outcome, situation.Waits (.taskCompleted task outcome)

/-- A layer that completes its tasks is there, and reports that are missing are on their way. -/
structure Served (failing : List TaskId) (situation : Situation) : Prop where
  layer : ∃ layer, situation.attempt.layer = some layer ∧ layer.Completing failing
  pending : ∀ id vertex, situation.attempt.vertex? id = some vertex → vertex.launched = true →
    ∀ task ∈ vertex.unreported, situation.Pending task

/-- Nothing set to fail is reported or filed as a success. -/
structure Honest (failing : List TaskId) (situation : Situation) : Prop where
  reports : ∀ task, situation.Waits (.taskCompleted task .succeeded) → task ∉ failing
  slots : ∀ id vertex, situation.attempt.vertex? id = some vertex → ∀ index,
    vertex.slots[index]? = some (some .succeeded) → ⟨id, index⟩ ∉ failing

variable {setting : Setting} {situation : Situation} {failing : List TaskId}

theorem Pending.send {task : TaskId} (hpending : situation.Pending task) (events : List Event) :
    (situation.send events).Pending task := by
  rcases hpending with ⟨tasks, resource, htask, hwaits⟩ | ⟨outcome, hwaits⟩
  · exact Or.inl ⟨tasks, resource, htask, waits_send.mpr (Or.inl hwaits)⟩
  · exact Or.inr ⟨outcome, waits_send.mpr (Or.inl hwaits)⟩

theorem Served.send (hserved : situation.Served failing) (events : List Event) :
    (situation.send events).Served failing where
  layer := hserved.layer
  pending id vertex hvertex hlaunched task htask :=
    (hserved.pending id vertex hvertex hlaunched task htask).send events

theorem Honest.send (hhonest : situation.Honest failing) {event : Event}
    (hevent : ∀ task outcome, event ≠ .taskCompleted task outcome) :
    (situation.send [event]).Honest failing where
  reports := by
    intro task hwaits
    rcases waits_send.mp hwaits with hold | hsent
    · exact hhonest.reports task hold
    · exact absurd (List.mem_singleton.mp hsent).symm (hevent task .succeeded)
  slots := hhonest.slots

section Take

variable {event : Event} {rest : List Event} {step : Step Attempt} (hsound : situation.Sound setting)
  (hqueue : situation.queue event.entity = event :: rest)
  (hturn : situation.attempt.Turn event step)

include hqueue hturn

/-- What is pending stays so until the report is handled. -/
theorem Pending.take (hserved : situation.Served failing) {task : TaskId}
    (hpending : situation.Pending task) : (∃ outcome, event = .taskCompleted task outcome) ∨
      (situation.take event.entity rest step).Pending task := by
  obtain ⟨layer, hlayer, hcompletes, -⟩ := hserved.layer
  rcases hpending with ⟨tasks, resource, htask, hwaits⟩ | ⟨outcome, hwaits⟩
  · rcases hwaits.take step hqueue with heq | hstill
    · obtain ⟨-, houtbound, -⟩ := hturn.answered hlayer heq.symm
      refine Or.inr (Or.inr ⟨layer.outcome task, waits_of_outbound ?_⟩)
      rw [houtbound]
      exact TaskLayer.mem_reports_schedule hcompletes htask
    · exact Or.inr (Or.inl ⟨tasks, resource, htask, hstill⟩)
  · rcases hwaits.take step hqueue with heq | hstill
    · exact Or.inl ⟨outcome, heq.symm⟩
    · exact Or.inr (Or.inr ⟨outcome, hstill⟩)

include hsound

/-- A report that a vertex missed before a turn, and still misses, is on its way. -/
theorem Served.pending_of_launched (hserved : situation.Served failing)
    (hunerred : situation.attempt.Unerred) {id : VertexId} {before after : Vertex}
    (hbefore : situation.attempt.vertex? id = some before) (hlaunched : before.launched = true)
    (hafter : step.machine.vertex? id = some after) (hfollows : before.Follows after) {task : TaskId}
    (htask : task ∈ after.unreported) : (situation.take event.entity rest step).Pending task := by
  have hmissing := hfollows.mem_unreported htask
  have howns := Vertex.owns_of_mem_unreported hmissing
  rcases (hserved.pending id before hbefore hlaunched task hmissing).take hqueue hturn hserved with
    ⟨outcome, hevent⟩ | hpending
  · have htaskVertex : task.vertex = id := howns.1.trans (hsound.wired.vertex_id hbefore)
    rw [Event.taskCompleted, htaskVertex] at hevent
    have hhandled := hturn.handled hevent hbefore
    cases hafter.symm.trans hhandled
    exact absurd (Vertex.mem_unreported.mp htask).2
      ((Vertex.change_handle (hsound.wired.valid id before hbefore) _).slot_ne_none rfl
        (hunerred.vertex id before hbefore) howns hlaunched)
  · exact hpending

theorem Served.take (hserved : situation.Served failing) (hunerred : situation.attempt.Unerred) :
    (situation.take event.entity rest step).Served failing where
  layer := by
    obtain ⟨layer, hlayer, hcompleting⟩ := hserved.layer
    rcases hturn.layer_cases with hsame | ⟨id, request, other, -, hother, hafter, -⟩
    · exact ⟨layer, hsame.trans hlayer, hcompleting⟩
    · cases hlayer.symm.trans hother
      exact ⟨_, hafter, TaskLayer.completing_record hcompleting id request⟩
  pending := by
    intro id after hafter hlaunched task htask
    rcases hturn.vertex_cases hafter with hsame | ⟨before, signal, -, hbefore, rfl, hlawful, houtbound, -⟩
    · exact hserved.pending_of_launched hsound hqueue hturn hunerred hsame hlaunched hafter
        (Vertex.Follows.refl after) htask
    · cases hfirst : before.launched with
      | true =>
          exact hserved.pending_of_launched hsound hqueue hturn hunerred hbefore hfirst hafter
            hlawful.follows htask
      | false =>
          -- The vertex launched in this very turn, and so has just asked for the task.
          have howns := Vertex.owns_of_mem_unreported htask
          have hmem := (Vertex.mem_tasks hlawful.valid.total task).mpr howns
          have htotal : (before.handle signal).machine.progress.total ≠ 0 := by
            intro hzero
            simp [Vertex.tasks, hzero] at hmem
          have hrequest := Vertex.schedule_mem_announcements hfirst hlaunched htotal
          rw [← howns.1, ← houtbound] at hrequest
          exact Or.inl ⟨_, _, hmem, waits_of_outbound hrequest⟩

theorem Honest.take (hhonest : situation.Honest failing) (hserved : situation.Served failing) :
    (situation.take event.entity rest step).Honest failing where
  reports := by
    intro task hwaits
    rcases waits_of_take hqueue hwaits with hold | hsent
    · exact hhonest.reports task hold
    · obtain ⟨layer, hlayer, -, rfl⟩ := hserved.layer
      obtain ⟨other, place, request, -, hother, hreport⟩ := hturn.of_report hsent
      cases hlayer.symm.trans hother
      exact TaskLayer.not_failing_of_mem_reports hreport
  slots := by
    intro id after hafter index hslot
    rcases hturn.vertex_cases hafter with hsame | ⟨before, signal, hevent, hbefore, rfl, -⟩
    · exact hhonest.slots id after hsame index hslot
    · rcases (Vertex.change_handle (hsound.wired.valid id before hbefore) signal).slots with
        hsame | ⟨task, outcome, rfl, howns, -, hset⟩
      · rw [hsame] at hslot
        exact hhonest.slots id before hbefore index hslot
      · rw [hset] at hslot
        have htask : task.vertex = id := howns.1.trans (hsound.wired.vertex_id hbefore)
        by_cases hindex : task.index = index
        · rw [hindex, List.getElem?_set_self (hindex ▸ howns.2)] at hslot
          cases hslot
          have hreport := hhonest.reports task (by
            rw [Event.taskCompleted, htask, ← hevent]
            exact waits_of_cons hqueue)
          rw [← htask, ← hindex]
          exact hreport
        · rw [List.getElem?_set_ne hindex] at hslot
          exact hhonest.slots id before hbefore index hslot

end Take

end Situation

/-! ### The records of the layer -/

/-- The tasks that an event asks to run for a vertex. -/
def Event.scheduled? (id : VertexId) : Event → Option (List TaskId)
  | .tasks other (.schedule launched _) => if other = id then some launched else none
  | _ => none

theorem Event.scheduled?_of_entity_ne {id : VertexId} {event : Event} (h : event.entity ≠ .tasks id) :
    event.scheduled? id = none := by
  cases event with
  | tasks other request =>
      cases request with
      | schedule tasks resource =>
          rw [scheduled?, if_neg]
          rintro rfl
          exact h rfl
      | kill tasks => rfl
  | dag | vertex | finished => rfl

/-- A vertex asks for its tasks in the step that launches it. -/
theorem Vertex.scheduled_announcements (before after : Vertex) :
    ((before.announcements after).filterMap (Event.scheduled? after.id)).flatten =
      if before.launched = false ∧ after.launched = true then after.tasks else [] := by
  have hnotifications : ∀ (targets : List VertexId) (signal : VertexSignal),
      (targets.map (fun target => Event.vertex target signal)).filterMap
        (Event.scheduled? after.id) = [] := by
    intro targets signal
    rw [List.filterMap_eq_nil_iff]
    intro event hevent
    obtain ⟨target, -, rfl⟩ := List.mem_map.mp hevent
    rfl
  have hlaunch : (after.launchEvents.filterMap (Event.scheduled? after.id)).flatten = after.tasks := by
    rw [launchEvents, List.filterMap_append, hnotifications, List.append_nil]
    by_cases htotal : after.progress.total = 0
    · simp [htotal, tasks]
    · simp [htotal, Event.scheduled?]
  have hkill : after.killRequest.filterMap (Event.scheduled? after.id) = [] := by
    rw [killRequest]
    split <;> rfl
  have hend : after.endEvents.filterMap (Event.scheduled? after.id) = [] := by
    rw [endEvents, List.filterMap_cons]
    split
    next => split <;> simp [hnotifications]
    next h => cases h
  simp only [announcements, List.filterMap_append, List.flatten_append]
  split <;> split <;> split <;> simp [hlaunch, hkill, hend]

theorem Vertex.scheduled?_of_mem_announcements {before after : Vertex} (hvalid : after.Valid)
    {id : VertexId} (hid : after.id ≠ id) {event : Event}
    (hevent : event ∈ before.announcements after) : event.scheduled? id = none := by
  apply Event.scheduled?_of_entity_ne
  rcases mem_announcements hvalid hevent with ⟨request, rfl, -⟩ | ⟨target, -, gate, rfl⟩ | rfl
  · exact fun heq => hid (Entity.tasks.inj heq)
  · simp [Event.entity]
  · simp [Event.entity]

/-- A vertex is on the way of stopping, or stopped otherwise than by success. -/
def Attempt.Stopping (attempt : Attempt) (id : VertexId) : Prop :=
  ∃ vertex, attempt.vertex? id = some vertex ∧ vertex.phase.isStopping = true

theorem Attempt.Stopping.step {setting : Setting} {attempt : Attempt} (hwired : attempt.Wired setting)
    {id : VertexId} (hstopping : attempt.Stopping id) {event : Event} {step : Step Attempt}
    (hturn : attempt.Turn event step) : step.machine.Stopping id := by
  obtain ⟨before, hbefore, hphase⟩ := hstopping
  obtain ⟨after, hafter, -⟩ := hturn.follows hbefore
  refine ⟨after, hafter, ?_⟩
  rcases hturn.vertex_cases hafter with hsame | ⟨other, signal, -, hother, rfl, -⟩
  · cases hbefore.symm.trans hsame
    exact hphase
  · cases hbefore.symm.trans hother
    exact (Vertex.change_handle (hwired.valid id before hbefore) signal).isStopping hphase

namespace Situation

/-- The tasks that wait to be run for a vertex, in order. -/
def requested (situation : Situation) (id : VertexId) : List TaskId :=
  (situation.pick (.tasks id) (Event.scheduled? id)).flatten

/-- The layer was given, or is about to be given, every task that was launched, once; and it was asked
to kill only for vertices that are being stopped. -/
structure Recorded (situation : Situation) : Prop where
  scheduled : ∀ layer, situation.attempt.layer = some layer → ∀ id vertex,
    situation.attempt.vertex? id = some vertex →
      layer.scheduled.filter (·.vertex = id) ++ situation.requested id =
        if vertex.launched = true then vertex.tasks else []
  known : ∀ layer, situation.attempt.layer = some layer →
    ∀ task ∈ layer.scheduled, situation.attempt.Scheduled task
  killed : ∀ layer, situation.attempt.layer = some layer →
    ∀ task ∈ layer.killed, situation.attempt.Stopping task.vertex
  kills : ∀ id tasks, situation.Waits (.tasks id (.kill tasks)) → situation.attempt.Stopping id

variable {setting : Setting} {situation : Situation}

theorem Recorded.send (hrecorded : situation.Recorded) {event : Event}
    (hevent : ∀ id request, event ≠ .tasks id request) : (situation.send [event]).Recorded where
  scheduled := by
    intro layer hlayer id vertex hvertex
    have hsame : (situation.send [event]).requested id = situation.requested id := by
      have hnone : event.scheduled? id = none := by
        apply Event.scheduled?_of_entity_ne
        cases event with
        | tasks other request => exact absurd rfl (hevent other request)
        | dag | vertex | finished => simp [Event.entity]
      exact congrArg List.flatten (pick_send_of_none (fun _ => Event.scheduled?_of_entity_ne) hnone)
    rw [hsame]
    exact hrecorded.scheduled layer hlayer id vertex hvertex
  known := hrecorded.known
  killed := hrecorded.killed
  kills := by
    intro id tasks hwaits
    rcases waits_send.mp hwaits with hold | hsent
    · exact hrecorded.kills id tasks hold
    · exact absurd (List.mem_singleton.mp hsent).symm (hevent id (.kill tasks))

section Take

variable {event : Event} {rest : List Event} {step : Step Attempt} (hsound : situation.Sound setting)
  {heard : List Event} (hinformed : situation.Informed setting heard)
  (hqueue : situation.queue event.entity = event :: rest)
  (hturn : situation.attempt.Turn event step)

variable (step) in
include hqueue in
theorem requested_take (id : VertexId) : ((event.scheduled? id).toList).flatten ++
    (situation.take event.entity rest step).requested id =
      situation.requested id ++ (step.outbound.filterMap (Event.scheduled? id)).flatten := by
  have hpick : (event.scheduled? id).toList ++
      (situation.take event.entity rest step).pick (.tasks id) (Event.scheduled? id) =
        situation.pick (.tasks id) (Event.scheduled? id) ++
          step.outbound.filterMap (Event.scheduled? id) :=
    pick_take (fun _ => Event.scheduled?_of_entity_ne) hqueue step
  rw [requested, ← List.flatten_append, hpick, List.flatten_append]
  rfl

include hinformed hqueue in
/-- A request names tasks of its own vertex only. -/
theorem Informed.filter_tasks {place : VertexId} {request : TaskRequest}
    (hevent : event = .tasks place request) (id : VertexId) :
    request.tasks.filter (·.vertex = id) = if place = id then request.tasks else [] := by
  have htasks := hinformed.requests place request (hevent ▸ waits_of_cons hqueue)
  split
  next heq =>
    rw [List.filter_eq_self]
    intro task htask
    rw [← heq, (htasks task htask).1]
    exact decide_eq_true rfl
  next hne =>
    rw [List.filter_eq_nil_iff]
    intro task htask
    rw [decide_eq_true_iff, ← (htasks task htask).1]
    exact hne

include hqueue in
theorem requested_take_of_silent {id : VertexId} (hnone : event.scheduled? id = none)
    (hsilent : ∀ sent ∈ step.outbound, sent.scheduled? id = none) :
    (situation.take event.entity rest step).requested id = situation.requested id :=
  congrArg List.flatten
    (pick_take_of_none (fun _ => Event.scheduled?_of_entity_ne) hqueue hnone hsilent)

include hsound hqueue in
/-- A vertex asks for its tasks when it launches, and for no others. -/
theorem Recorded.scheduled_own (hrecorded : situation.Recorded) {layer : TaskLayer}
    (hlayer : situation.attempt.layer = some layer) {id : VertexId} {before : Vertex}
    (hbefore : situation.attempt.vertex? id = some before) {signal : VertexSignal}
    (hevent : event = .vertex id signal) (hlawful : before.Lawful (before.handle signal))
    (houtbound : step.outbound = before.announcements (before.handle signal).machine) :
    layer.scheduled.filter (·.vertex = id) ++ (situation.take event.entity rest step).requested id =
      if (before.handle signal).machine.launched = true then (before.handle signal).machine.tasks
      else [] := by
  have hrequested := requested_take step hqueue id
  have hsent := Vertex.scheduled_announcements before (before.handle signal).machine
  rw [hlawful.follows.id.trans (hsound.wired.vertex_id hbefore)] at hsent
  rw [show (event.scheduled? id).toList.flatten = [] by rw [hevent]; rfl, List.nil_append, houtbound,
    hsent] at hrequested
  rw [hrequested, ← List.append_assoc, hrecorded.scheduled layer hlayer id before hbefore]
  cases hlaunched : before.launched with
  | false => simp
  | true =>
      have htasks : (before.handle signal).machine.tasks = before.tasks := by
        simp only [Vertex.tasks, hlawful.follows.id, hlawful.follows.total]
      simp [hlawful.follows.launched hlaunched, htasks]

include hinformed hqueue in
/-- The layer takes down what it was asked to run. -/
theorem Recorded.scheduled_record (hrecorded : situation.Recorded) {layer : TaskLayer}
    (hlayer : situation.attempt.layer = some layer) {place : VertexId} {request : TaskRequest}
    (hevent : event = .tasks place request) (houtbound : step.outbound = layer.reports request)
    {id : VertexId} {vertex : Vertex} (hvertex : situation.attempt.vertex? id = some vertex) :
    (layer.record place request).scheduled.filter (·.vertex = id) ++
      (situation.take event.entity rest step).requested id =
        if vertex.launched = true then vertex.tasks else [] := by
  have hsilent : step.outbound.filterMap (Event.scheduled? id) = [] := by
    rw [houtbound, List.filterMap_eq_nil_iff]
    intro sent hsent
    obtain ⟨task, -, outcome, rfl⟩ := TaskLayer.mem_reports hsent
    rfl
  have hrequested := requested_take step hqueue id
  have hfilter := hinformed.filter_tasks hqueue hevent id
  rw [hsilent, List.flatten_nil, List.append_nil, hevent] at hrequested
  rw [← hrecorded.scheduled layer hlayer id vertex hvertex, ← hrequested, hevent]
  cases request with
  | schedule tasks resource =>
      simp only [TaskLayer.record, List.filter_append, List.append_assoc]
      rw [show tasks.filter (·.vertex = id) = if place = id then tasks else [] from hfilter]
      simp only [Event.scheduled?]
      split <;> simp
  | kill tasks => rfl

include hsound hinformed hqueue hturn

theorem Recorded.scheduled_take (hrecorded : situation.Recorded) {layer : TaskLayer}
    (hlayer : step.machine.layer = some layer) {id : VertexId} {after : Vertex}
    (hafter : step.machine.vertex? id = some after) : layer.scheduled.filter (·.vertex = id) ++
      (situation.take event.entity rest step).requested id =
        if after.launched = true then after.tasks else [] := by
  cases hturn with
  | dag signal published hlawful =>
      rw [requested_take_of_silent hqueue rfl ?_]
      · exact hrecorded.scheduled layer hlayer id after hafter
      · intro sent hsent
        rcases Dag.mem_announcements hsent with ⟨_, _, rfl, -⟩ | rfl <;> rfl
  | @vertex place before hbefore signal hlawful =>
      rw [Attempt.vertex?_set hbefore] at hafter
      split at hafter
      next heq =>
        cases hafter
        subst heq
        exact hrecorded.scheduled_own hsound hqueue hlayer hbefore rfl hlawful rfl
      next hne =>
        rw [requested_take_of_silent hqueue rfl ?_]
        · exact hrecorded.scheduled layer hlayer id after hafter
        · intro sent
          refine Vertex.scheduled?_of_mem_announcements hlawful.valid ?_
          rw [hlawful.follows.id, hsound.wired.vertex_id hbefore]
          exact Ne.symm hne
  | tasks hold place request =>
      cases hlayer
      exact hrecorded.scheduled_record hinformed hqueue hold rfl rfl hafter
  | finished dag phase =>
      rw [requested_take_of_silent hqueue rfl (by simp)]
      exact hrecorded.scheduled layer hlayer id after hafter
  | stray hdag hvertex htasks =>
      rw [requested_take_of_silent hqueue ?_ (by simp)]
      · exact hrecorded.scheduled layer hlayer id after hafter
      · cases event with
        | tasks place request =>
            have hlayerNone := htasks place request rfl
            rw [show situation.attempt.layer = some layer from hlayer] at hlayerNone
            cases hlayerNone
        | dag | vertex | finished => rfl

omit hinformed in
theorem Recorded.kills_take (hrecorded : situation.Recorded) {id : VertexId} {tasks : List TaskId}
    (hwaits : (situation.take event.entity rest step).Waits (.tasks id (.kill tasks))) :
    step.machine.Stopping id := by
  rcases waits_of_take hqueue hwaits with hold | hsent
  · exact (hrecorded.kills id tasks hold).step hsound.wired hturn
  · obtain ⟨before, after, hafter, -, hmem⟩ := hturn.of_request hsound.wired hsent
    exact ⟨after, hafter, (Vertex.of_kill_mem hmem).1⟩

theorem Recorded.take (hrecorded : situation.Recorded) :
    (situation.take event.entity rest step).Recorded where
  scheduled _ hlayer _ _ hafter :=
    hrecorded.scheduled_take hsound hinformed hqueue hturn hlayer hafter
  known := by
    intro layer hlayer task htask
    rw [attempt_take] at hlayer
    rcases hturn.layer_cases with hsame | ⟨id, request, old, hevent, hold, hafter, -⟩
    · exact (hrecorded.known layer (hsame.symm.trans hlayer) task htask).step hturn
    · cases hlayer.symm.trans hafter
      have hrequests := hinformed.requests id request (hevent ▸ waits_of_cons hqueue)
      cases request with
      | schedule tasks resource =>
          rcases List.mem_append.mp htask with hrun | hnew
          · exact (hrecorded.known old hold task hrun).step hturn
          · exact (hrequests task hnew).2.step hturn
      | kill tasks => exact (hrecorded.known old hold task htask).step hturn
  killed := by
    intro layer hlayer task htask
    rw [attempt_take] at hlayer
    rcases hturn.layer_cases with hsame | ⟨id, request, old, hevent, hold, hafter, -⟩
    · exact (hrecorded.killed layer (hsame.symm.trans hlayer) task htask).step hsound.wired hturn
    · cases hlayer.symm.trans hafter
      cases request with
      | schedule tasks resource =>
          exact (hrecorded.killed old hold task htask).step hsound.wired hturn
      | kill tasks =>
          have hwaits : situation.Waits (.tasks id (.kill tasks)) := hevent ▸ waits_of_cons hqueue
          rcases List.mem_append.mp htask with hstopped | hnew
          · exact (hrecorded.killed old hold task hstopped).step hsound.wired hturn
          · rw [← (hinformed.requests id (.kill tasks) hwaits task hnew).1]
            exact (hrecorded.kills id tasks hwaits).step hsound.wired hturn
  kills _ _ hwaits := hrecorded.kills_take hsound hqueue hturn hwaits

end Take

end Situation

end JobFlow
