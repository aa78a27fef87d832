import JobFlow.Proofs.Rehearsal

/-!
The last two parts of an undisturbed run: the owner is told of the end of the job exactly once, and a
job that nobody kills and none of whose tasks fails comes to no harm.
-/

namespace JobFlow

/-- The end of which an event tells the owner of a job. -/
def Event.finished? (id : DagId) : Event → Option (DagId × Phase)
  | .finished job phase => if job = id then some (job, phase) else none
  | _ => none

theorem Event.finished?_of_entity_ne {id : DagId} {event : Event} (h : event.entity ≠ .owner id) :
    event.finished? id = none := by
  cases event with
  | finished job phase =>
      rw [finished?, if_neg]
      rintro rfl
      exact h rfl
  | dag | vertex | tasks => rfl

theorem Event.filterMap_finished?_eq_nil {id : DagId} {events : List Event}
    (hevents : ∀ event ∈ events, event.entity ≠ .owner id) :
    events.filterMap (Event.finished? id) = [] := by
  rw [List.filterMap_eq_nil_iff]
  exact fun event hevent => finished?_of_entity_ne (hevents event hevent)

/-- A job tells its owner in the step that ends it. -/
theorem Dag.finished_announcements (before after : Dag) :
    (before.announcements after).filterMap (Event.finished? after.id) =
      if before.ownerTold = false ∧ after.ownerTold = true then [(after.id, after.phase)] else [] := by
  have hbroadcast : ∀ signal, (before.broadcast signal).filterMap (Event.finished? after.id) = [] := by
    intro signal
    apply Event.filterMap_finished?_eq_nil
    intro event hevent
    obtain ⟨index, -, rfl⟩ := List.mem_map.mp hevent
    simp [Event.entity]
  have hkills : ((before.newlyAsked after).map (Event.vertex · .kill)).filterMap
      (Event.finished? after.id) = [] := by
    apply Event.filterMap_finished?_eq_nil
    intro event hevent
    obtain ⟨id, -, rfl⟩ := List.mem_map.mp hevent
    simp [Event.entity]
  simp only [announcements, List.filterMap_append, hkills]
  split <;> split <;> split <;> simp [hbroadcast, Event.finished?]

namespace Situation

/-- The ends of a job that wait for its owner, in order. -/
def notifications (situation : Situation) (id : DagId) : List (DagId × Phase) :=
  situation.pick (.owner id) (Event.finished? id)

/-- The owner was told, or is about to be told, once the job is over and once only. -/
structure Notified (setting : Setting) (situation : Situation) : Prop where
  own : ∀ dag phase, situation.Waits (.finished dag phase) → dag = setting.id
  told : situation.attempt.finished ++ situation.notifications setting.id =
    if situation.attempt.dag.ownerTold = true then [(setting.id, situation.attempt.dag.phase)] else []

/-- Nobody kills the job. -/
structure Spared (setting : Setting) (situation : Situation) : Prop where
  kill : .kill ∉ situation.commands setting.id
  cause : situation.attempt.dag.cause ≠ .userKill

/-- Nothing is stopped and nothing fails. -/
structure Smooth (situation : Situation) : Prop where
  cause : situation.attempt.dag.cause = .none
  hale : ∀ id vertex, situation.attempt.vertex? id = some vertex → vertex.Hale
  reports : ∀ task outcome, situation.Waits (.taskCompleted task outcome) → outcome = .succeeded
  requests : ∀ id tasks, ¬ situation.Waits (.tasks id (.kill tasks))

variable {setting : Setting} {situation : Situation}

section Send

variable {event : Event} (hevent : ∀ dag phase, event ≠ .finished dag phase)

include hevent

theorem own_send (hown : ∀ dag phase, situation.Waits (.finished dag phase) → dag = setting.id) {dag : DagId}
    {phase : Phase} (hwaits : (situation.send [event]).Waits (.finished dag phase)) : dag = setting.id := by
  rcases waits_send.mp hwaits with hold | hsent
  · exact hown dag phase hold
  · exact absurd (List.mem_singleton.mp hsent).symm (hevent dag phase)

theorem notifications_send (id : DagId) :
    (situation.send [event]).notifications id = situation.notifications id := by
  have hnone : event.finished? id = none := by
    cases event with
    | finished job phase => exact absurd rfl (hevent job phase)
    | dag | vertex | tasks => rfl
  exact pick_send_of_none (fun _ => Event.finished?_of_entity_ne) hnone

theorem Notified.send (hnotified : situation.Notified setting) : (situation.send [event]).Notified setting where
  own _ _ hwaits := own_send hevent hnotified.own hwaits
  told := by
    rw [notifications_send hevent]
    exact hnotified.told

end Send

theorem Spared.send (hspared : situation.Spared setting) {event : Event}
    (hevent : event.command? setting.id ≠ some .kill) : (situation.send [event]).Spared setting where
  kill := by
    intro hkill
    rw [commands, pick_send (fun _ => Event.command?_of_entity_ne), List.mem_append] at hkill
    rcases hkill with hold | hsent
    · exact hspared.kill hold
    · obtain ⟨sent, hmem, hcommand⟩ := List.mem_filterMap.mp hsent
      rw [List.mem_singleton.mp hmem] at hcommand
      exact hevent hcommand
  cause := hspared.cause

theorem Smooth.send (hsmooth : situation.Smooth) {dag : DagId} {signal : DagSignal} :
    (situation.send [.dag dag signal]).Smooth where
  cause := hsmooth.cause
  hale := hsmooth.hale
  reports := by
    intro task outcome hwaits
    rcases waits_send.mp hwaits with hold | hsent
    · exact hsmooth.reports task outcome hold
    · cases List.mem_singleton.mp hsent
  requests := by
    intro id tasks hwaits
    rcases waits_send.mp hwaits with hold | hsent
    · exact hsmooth.requests id tasks hold
    · cases List.mem_singleton.mp hsent

section Take

variable {event : Event} {rest : List Event} {step : Step Attempt} (hsound : situation.Sound setting)
  (hqueue : situation.queue event.entity = event :: rest)
  (hturn : situation.attempt.Turn event step)

variable (step) in
include hqueue in
theorem notifications_take (id : DagId) : (event.finished? id).toList ++
    (situation.take event.entity rest step).notifications id =
      situation.notifications id ++ step.outbound.filterMap (Event.finished? id) :=
  pick_take (fun _ => Event.finished?_of_entity_ne) hqueue step

include hsound hqueue hturn

/-- The job is the only one whose end its owner is ever told. -/
theorem own_take (hown : ∀ dag phase, situation.Waits (.finished dag phase) → dag = setting.id)
    {dag : DagId} {phase : Phase}
    (hwaits : (situation.take event.entity rest step).Waits (.finished dag phase)) : dag = setting.id := by
  rcases waits_of_take hqueue hwaits with hold | hsent
  · exact hown dag phase hold
  · exact (hturn.of_finished hsent).trans hsound.wired.dagId

omit hsound hturn in
/-- A turn that tells the owner nothing and does not hear of the end either. -/
theorem told_of_silent (hfinished : step.machine.finished = situation.attempt.finished)
    (hdag : step.machine.dag = situation.attempt.dag) (hnone : event.finished? setting.id = none)
    (hsilent : ∀ sent ∈ step.outbound, sent.finished? setting.id = none) :
    step.machine.finished ++ (situation.take event.entity rest step).notifications setting.id =
      situation.attempt.finished ++ situation.notifications setting.id ++
        if situation.attempt.dag.ownerTold = false ∧ step.machine.dag.ownerTold = true then
          [(setting.id, step.machine.dag.phase)] else [] := by
  have hnews : ¬ (situation.attempt.dag.ownerTold = false ∧ step.machine.dag.ownerTold = true) := by
    rw [hdag]
    simp
  rw [hfinished, if_neg hnews, List.append_nil, notifications,
    pick_take_of_none (fun _ => Event.finished?_of_entity_ne) hqueue hnone hsilent]
  rfl

/-- What the owner has been told or is about to be told grows by the news of the end, in the turn in which
the job tells it, and is the same after any other turn. -/
theorem told_take (hown : ∀ dag phase, situation.Waits (.finished dag phase) → dag = setting.id) :
    step.machine.finished ++ (situation.take event.entity rest step).notifications setting.id =
      situation.attempt.finished ++ situation.notifications setting.id ++
        if situation.attempt.dag.ownerTold = false ∧ step.machine.dag.ownerTold = true then
          [(setting.id, step.machine.dag.phase)] else [] := by
  have htake := notifications_take step hqueue setting.id
  cases hturn with
  | dag signal published hlawful =>
      have hsent := Dag.finished_announcements situation.attempt.dag
        (situation.attempt.dag.handle signal).machine
      rw [hlawful.follows.id.trans hsound.wired.dagId] at hsent
      simp only [Event.finished?, Option.toList_none, List.nil_append, hsent] at htake
      rw [htake, List.append_assoc]
  | vertex hvertex signal hlawful =>
      refine told_of_silent hqueue rfl rfl rfl ?_
      intro sent hsent
      rcases Vertex.mem_announcements hlawful.valid hsent with ⟨_, rfl, -⟩ | ⟨_, -, _, rfl⟩ | rfl <;> rfl
  | tasks hlayer id request =>
      refine told_of_silent hqueue rfl rfl rfl ?_
      intro sent hsent
      obtain ⟨task, -, outcome, rfl⟩ := TaskLayer.mem_reports hsent
      rfl
  | finished dag phase =>
      have hdag := hown dag phase (waits_of_cons hqueue)
      subst hdag
      rw [List.filterMap_nil, List.append_nil] at htake
      rw [← htake]
      simp [Event.finished?]
  | stray _ _ _ hfinished =>
      refine told_of_silent hqueue rfl rfl ?_ (by simp)
      cases event with
      | finished job phase => exact absurd rfl (hfinished job phase)
      | dag | vertex | tasks => rfl

omit hsound hqueue hturn in
/-- A job that was over stays as it ended unless it errs, so that its owner has heard the truth. -/
theorem told_dag {dag : Dag} (hvalid : dag.Valid) {signal : DagSignal}
    (hlawful : dag.Lawful (dag.handle signal)) (herror : (dag.handle signal).machine.phase ≠ .error)
    (id : DagId) : ((if dag.ownerTold = true then [(id, dag.phase)] else []) ++
      if dag.ownerTold = false ∧ (dag.handle signal).machine.ownerTold = true then
        [(id, (dag.handle signal).machine.phase)] else []) =
      if (dag.handle signal).machine.ownerTold = true then
        [(id, (dag.handle signal).machine.phase)] else [] := by
  cases hbefore : dag.ownerTold with
  | false => simp
  | true =>
      have hterminal := hvalid.ownerTold.symm.trans hbefore
      have hphase := ((dag.change_handle signal).phase_of_isTerminal hterminal).resolve_right herror
      have hafter := hlawful.valid.ownerTold
      rw [hphase, hterminal] at hafter
      simp [hafter, hphase]

theorem Notified.take (hnotified : situation.Notified setting) (hunerred : step.machine.Unerred) :
    (situation.take event.entity rest step).Notified setting where
  own _ _ hwaits := own_take hsound hqueue hturn hnotified.own hwaits
  told := by
    rw [attempt_take, told_take hsound hqueue hturn hnotified.own, hnotified.told]
    rcases hturn.dag_cases with hsame | ⟨signal, -, hdag, hlawful, -⟩
    · rw [hsame]
      simp
    · have herror := hunerred.dag
      rw [hdag] at herror ⊢
      exact told_dag hsound.wired.dag hlawful herror setting.id

theorem Spared.signal_ne_kill (hspared : situation.Spared setting) {signal : DagSignal}
    (hevent : event = .dag situation.attempt.id signal) : signal ≠ .kill := by
  rintro rfl
  apply hspared.kill
  rw [commands_take hqueue hturn, hevent, hsound.wired.id]
  exact List.mem_append_left _ (by simp [Event.command?, DagSignal.isCommand])

theorem Spared.take (hspared : situation.Spared setting) :
    (situation.take event.entity rest step).Spared setting where
  kill := by
    intro hkill
    apply hspared.kill
    rw [commands_take hqueue hturn]
    exact List.mem_append_right _ hkill
  cause := by
    rw [attempt_take]
    rcases hturn.dag_cases with hsame | ⟨signal, hevent, hdag, -⟩
    · rw [hsame]
      exact hspared.cause
    · rw [hdag]
      have hkill := hspared.signal_ne_kill hsound hqueue hturn hevent
      rcases (situation.attempt.dag.change_handle signal).cause_cases hkill with hcause | ⟨hcause, -⟩
      · rw [hcause]
        exact hspared.cause
      · rw [hcause]
        decide

section Smooth

variable {told : List DagSignal} {heard : List Event} (hconduct : situation.Conduct setting told heard)
  (hsmooth : situation.Smooth)

include hconduct hsmooth

omit hturn in
/-- Nobody is told to die while the job has no cause. -/
theorem Smooth.signal_ne_kill {id : VertexId} {signal : VertexSignal}
    (hevent : event = .vertex id signal) {vertex : Vertex}
    (hvertex : situation.attempt.vertex? id = some vertex) : signal ≠ .kill := by
  rintro rfl
  have hwaits : situation.Waits (.vertex id .kill) := hevent ▸ waits_of_cons hqueue
  have horders : .kill ∈ situation.orders id :=
    List.mem_filterMap.mpr ⟨_, hwaits, if_pos ⟨rfl, rfl⟩⟩
  have hasked := (hconduct.ordered id vertex hvertex).kill horders
  have hunasked := (hsound.wired.dag.unhurt hsmooth.cause hconduct.unerred.dag).1 id
  exact absurd (hunasked.symm.trans hasked) (by decide)

theorem Smooth.hale_take {id : VertexId} {after : Vertex}
    (hafter : step.machine.vertex? id = some after) : after.Hale := by
  rcases hturn.vertex_cases hafter with hsame | ⟨before, signal, hevent, hbefore, rfl, -⟩
  · exact hsmooth.hale id after hsame
  · have hvalid := hsound.wired.valid id before hbefore
    refine (hsmooth.hale id before hbefore).change (Vertex.change_handle hvalid signal) hvalid
      (hconduct.expects_vertex hsound hqueue hevent hbefore)
      (hsmooth.signal_ne_kill hsound hqueue hconduct hevent hbefore) ?_
    rintro task outcome rfl
    have hwaits : situation.Waits (.vertex id (.taskCompleted task outcome)) :=
      hevent ▸ waits_of_cons hqueue
    obtain ⟨rfl, -⟩ := hconduct.informed.reports id task outcome hwaits
    exact hsmooth.reports task outcome hwaits

omit hsound in
/-- The layer reports nothing but successes, since it was given nothing that is set to fail. -/
theorem Smooth.reports_take {failing : List TaskId} (hserved : situation.Served failing)
    (hfailing : ∀ task, situation.attempt.Scheduled task → task ∉ failing) {task : TaskId}
    {outcome : TaskOutcome}
    (hwaits : (situation.take event.entity rest step).Waits (.taskCompleted task outcome)) :
    outcome = .succeeded := by
  rcases waits_of_take hqueue hwaits with hold | hsent
  · exact hsmooth.reports task outcome hold
  · obtain ⟨layer, hlayer, -, rfl⟩ := hserved.layer
    obtain ⟨other, place, request, hevent, hother, hreport⟩ := hturn.of_report hsent
    cases hlayer.symm.trans hother
    have hrequest : situation.Waits (.tasks place request) := hevent ▸ waits_of_cons hqueue
    cases request with
    | kill tasks => exact absurd hrequest (hsmooth.requests place tasks)
    | schedule tasks resource =>
        obtain ⟨hmem, houtcome⟩ := TaskLayer.of_report_of_schedule hreport
        have hscheduled := (hconduct.informed.requests place _ hrequest task hmem).2
        rw [houtcome, TaskLayer.outcome, if_neg (hfailing task hscheduled)]

theorem Smooth.take (hspared : situation.Spared setting) {failing : List TaskId} (hserved : situation.Served failing)
    (hfailing : ∀ task, situation.attempt.Scheduled task → task ∉ failing) :
    (situation.take event.entity rest step).Smooth where
  cause := by
    rw [attempt_take]
    rcases hturn.dag_cases with hsame | ⟨signal, hevent, hdag, -⟩
    · rw [hsame]
      exact hsmooth.cause
    · rw [hdag]
      have hkill := hspared.signal_ne_kill hsound hqueue hturn hevent
      rcases (situation.attempt.dag.change_handle signal).cause_cases hkill with
        hcause | ⟨-, place, phase, rfl, hphase⟩
      · rw [hcause]
        exact hsmooth.cause
      · rw [hsound.wired.id] at hevent
        obtain ⟨vertex, hvertex, -, rfl, hterminal⟩ :=
          hconduct.accounted.of_event hsound hqueue hevent
        have hgoing := (hsmooth.hale place vertex hvertex).going
        cases h : vertex.phase <;> simp_all [Phase.isStopping, Phase.isTerminal]
  hale _ _ hafter := hsmooth.hale_take hsound hqueue hturn hconduct hafter
  reports _ _ hwaits := hsmooth.reports_take hqueue hturn hconduct hserved hfailing hwaits
  requests := by
    intro id tasks hwaits
    rcases waits_of_take hqueue hwaits with hold | hsent
    · exact hsmooth.requests id tasks hold
    · obtain ⟨before, after, hafter, -, hmem⟩ := hturn.of_request hsound.wired hsent
      have hgoing := (hsmooth.hale_take hsound hqueue hturn hconduct hafter).going
      rw [(Vertex.of_kill_mem hmem).1] at hgoing
      cases hgoing

end Smooth

end Take

end Situation

end JobFlow
