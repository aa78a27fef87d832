import JobFlow.Proofs.Orders

/-!
A well-behaved environment drives nothing to `error`. The client gives its commands in order, and only
tasks that were asked for are reported, as often and in whatever way. Then every signal that reaches the
job or a vertex is one that it expects.
-/

namespace JobFlow

/-- The messages that tell of a protocol violation. -/
theorem Notice.isViolation_iff (notice : Notice) : notice.isViolation = true ↔
    notice.message = "protocol violation; moving vertex to ERROR" ∨
      notice.message = "protocol violation; moving DAG to ERROR" := by
  cases notice <;> simp [isViolation, message]

/-- Neither the job nor a vertex is in error. -/
structure Attempt.Unerred (attempt : Attempt) : Prop where
  dag : attempt.dag.phase ≠ .error
  vertex : ∀ id vertex, attempt.vertex? id = some vertex → vertex.phase ≠ .error

/-- A protocol violation leaves an error behind. -/
theorem Attempt.Turn.isViolation_eq_false {attempt : Attempt} {event : Event} {step : Step Attempt}
    (hturn : attempt.Turn event step) (hunerred : step.machine.Unerred) {notice : Notice}
    (hnotice : notice ∈ step.notices) : notice.isViolation = false := by
  cases hviolation : notice.isViolation with
  | false => rfl
  | true =>
      exfalso
      cases hturn with
      | dag signal published hlawful =>
          exact hunerred.dag (hlawful.notices notice hnotice hviolation)
      | @vertex id before hbefore signal hlawful =>
          refine hunerred.vertex id _ ?_ (hlawful.notices notice hnotice hviolation)
          exact (vertex?_set hbefore _ id).trans (if_pos rfl)
      | tasks | finished => cases hnotice
      | stray _ _ _ _ hnotices =>
          exact absurd ((hnotices notice hnotice).symm.trans hviolation) (by decide)

namespace Situation

/-- What holds throughout a run in a well-behaved environment. -/
structure Conduct (setting : Setting) (told : List DagSignal) (heard : List Event)
    (situation : Situation) : Prop where
  accounted : situation.Accounted setting
  informed : situation.Informed setting heard
  commanded : situation.Commanded setting told
  ordered : ∀ id vertex, situation.attempt.vertex? id = some vertex →
    Ordered situation.attempt.dag id vertex (situation.orders id)
  unerred : situation.attempt.Unerred

theorem conduct_create (setting : Setting) (layer : Option TaskLayer) : Conduct setting [] []
    ⟨{ Attempt.create setting.id setting.plan setting.graph setting.gating with layer := layer },
      fun _ => []⟩ where
  accounted := accounted_create setting layer
  informed := informed_create setting layer
  commanded := ⟨fun _ => rfl, fun h => (by cases h), fun h => absurd rfl h⟩
  ordered := by
    intro id vertex hvertex
    obtain ⟨spec, -, rfl⟩ := Attempt.vertex?_create hvertex
    exact {
      sublist := List.nil_sublist _
      new := fun _ => ⟨rfl, rfl⟩
      inited := fun h => by cases h
      init := fun h => by cases h
      fresh := fun _ => Or.inl rfl
      start := fun h => by cases h
      kill := fun h => by cases h }
  unerred := by
    refine ⟨by simp [Attempt.create, Dag.create], ?_⟩
    intro id vertex hvertex
    obtain ⟨spec, -, rfl⟩ := Attempt.vertex?_create hvertex
    simp [Vertex.create]

variable {setting : Setting} {situation : Situation} {told : List DagSignal} {heard : List Event}

theorem orders_send_of_permitted {event : Event} (hpermitted : Permitted setting.id heard event)
    (id : VertexId) : (situation.send [event]).orders id = situation.orders id := by
  have hnone : event.order? id = none := by
    rcases hpermitted with rfl | rfl | rfl | ⟨_, _, _, _, _, -, -, rfl⟩
    · rfl
    · rfl
    · rfl
    · exact if_neg (fun h => by cases h.2)
  exact pick_send_of_none (fun _ => Event.order?_of_entity_ne) hnone

theorem Conduct.send (hconduct : situation.Conduct setting told heard) {event : Event}
    (hpermitted : Permitted setting.id heard event)
    (horderly : Orderly (told ++ (event.command? setting.id).toList)) :
    (situation.send [event]).Conduct setting (told ++ (event.command? setting.id).toList) heard where
  accounted := by
    apply hconduct.accounted.send
    rintro vertex phase rfl
    rcases hpermitted with h | h | h | ⟨_, _, _, _, _, -, -, h⟩ <;> cases h
  informed := hconduct.informed.send hpermitted
  commanded := hconduct.commanded.send event horderly
  ordered := by
    intro id vertex hvertex
    rw [orders_send_of_permitted hpermitted]
    exact hconduct.ordered id vertex hvertex
  unerred := hconduct.unerred

section Take

variable {event : Event} {rest : List Event} {step : Step Attempt} (hsound : situation.Sound setting)
  (hconduct : situation.Conduct setting told heard) (horderly : Orderly told)
  (hqueue : situation.queue event.entity = event :: rest)
  (hturn : situation.attempt.Turn event step)

include hqueue hturn in
/-- No turn commands the job. -/
theorem commands_take (dag : DagId) : situation.commands dag = (event.command? dag).toList ++
    (situation.take event.entity rest step).commands dag := by
  have hnothing : step.outbound.filterMap (Event.command? dag) = [] := by
    rw [List.filterMap_eq_nil_iff]
    intro sent hsent
    cases hturn with
    | dag command published hlawful =>
        rcases Dag.mem_announcements hsent with ⟨_, _, rfl, -⟩ | rfl <;> rfl
    | vertex hvertex signal hlawful =>
        rcases Vertex.mem_announcements hlawful.valid hsent with ⟨_, rfl, -⟩ | ⟨_, -, _, rfl⟩ | rfl
        · rfl
        · rfl
        · exact if_neg (fun h => by cases h.2)
    | tasks hlayer id request =>
        obtain ⟨task, -, outcome, rfl⟩ := TaskLayer.mem_reports hsent
        rfl
    | finished | stray => cases hsent
  have hpick : (event.command? dag).toList ++ (situation.take event.entity rest step).commands dag =
      situation.commands dag ++ step.outbound.filterMap (Event.command? dag) :=
    pick_take (fun _ => Event.command?_of_entity_ne) hqueue step
  rw [hnothing, List.append_nil] at hpick
  exact hpick.symm

variable (step) in
include hqueue in
theorem orders_take (id : VertexId) :
    (event.order? id).toList ++ (situation.take event.entity rest step).orders id =
      situation.orders id ++ step.outbound.filterMap (Event.order? id) :=
  pick_take (fun _ => Event.order?_of_entity_ne) hqueue step

include hqueue in
theorem orders_take_of_silent {id : VertexId} (hnone : event.order? id = none)
    (hsilent : ∀ sent ∈ step.outbound, sent.order? id = none) :
    (situation.take event.entity rest step).orders id = situation.orders id :=
  pick_take_of_none (fun _ => Event.order?_of_entity_ne) hqueue hnone hsilent

include hsound hqueue in
/-- A vertex that told the job of its end did end that way, and the job has not counted it. -/
theorem Accounted.of_event (haccounted : situation.Accounted setting) {place : VertexId} {phase : Phase}
    (hevent : event = .dag setting.id (.vertexCompleted place phase)) :
    ∃ vertex, situation.attempt.vertex? place = some vertex ∧
      situation.attempt.dag.ending? place = none ∧ vertex.phase = phase ∧ phase.isTerminal = true := by
  have hcompletions : situation.completions setting.id place =
      phase :: rest.filterMap (Event.completion? setting.id place) := by
    subst hevent
    change (situation.queue (Event.dag setting.id (.vertexCompleted place phase)).entity).filterMap _ = _
    rw [hqueue, List.filterMap_cons]
    simp only [Event.completion?, and_self, if_true]
  have hindex := haccounted.known place (by rw [hcompletions]; simp)
  obtain ⟨vertex, hvertex⟩ := hsound.wired.exists_vertex place hindex
  obtain ⟨hending, hphase, hterminal, -⟩ := haccounted.head hvertex hcompletions
  exact ⟨vertex, hvertex, hending, hphase, hphase ▸ hterminal⟩

include hsound hconduct hqueue in
/-- The news of an ending reaches a job that is live and has not counted it. -/
theorem Conduct.expects_completion {place : VertexId} {phase : Phase}
    (hevent : event = .dag setting.id (.vertexCompleted place phase)) :
    situation.attempt.dag.Expects (.vertexCompleted place phase) := by
  have hwired := hsound.wired
  obtain ⟨vertex, hvertex, hending, rfl, hterminal⟩ :=
    hconduct.accounted.of_event hsound hqueue hevent
  have hcount : place.index < situation.attempt.dag.vertexCount := by
    rw [hwired.vertexCount]
    exact hwired.index_lt hvertex
  have hordered := hconduct.ordered place vertex hvertex
  refine ⟨?_, hterminal, hconduct.unerred.vertex place vertex hvertex, hcount⟩
  cases hdag : situation.attempt.dag.phase with
  | running => exact Or.inl rfl
  | killWait => exact Or.inr rfl
  | new =>
      rw [(hordered.new hdag).1] at hterminal
      cases hterminal
  | inited =>
      rcases (hordered.inited hdag).1 with h | h <;> rw [h] at hterminal <;> cases hterminal
  | succeeded | failed | killed =>
      have hover := (hwired.dag.ended (by rw [hdag]; simp)).1
      have hnone := (Dag.ending?_eq_none_iff hcount).mp hending
      exact absurd (List.mem_of_getElem? hnone) hover
  | error => exact absurd hdag hconduct.unerred.dag

include hsound hconduct horderly hqueue hturn in
theorem Conduct.expects_dag {signal : DagSignal} (hevent : event = .dag setting.id signal) :
    situation.attempt.dag.Expects signal := by
  have hcommands := commands_take hqueue hturn setting.id
  rw [hevent] at hcommands
  by_cases hcommand : signal.isCommand = true
  · simp only [Event.command?, hcommand, and_self, if_true] at hcommands
    exact hconduct.commanded.expects horderly hcommands hcommand
  · cases signal with
    | init | start | kill => exact absurd rfl hcommand
    | vertexCompleted place phase => exact hconduct.expects_completion hsound hqueue hevent

include hsound hconduct hqueue in
theorem Conduct.expects_vertex {id : VertexId} {signal : VertexSignal}
    (hevent : event = .vertex id signal) {vertex : Vertex}
    (hvertex : situation.attempt.vertex? id = some vertex) : vertex.Expects signal := by
  have hwaits : situation.Waits (.vertex id signal) := hevent ▸ waits_of_cons hqueue
  have hsource : ∀ source gate, signal = Gating.signal gate source → source ∈ vertex.sources := by
    rintro source gate rfl
    rw [hsound.wired.vertex_sources hvertex]
    exact hconduct.informed.sources id source gate hwaits
  have hcommand : signal.isCommand = true → vertex.Expects signal := by
    intro hcommand
    have horders : ∃ later, situation.orders id = signal :: later := by
      refine ⟨rest.filterMap (Event.order? id), ?_⟩
      subst hevent
      change (situation.queue (Event.vertex id signal).entity).filterMap _ = _
      rw [hqueue, List.filterMap_cons]
      simp only [Event.order?, hcommand, and_self, if_true]
    obtain ⟨later, horders⟩ := horders
    have hordered := hconduct.ordered id vertex hvertex
    rw [horders] at hordered
    exact hordered.expects
  cases signal with
  | init | start | kill => exact hcommand rfl
  | sourceStarted source => exact hsource source .sourceStarted rfl
  | sourceSucceeded source => exact hsource source .sourceSucceeded rfl
  | taskCompleted task outcome =>
      obtain ⟨rfl, other, hother, howns, hlaunched⟩ := hconduct.informed.reports id task outcome hwaits
      cases hvertex.symm.trans hother
      exact ⟨howns, hlaunched⟩

include hsound hconduct horderly hqueue hturn

/-- No turn drives anything to error. -/
theorem Conduct.unerred_take : step.machine.Unerred := by
  have hdag : ∀ {signal}, event = .dag setting.id signal → situation.attempt.dag.Expects signal :=
    hconduct.expects_dag hsound horderly hqueue hturn
  have hvertex : ∀ {id signal}, event = .vertex id signal → ∀ {vertex},
      situation.attempt.vertex? id = some vertex → vertex.Expects signal :=
    hconduct.expects_vertex hsound hqueue
  have hunerred := hconduct.unerred
  cases hturn with
  | dag signal published hlawful =>
      refine ⟨?_, hunerred.vertex⟩
      have hchange := situation.attempt.dag.change_handle signal
      exact hchange.phase_ne_error hunerred.dag (hdag (by rw [hsound.wired.id]))
  | @vertex place before hbefore signal hlawful =>
      refine ⟨hunerred.dag, ?_⟩
      intro id vertex hafter
      rw [Attempt.vertex?_set hbefore] at hafter
      split at hafter
      · cases hafter
        have hchange := Vertex.change_handle (hsound.wired.valid place before hbefore) signal
        exact hchange.phase_ne_error (hunerred.vertex place before hbefore) (hvertex rfl hbefore)
      · exact hunerred.vertex id vertex hafter
  | tasks | finished | stray => exact ⟨hunerred.dag, hunerred.vertex⟩

omit horderly hturn in
/-- A vertex that handles a signal stays in step with the commands that still wait. -/
theorem Conduct.ordered_own {id : VertexId} {before : Vertex}
    (hbefore : situation.attempt.vertex? id = some before) {signal : VertexSignal}
    (hevent : event = .vertex id signal) (hlawful : before.Lawful (before.handle signal))
    (houtbound : step.outbound = before.announcements (before.handle signal).machine) :
    Ordered situation.attempt.dag id (before.handle signal).machine
      ((situation.take event.entity rest step).orders id) := by
  have hcurrent := hconduct.ordered id before hbefore
  have hexpects := hconduct.expects_vertex hsound hqueue hevent hbefore
  have horders := orders_take step hqueue id
  have hsilent : step.outbound.filterMap (Event.order? id) = [] := by
    rw [houtbound, List.filterMap_eq_nil_iff]
    exact fun sent => Vertex.order?_of_mem_announcements hlawful.valid id
  rw [hsilent, List.append_nil] at horders
  rw [← horders, hevent] at hcurrent
  rw [hevent]
  cases hcommand : signal.isCommand with
  | true =>
      simp only [Event.order?, hcommand, and_self, if_true] at hcurrent
      exact hcurrent.step_command hlawful
  | false =>
      simp only [Event.order?, hcommand, Bool.false_eq_true, and_false, if_false] at hcurrent
      exact hcurrent.step_other (hsound.wired.valid id before hbefore) hcommand hexpects hlawful

/-- The commands that wait for a vertex stay in step with it. -/
theorem Conduct.ordered_take {id : VertexId} {vertex : Vertex}
    (hvertex : step.machine.vertex? id = some vertex) :
    Ordered step.machine.dag id vertex
      ((situation.take event.entity rest step).orders id) := by
  have hwired := hsound.wired
  have hunerred := hconduct.unerred_take hsound horderly hqueue hturn
  have horders := orders_take step hqueue id
  have hordered := hconduct.ordered id
  cases hturn with
  | dag signal published hlawful =>
      rw [show Event.order? id (.dag situation.attempt.id signal) = none from rfl] at horders
      refine Eq.mpr ?_ ((hordered vertex hvertex).step_dag hlawful (hwired.valid id vertex hvertex)
        ?_ hunerred.dag)
      · rw [← horders]
        rfl
      · rw [hwired.vertexCount]
        exact hwired.index_lt hvertex
  | @vertex place before hbefore signal hlawful =>
      rw [Attempt.vertex?_set hbefore] at hvertex
      split at hvertex
      next heq =>
        cases hvertex
        subst heq
        exact hconduct.ordered_own hsound hqueue hbefore rfl hlawful rfl
      next hne =>
        rw [orders_take_of_silent hqueue (Event.order?_of_entity_ne ?_) ?_]
        · exact hordered vertex hvertex
        · exact fun heq => hne (Entity.vertex.inj heq).symm
        · exact fun sent => Vertex.order?_of_mem_announcements hlawful.valid id
  | tasks hlayer place request =>
      rw [orders_take_of_silent hqueue rfl ?_]
      · exact hordered vertex hvertex
      · intro sent hsent
        obtain ⟨task, -, outcome, rfl⟩ := TaskLayer.mem_reports hsent
        exact if_neg (fun h => by cases h.2)
  | finished dag phase =>
      rw [orders_take_of_silent hqueue rfl (by simp)]
      exact hordered vertex hvertex
  | stray hdag hstray =>
      rw [orders_take_of_silent hqueue (Event.order?_of_entity_ne ?_) (by simp)]
      · exact hordered vertex hvertex
      · intro heq
        cases event with
        | vertex place signal =>
            cases heq
            exact absurd ((hstray id signal rfl).symm.trans hvertex) (by simp)
        | dag | tasks | finished => cases heq

theorem Conduct.take :
    (situation.take event.entity rest step).Conduct setting told (heard ++ [event]) where
  accounted := hconduct.accounted.take hsound hqueue hturn
  informed := hconduct.informed.take hsound hqueue hturn
  commanded := by
    have hcommands := commands_take hqueue hturn setting.id
    have hexpects : ∀ {signal}, event = .dag setting.id signal →
        situation.attempt.dag.Expects signal :=
      hconduct.expects_dag hsound horderly hqueue hturn
    cases hturn with
    | dag signal published hlawful =>
        have hevent : Event.dag situation.attempt.id signal = .dag setting.id signal := by
          rw [hsound.wired.id]
        refine hconduct.commanded.step horderly (hexpects hevent) hlawful rfl ?_
        refine hcommands.trans ?_
        simp only [Event.command?, hsound.wired.id, true_and]
        split <;> rfl
    | vertex hvertex signal hlawful => exact hconduct.commanded.of_same rfl hcommands.symm
    | tasks hlayer place request => exact hconduct.commanded.of_same rfl hcommands.symm
    | finished dag phase => exact hconduct.commanded.of_same rfl hcommands.symm
    | stray hdag =>
        refine hconduct.commanded.of_same rfl ?_
        rw [Event.command?_of_entity_ne (hsound.wired.id ▸ hdag)] at hcommands
        exact hcommands.symm
  ordered _ _ hvertex := hconduct.ordered_take hsound horderly hqueue hturn hvertex
  unerred := hconduct.unerred_take hsound horderly hqueue hturn

end Take

end Situation

/-- The command that a move gives to a job. -/
def Move.command? (dag : DagId) : Move → Option DagSignal
  | .send event => event.command? dag
  | .deliver _ => none

namespace Coordinator

/-- A run in which the client commands the job in order and only tasks that were asked for are
reported, at any time after the request was handled. -/
structure WellBehaved (coordinator : Coordinator) (dag : DagId) (moves : List Move) : Prop where
  orderly : Orderly (moves.filterMap (Move.command? dag))
  permitted : ∀ earlier event, earlier ++ [.send event] <+: moves →
    Situation.Permitted dag (coordinator.delivered earlier) event

theorem WellBehaved.of_earlier {coordinator : Coordinator} {dag : DagId} {earlier moves : List Move}
    (hbehaved : coordinator.WellBehaved dag moves) (hbegins : earlier <+: moves) :
    coordinator.WellBehaved dag earlier where
  orderly := hbehaved.orderly.of_earlier (hbegins.filterMap _)
  permitted first event hfirst := hbehaved.permitted first event (hfirst.trans hbegins)

theorem commands_concat_deliver (moves : List Move) (entity : Entity) (dag : DagId) :
    (moves ++ [Move.deliver entity]).filterMap (Move.command? dag) =
      moves.filterMap (Move.command? dag) := by
  rw [List.filterMap_append]
  exact List.append_nil _

theorem commands_concat_send (moves : List Move) (event : Event) (dag : DagId) :
    (moves ++ [Move.send event]).filterMap (Move.command? dag) =
      moves.filterMap (Move.command? dag) ++ (event.command? dag).toList := by
  rw [List.filterMap_append, List.filterMap_cons]
  cases h : event.command? dag <;> simp [Move.command?, h]

theorem wellBehaved_nil (coordinator : Coordinator) (dag : DagId) : coordinator.WellBehaved dag [] where
  orderly := ⟨0, 0, Nat.zero_le 1, ⟨_, rfl⟩⟩
  permitted := by
    intro earlier event hbegins
    exact absurd (List.prefix_nil.mp hbegins) (List.append_ne_nil_of_right_ne_nil _ (by simp))

theorem WellBehaved.send {coordinator : Coordinator} {dag : DagId} {moves : List Move}
    (hbehaved : coordinator.WellBehaved dag moves) {event : Event}
    (horderly : Orderly (moves.filterMap (Move.command? dag) ++ (event.command? dag).toList))
    (hpermitted : Situation.Permitted dag (coordinator.delivered moves) event) :
    coordinator.WellBehaved dag (moves ++ [.send event]) where
  orderly := by
    rw [commands_concat_send]
    exact horderly
  permitted := by
    intro earlier other hbegins
    rcases List.prefix_concat_iff.mp hbegins with heq | hold
    · obtain ⟨rfl, hlast⟩ := List.append_inj' heq rfl
      cases hlast
      exact hpermitted
    · exact hbehaved.permitted earlier other hold

/-- Deliveries are never misbehaviour. -/
theorem WellBehaved.deliveries {coordinator : Coordinator} {dag : DagId} {moves : List Move}
    (hbehaved : coordinator.WellBehaved dag moves) (entities : List Entity) :
    coordinator.WellBehaved dag (moves ++ entities.map .deliver) := by
  induction entities generalizing moves with
  | nil => simpa using hbehaved
  | cons entity later ih =>
      rw [List.map_cons, List.append_cons]
      apply ih
      refine ⟨?_, fun earlier event hbegins => ?_⟩
      · rw [commands_concat_deliver]
        exact hbehaved.orderly
      · rcases List.prefix_concat_iff.mp hbegins with heq | hold
        · obtain ⟨-, hlast⟩ := List.append_inj' heq rfl
          cases hlast
        · exact hbehaved.permitted earlier event hold

section Fresh

variable {setting : Setting} {layer : Option TaskLayer} {coordinator : Coordinator}
  (hfresh : coordinator.Fresh setting layer)

include hfresh

theorem Fresh.conduct (moves : List Move) (hbehaved : coordinator.WellBehaved setting.id moves) :
    (coordinator.after moves).situation.Conduct setting (moves.filterMap (Move.command? setting.id))
      (coordinator.delivered moves) := by
  refine hfresh.induction (motive := fun moves heard situation =>
    coordinator.WellBehaved setting.id moves →
      situation.Conduct setting (moves.filterMap (Move.command? setting.id)) heard)
    ?_ ?_ ?_ ?_ moves hbehaved
  · exact fun _ => Situation.conduct_create setting layer
  · intro earlier event hearlier hbehaved
    have horderly := hbehaved.orderly
    have hconduct := hearlier (hbehaved.of_earlier (List.prefix_append _ _))
    rw [commands_concat_send] at horderly ⊢
    exact hconduct.send (hbehaved.permitted earlier event (List.prefix_refl _)) horderly
  · intro earlier entity hearlier hbehaved
    rw [commands_concat_deliver]
    exact hearlier (hbehaved.of_earlier (List.prefix_append _ _))
  · intro earlier event rest step hqueue hturn hearlier hbehaved
    have hearlierBehaved := hbehaved.of_earlier (List.prefix_append _ _)
    rw [commands_concat_deliver]
    exact (hearlier hearlierBehaved).take (hfresh.sound earlier) hearlierBehaved.orderly hqueue
      hturn

/-- As long as nothing is in error, no protocol violation is logged. -/
theorem Fresh.isViolation_eq_false (moves : List Move)
    (hunerred : ∀ earlier, earlier <+: moves → (coordinator.after earlier).attempt.Unerred) :
    ∀ notice ∈ (coordinator.after moves).dispatcher.log, notice.isViolation = false := by
  induction moves using List.reverseRecOn with
  | nil =>
      intro notice hnotice
      rw [show (coordinator.after []).dispatcher.log = [] from hfresh.log] at hnotice
      cases hnotice
  | append_singleton earlier last ih =>
      have hearlier := ih (fun first hfirst => hunerred first (hfirst.trans (List.prefix_append _ _)))
      have hrouted := routed_after hfresh.routed earlier
      have hbacklog : ∀ notice : Notice, (∃ lane depth, notice = .backlog lane depth) →
          notice.isViolation = false := by
        rintro notice ⟨lane, depth, rfl⟩
        rfl
      intro notice hnotice
      rw [after_concat] at hnotice
      cases last with
      | send event =>
          rcases log_dispatch hrouted hnotice with hold | hlane
          · exact hearlier notice hold
          · exact hbacklog notice hlane
      | deliver entity =>
          cases hqueue : (coordinator.after earlier).dispatcher.queue entity with
          | nil =>
              rw [move, deliver_nil hqueue] at hnotice
              exact hearlier notice hnotice
          | cons event rest =>
              obtain ⟨hsituation, -, hlog⟩ := deliver_cons hrouted hqueue
              rcases hlog notice hnotice with hold | hnew | hlane
              · exact hearlier notice hold
              · have hturn := (hfresh.sound earlier).wired.turn event
                refine hturn.isViolation_eq_false ?_ hnew
                have hafter := hunerred _ (List.prefix_refl _)
                rw [after_concat] at hafter
                have hattempt : ((coordinator.after earlier).deliver entity).attempt =
                    ((coordinator.after earlier).situation.attempt.react event).machine :=
                  congrArg Situation.attempt hsituation
                rw [← hattempt]
                exact hafter
              · exact hbacklog notice hlane

end Fresh

/-- In a well-behaved environment neither the job nor a vertex ever errs, and no protocol violation is
logged, in whatever order lanes are served. -/
theorem never_errs {id : DagId} {plan : Plan} {config : Config} {coordinator : Coordinator}
    (hsubmit : Coordinator.submit id plan config = .ok coordinator) (layer : Option TaskLayer)
    (moves : List Move) (hbehaved : (coordinator.equip layer).WellBehaved id moves) :
    let reached := (coordinator.equip layer).after moves
    reached.attempt.dag.phase ≠ .error ∧
    (∀ vertexId vertex, reached.attempt.vertex? vertexId = some vertex → vertex.phase ≠ .error) ∧
    ∀ notice ∈ reached.dispatcher.log,
      notice.message ≠ "protocol violation; moving vertex to ERROR" ∧
      notice.message ≠ "protocol violation; moving DAG to ERROR" := by
  obtain ⟨setting, rfl, -, -, hfresh⟩ := fresh_of_submit hsubmit layer
  have hunerred : ∀ earlier, earlier <+: moves →
      ((coordinator.equip layer).after earlier).attempt.Unerred :=
    fun earlier hbegins => (hfresh.conduct earlier (hbehaved.of_earlier hbegins)).unerred
  obtain ⟨hdag, hvertices⟩ := hunerred moves (List.prefix_refl _)
  refine ⟨hdag, hvertices, fun notice hnotice => ?_⟩
  have hviolation := hfresh.isViolation_eq_false moves hunerred notice hnotice
  have hmessages := mt notice.isViolation_iff.mpr (by rw [hviolation]; decide)
  exact ⟨fun h => hmessages (Or.inl h), fun h => hmessages (Or.inr h)⟩

/-- The job of two vertices copes with a first task that is reported failed and then succeeded. -/
theorem never_errs_line :
    let failure : Move := .send (.taskCompleted ⟨⟨0⟩, 0⟩ .failed)
    let success : Move := .send (.taskCompleted ⟨⟨0⟩, 0⟩ .succeeded)
    let moves := lineRun 4 ++ [failure] ++ [success] ++ lineLanes.map .deliver
    line.WellBehaved ⟨1⟩ moves ∧ (line.after moves).attempt.dag.phase ≠ .error ∧
      ∀ notice ∈ (line.after moves).dispatcher.log,
        notice.message ≠ "protocol violation; moving DAG to ERROR" := by
  intro failure success moves
  have hinit : line.WellBehaved ⟨1⟩ [.send (.dag ⟨1⟩ .init)] :=
    (wellBehaved_nil line ⟨1⟩).send ⟨0, 0, Nat.zero_le 1, List.prefix_refl _⟩ (Or.inl rfl)
  have hstart : line.WellBehaved ⟨1⟩ [.send (.dag ⟨1⟩ .init), .send (.dag ⟨1⟩ .start)] :=
    hinit.send ⟨1, 0, Nat.le_refl 1, List.prefix_refl _⟩ (Or.inr (Or.inl rfl))
  have hserved : line.WellBehaved ⟨1⟩ (lineRun 4) := hstart.deliveries _
  have hreport : ∀ {earlier : List Move} (outcome : TaskOutcome), line.WellBehaved ⟨1⟩ earlier →
      Event.tasks ⟨0⟩ (.schedule [⟨⟨0⟩, 0⟩] {}) ∈ line.delivered earlier →
        line.WellBehaved ⟨1⟩ (earlier ++ [.send (.taskCompleted ⟨⟨0⟩, 0⟩ outcome)]) := by
    intro earlier outcome hbehaved hrequest
    apply hbehaved.send
    · exact (List.append_nil (earlier.filterMap (Move.command? ⟨1⟩))).symm ▸ hbehaved.orderly
    · exact Or.inr (Or.inr (Or.inr ⟨_, _, _, _, _, hrequest, List.mem_cons_self, rfl⟩))
  have hfailed := hreport .failed hserved (by decide)
  have hsucceeded := hreport .succeeded hfailed (by decide)
  have hbehaved : line.WellBehaved ⟨1⟩ moves := hsucceeded.deliveries lineLanes
  obtain ⟨hdag, -, hlog⟩ := never_errs submit_line none moves hbehaved
  rw [equip] at hdag hlog
  exact ⟨hbehaved, hdag, fun notice hnotice => (hlog notice hnotice).2⟩

end Coordinator

end JobFlow
