import JobFlow.Proofs.Wiring

/-!
What waits on the lanes of a run, and how a dispatch and a turn change it. Main statement: what holds at
the start of a run and survives every dispatch and every turn holds in the whole of it.
-/

namespace JobFlow

namespace Situation

variable {situation : Situation}

/-- An event waits on the lane of its entity. -/
def Waits (situation : Situation) (event : Event) : Prop := event ∈ situation.queue event.entity

/-- What a selection finds on a lane, in order. -/
def pick {β : Type} (situation : Situation) (entity : Entity) (select : Event → Option β) : List β :=
  (situation.queue entity).filterMap select

/-- The wiring is right and every event waits on the lane of its own entity. -/
structure Sound (setting : Setting) (situation : Situation) : Prop where
  wired : situation.attempt.Wired setting
  sorted : ∀ entity, ∀ event ∈ situation.queue entity, event.entity = entity

theorem waits_send {events : List Event} {event : Event} :
    (situation.send events).Waits event ↔ situation.Waits event ∨ event ∈ events := by
  unfold Waits
  simp

theorem Waits.ne_nil {event : Event} (hwaits : situation.Waits event) :
    situation.queue event.entity ≠ [] := List.ne_nil_of_mem hwaits

section Take

variable {event : Event} {rest : List Event} {step : Step Attempt}

theorem waits_of_outbound {sent : Event} (hsent : sent ∈ step.outbound) :
    (situation.take event.entity rest step).Waits sent := by
  rw [Waits, queue_take]
  exact List.mem_append_right _ (List.mem_filter.mpr ⟨hsent, decide_eq_true rfl⟩)

variable (hqueue : situation.queue event.entity = event :: rest)

include hqueue

theorem waits_of_cons : situation.Waits event := by
  rw [Waits, hqueue]
  exact List.mem_cons_self

variable (step) in
/-- What waited still waits, but for the event that was taken. -/
theorem Waits.take {other : Event} (hwaits : situation.Waits other) :
    other = event ∨ (situation.take event.entity rest step).Waits other := by
  unfold Waits at hwaits ⊢
  rw [queue_take]
  by_cases hentity : other.entity = event.entity
  · rw [hentity, hqueue] at hwaits
    rw [if_pos hentity]
    exact (List.mem_cons.mp hwaits).imp_right (List.mem_append_left _)
  · rw [if_neg hentity]
    exact Or.inr (List.mem_append_left _ hwaits)

theorem waits_of_take {other : Event} (hwaits : (situation.take event.entity rest step).Waits other) :
    situation.Waits other ∨ other ∈ step.outbound := by
  unfold Waits at hwaits ⊢
  rw [queue_take, List.mem_append, List.mem_filter] at hwaits
  rcases hwaits with hold | hsent
  · left
    by_cases hentity : other.entity = event.entity
    · rw [if_pos hentity] at hold
      rw [hentity, hqueue]
      exact List.mem_cons_of_mem _ hold
    · rwa [if_neg hentity] at hold
  · exact Or.inr hsent.1

theorem Sound.take {setting : Setting} (hsound : situation.Sound setting)
    (hturn : situation.attempt.Turn event step) :
    (situation.take event.entity rest step).Sound setting where
  wired := hsound.wired.step hturn
  sorted := by
    intro entity other hother
    rw [queue_take, List.mem_append, List.mem_filter] at hother
    rcases hother with hold | hsent
    · split at hold
      next heq =>
        subst heq
        apply hsound.sorted
        rw [hqueue]
        exact List.mem_cons_of_mem _ hold
      next => exact hsound.sorted entity other hold
    · exact of_decide_eq_true hsent.2

end Take

section Pick

variable {β : Type} {entity : Entity} {select : Event → Option β}
  (hlocal : ∀ event, event.entity ≠ entity → select event = none)

include hlocal

theorem filterMap_filter_entity (events : List Event) :
    (events.filter (·.entity = entity)).filterMap select = events.filterMap select := by
  rw [List.filterMap_filter]
  congr 1
  funext event
  split
  next => rfl
  next h => exact (hlocal event (fun heq => h (decide_eq_true heq))).symm

theorem pick_send (events : List Event) :
    (situation.send events).pick entity select =
      situation.pick entity select ++ events.filterMap select := by
  unfold pick
  rw [queue_send, List.filterMap_append, filterMap_filter_entity hlocal]

/-- What was found on a lane loses the event that was taken and gains what is sent. -/
theorem pick_take {event : Event} {rest : List Event}
    (hqueue : situation.queue event.entity = event :: rest) (step : Step Attempt) :
    (select event).toList ++ (situation.take event.entity rest step).pick entity select =
      situation.pick entity select ++ step.outbound.filterMap select := by
  unfold pick
  rw [queue_take, List.filterMap_append, filterMap_filter_entity hlocal]
  by_cases hentity : entity = event.entity
  · rw [if_pos hentity, hentity, hqueue, List.filterMap_cons]
    cases select event <;> rfl
  · rw [if_neg hentity, hlocal event (Ne.symm hentity)]
    rfl

theorem pick_send_of_none {event : Event} (hnone : select event = none) :
    (situation.send [event]).pick entity select = situation.pick entity select := by
  rw [pick_send hlocal, List.filterMap_cons, hnone, List.filterMap_nil, List.append_nil]

/-- A turn leaves alone what neither its event nor its outbound events are about. -/
theorem pick_take_of_none {event : Event} {rest : List Event}
    (hqueue : situation.queue event.entity = event :: rest) {step : Step Attempt}
    (hnone : select event = none) (hsilent : ∀ sent ∈ step.outbound, select sent = none) :
    (situation.take event.entity rest step).pick entity select = situation.pick entity select := by
  have htake := pick_take hlocal hqueue step
  rw [hnone, List.filterMap_eq_nil_iff.mpr hsilent, List.append_nil] at htake
  exact htake

end Pick

theorem Sound.send {setting : Setting} (hsound : situation.Sound setting) (events : List Event) :
    (situation.send events).Sound setting where
  wired := hsound.wired
  sorted := by
    intro entity event hevent
    rw [queue_send, List.mem_append, List.mem_filter] at hevent
    rcases hevent with hold | hsent
    · exact hsound.sorted entity event hold
    · exact of_decide_eq_true hsent.2

end Situation

namespace Coordinator

/-- A coordinator at the start of a run. -/
structure Fresh (setting : Setting) (layer : Option TaskLayer) (coordinator : Coordinator) : Prop where
  routed : coordinator.dispatcher.Routed
  log : coordinator.dispatcher.log = []
  situation : coordinator.situation =
    ⟨{ Attempt.create setting.id setting.plan setting.graph setting.gating with layer := layer },
      fun _ => []⟩

theorem fresh_of_submit {id : DagId} {plan : Plan} {config : Config} {coordinator : Coordinator}
    (hsubmit : submit id plan config = .ok coordinator) (layer : Option TaskLayer) :
    ∃ setting : Setting, setting.id = id ∧ setting.plan = plan ∧
      setting.gating = config.settings.gating ∧ (coordinator.equip layer).Fresh setting layer := by
  obtain ⟨graph, hgraph, hrouted, hlog, -, -, hsituation⟩ := submit_ok hsubmit layer
  exact ⟨⟨id, plan, graph, config.settings.gating, hgraph⟩, rfl, rfl, rfl, hrouted, hlog, hsituation⟩

section Fresh

variable {setting : Setting} {layer : Option TaskLayer} {coordinator : Coordinator}
  (hfresh : coordinator.Fresh setting layer)

include hfresh

theorem Fresh.sound (moves : List Move) : (coordinator.after moves).situation.Sound setting := by
  refine situation_induction hfresh.routed (motive := fun _ situation => situation.Sound setting)
    ?_ ?_ ?_ moves
  · rw [hfresh.situation]
    exact ⟨Attempt.wired_create setting layer, by simp⟩
  · exact fun earlier event hsound => hsound.send [event]
  · intro earlier entity hsound
    rw [Situation.deliver]
    split
    next => exact hsound
    next event rest hqueue =>
      have hentity := hsound.sorted entity event (by rw [hqueue]; exact List.mem_cons_self)
      subst hentity
      exact hsound.take hqueue (hsound.wired.turn event)

/-- What holds at the start of a run and survives every dispatch and every turn holds in all of it. The
motive sees the moves so far, the events that were handled and the situation. -/
theorem Fresh.induction {motive : List Move → List Event → Situation → Prop}
    (hstart : motive [] [] ⟨{ Attempt.create setting.id setting.plan setting.graph setting.gating with
      layer := layer }, fun _ => []⟩)
    (hsend : ∀ moves event,
      motive moves (coordinator.delivered moves) (coordinator.after moves).situation →
        motive (moves ++ [.send event]) (coordinator.delivered moves)
          ((coordinator.after moves).situation.send [event]))
    (hidle : ∀ moves entity,
      motive moves (coordinator.delivered moves) (coordinator.after moves).situation →
        motive (moves ++ [.deliver entity]) (coordinator.delivered moves)
          (coordinator.after moves).situation)
    (htake : ∀ moves event rest step,
      (coordinator.after moves).situation.queue event.entity = event :: rest →
      (coordinator.after moves).situation.attempt.Turn event step →
      motive moves (coordinator.delivered moves) (coordinator.after moves).situation →
        motive (moves ++ [.deliver event.entity]) (coordinator.delivered moves ++ [event])
          ((coordinator.after moves).situation.take event.entity rest step))
    (moves : List Move) :
    motive moves (coordinator.delivered moves) (coordinator.after moves).situation := by
  refine situation_induction hfresh.routed
    (motive := fun moves situation => motive moves (coordinator.delivered moves) situation)
    ?_ ?_ ?_ moves
  · rw [hfresh.situation]
    exact hstart
  · intro earlier event hearlier
    rw [delivered_concat]
    simp only [handled, List.append_nil]
    exact hsend earlier event hearlier
  · intro earlier entity hearlier
    have hsound := hfresh.sound earlier
    have hhandled : (coordinator.after earlier).handled (.deliver entity) =
        ((coordinator.after earlier).situation.queue entity).head?.toList := rfl
    rw [delivered_concat, hhandled, Situation.deliver]
    cases hqueue : (coordinator.after earlier).situation.queue entity with
    | nil =>
        simp only [List.head?_nil, Option.toList_none, List.append_nil]
        exact hidle earlier entity hearlier
    | cons event rest =>
        have hentity := hsound.sorted entity event (by rw [hqueue]; exact List.mem_cons_self)
        subst hentity
        exact htake earlier event rest _ hqueue (hsound.wired.turn event) hearlier

end Fresh

end Coordinator

end JobFlow
