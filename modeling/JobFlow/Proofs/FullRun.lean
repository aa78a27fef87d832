import JobFlow.Proofs.Notification

/-!
Full runs, in which a job is initialised, started and killed any number of times while a task layer
completes whatever it is given. They are well-behaved, so everything that holds of rehearsals holds
throughout; without a kill nothing is stopped, and without a task that is set to fail nothing fails.
-/

namespace JobFlow

/-- Whether a task is one of the tasks of a plan. -/
def Plan.HasTask (plan : Plan) (task : TaskId) : Prop :=
  ∃ spec ∈ plan.vertices[task.vertex.index]?, task.index < spec.taskCount

instance (plan : Plan) (task : TaskId) : Decidable (plan.HasTask task) :=
  inferInstanceAs (Decidable (∃ spec ∈ plan.vertices[task.vertex.index]?, task.index < spec.taskCount))

/-- A task layer that completes its tasks, before it was given any. -/
def TaskLayer.rehearsal (failing : List TaskId) (acknowledges : Bool) : TaskLayer where
  completes := true
  acknowledges := acknowledges
  failing := failing

/-- The commands of a full run. -/
def fullRun (kills : Nat) : List DagSignal := .init :: .start :: List.replicate kills .kill

theorem isCommand_of_mem_fullRun {kills : Nat} {signal : DagSignal} (hsignal : signal ∈ fullRun kills) :
    signal.isCommand = true := by
  rcases List.mem_cons.mp hsignal with rfl | hlater
  · rfl
  · rcases List.mem_cons.mp hlater with rfl | hkill
    · rfl
    · rw [(List.mem_replicate.mp hkill).2]
      rfl

theorem orderly_fullRun (kills : Nat) : Orderly (fullRun kills) :=
  ⟨1, kills, Nat.le_refl 1, List.prefix_refl _⟩

/-- The event that a move dispatches. -/
def Move.sent? : Move → Option Event
  | .send event => some event
  | .deliver _ => none

/-! ### Throughout the run -/

namespace Situation

/-- What holds throughout a rehearsal, on top of what holds in every well-behaved run. -/
structure Rehearsed (setting : Setting) (failing : List TaskId) (situation : Situation) : Prop where
  promises : situation.Promises setting
  served : situation.Served failing
  honest : situation.Honest failing
  recorded : situation.Recorded
  notified : situation.Notified setting

theorem rehearsed_create (setting : Setting) (failing : List TaskId) (acknowledges : Bool) :
    Rehearsed setting failing
      ⟨{ Attempt.create setting.id setting.plan setting.graph setting.gating with
        layer := some (.rehearsal failing acknowledges) }, fun _ => []⟩ where
  promises := promises_create setting _
  served := by
    refine ⟨⟨_, rfl, rfl, rfl⟩, ?_⟩
    intro id vertex hvertex hlaunched
    obtain ⟨spec, -, rfl⟩ := Attempt.vertex?_create hvertex
    cases hlaunched
  honest := by
    refine ⟨fun task hwaits => (by cases hwaits), ?_⟩
    intro id vertex hvertex index hslot
    obtain ⟨spec, -, rfl⟩ := Attempt.vertex?_create hvertex
    have hnone := List.eq_of_mem_replicate (List.mem_of_getElem? hslot)
    cases hnone
  recorded := by
    refine ⟨?_, ?_, ?_, fun id tasks hwaits => (by cases hwaits)⟩
    · intro layer hlayer id vertex hvertex
      obtain ⟨spec, -, rfl⟩ := Attempt.vertex?_create hvertex
      cases hlayer
      rfl
    · intro layer hlayer task htask
      cases hlayer
      cases htask
    · intro layer hlayer task htask
      cases hlayer
      cases htask
  notified := ⟨fun dag phase hwaits => (by cases hwaits), rfl⟩

variable {setting : Setting} {situation : Situation} {failing : List TaskId}

theorem Rehearsed.send (hrehearsed : situation.Rehearsed setting failing) (dag : DagId)
    (signal : DagSignal) : (situation.send [.dag dag signal]).Rehearsed setting failing where
  promises := hrehearsed.promises.send _
  served := hrehearsed.served.send _
  honest := hrehearsed.honest.send (by simp [Event.taskCompleted])
  recorded := hrehearsed.recorded.send (by simp)
  notified := hrehearsed.notified.send (by simp)

theorem Rehearsed.take (hrehearsed : situation.Rehearsed setting failing)
    (hsound : situation.Sound setting) {told : List DagSignal} {heard : List Event}
    (hconduct : situation.Conduct setting told heard) (horderly : Orderly told) {event : Event}
    {rest : List Event} {step : Step Attempt} (hqueue : situation.queue event.entity = event :: rest)
    (hturn : situation.attempt.Turn event step) :
    (situation.take event.entity rest step).Rehearsed setting failing where
  promises := hrehearsed.promises.take hsound hqueue hturn
  served := Served.take hsound hqueue hturn hrehearsed.served hconduct.unerred
  honest := Honest.take hsound hqueue hturn hrehearsed.honest hrehearsed.served
  recorded := Recorded.take hsound hconduct.informed hqueue hturn hrehearsed.recorded
  notified := hrehearsed.notified.take hsound hqueue hturn
    (hconduct.unerred_take hsound horderly hqueue hturn)

theorem spared_create (setting : Setting) (layer : Option TaskLayer) : Spared setting
    ⟨{ Attempt.create setting.id setting.plan setting.graph setting.gating with layer := layer },
      fun _ => []⟩ where
  kill := List.not_mem_nil
  cause := fun h => by cases h

theorem smooth_create (setting : Setting) (layer : Option TaskLayer) : Smooth
    ⟨{ Attempt.create setting.id setting.plan setting.graph setting.gating with layer := layer },
      fun _ => []⟩ where
  cause := rfl
  hale := by
    intro id vertex hvertex
    obtain ⟨spec, -, rfl⟩ := Attempt.vertex?_create hvertex
    exact ⟨rfl, fun slot hslot => Or.inl (List.eq_of_mem_replicate hslot)⟩
  reports := fun task outcome hwaits => by cases hwaits
  requests := fun id tasks hwaits => by cases hwaits

end Situation

/-- Only tasks of the plan are ever launched. -/
theorem Attempt.Wired.hasTask_of_scheduled {setting : Setting} {attempt : Attempt}
    (hwired : attempt.Wired setting) {task : TaskId} (hscheduled : attempt.Scheduled task) :
    setting.plan.HasTask task := by
  obtain ⟨vertex, hvertex, howns, -⟩ := hscheduled
  obtain ⟨spec, hspec, hlength, -⟩ := hwired.vertex_length hvertex
  exact ⟨spec, hspec, hlength ▸ howns.2⟩

namespace Coordinator

section Run

variable {coordinator : Coordinator} {id : DagId} {kills : Nat} {moves : List Move}
  (hsends : moves.filterMap Move.sent? = (fullRun kills).map (Event.dag id))

include hsends

theorem mem_fullRun_of_send {event : Event} (hsend : Move.send event ∈ moves) :
    ∃ signal ∈ fullRun kills, event = .dag id signal := by
  have hmem : event ∈ moves.filterMap Move.sent? := List.mem_filterMap.mpr ⟨_, hsend, rfl⟩
  rw [hsends] at hmem
  obtain ⟨signal, hsignal, rfl⟩ := List.mem_map.mp hmem
  exact ⟨signal, hsignal, rfl⟩

theorem commands_of_fullRun : moves.filterMap (Move.command? id) = fullRun kills := by
  have hcommand : Move.command? id = fun move => move.sent?.bind (Event.command? id) := by
    funext move
    cases move <;> rfl
  rw [hcommand, ← List.filterMap_filterMap, hsends, List.filterMap_map]
  conv_rhs => rw [← List.filterMap_some (l := fullRun kills)]
  apply List.filterMap_congr
  intro signal hsignal
  exact if_pos ⟨rfl, isCommand_of_mem_fullRun hsignal⟩

theorem wellBehaved_of_fullRun : coordinator.WellBehaved id moves where
  orderly := by
    rw [commands_of_fullRun hsends]
    exact orderly_fullRun kills
  permitted := by
    intro earlier event hbegins
    obtain ⟨signal, hsignal, rfl⟩ :=
      mem_fullRun_of_send hsends (hbegins.mem (List.mem_append_right _ List.mem_cons_self))
    have hcommand := isCommand_of_mem_fullRun hsignal
    cases signal with
    | init => exact Or.inl rfl
    | start => exact Or.inr (Or.inl rfl)
    | kill => exact Or.inr (Or.inr (Or.inl rfl))
    | vertexCompleted => cases hcommand

end Run

section Fresh

variable {setting : Setting} {failing : List TaskId} {acknowledges : Bool} {coordinator : Coordinator}
  (hfresh : coordinator.Fresh setting (some (.rehearsal failing acknowledges))) {kills : Nat}
  {moves : List Move} (hsends : moves.filterMap Move.sent? = (fullRun kills).map (Event.dag setting.id))

include hfresh hsends

theorem Fresh.conduct_of_earlier {earlier : List Move} (hbegins : earlier <+: moves) :
    (coordinator.after earlier).situation.Conduct setting
        (earlier.filterMap (Move.command? setting.id)) (coordinator.delivered earlier) ∧
      Orderly (earlier.filterMap (Move.command? setting.id)) := by
  have hbehaved : coordinator.WellBehaved setting.id earlier :=
    (wellBehaved_of_fullRun hsends).of_earlier hbegins
  exact ⟨hfresh.conduct earlier hbehaved, hbehaved.orderly⟩

theorem Fresh.rehearsed {earlier : List Move} (hbegins : earlier <+: moves) :
    (coordinator.after earlier).situation.Rehearsed setting failing := by
  refine hfresh.induction (motive := fun earlier _ situation =>
    earlier <+: moves → situation.Rehearsed setting failing) ?_ ?_ ?_ ?_ earlier hbegins
  · exact fun _ => Situation.rehearsed_create setting failing acknowledges
  · intro first event hfirst hmoves
    obtain ⟨signal, -, rfl⟩ :=
      mem_fullRun_of_send hsends (hmoves.mem (List.mem_append_right _ List.mem_cons_self))
    exact (hfirst ((List.prefix_append _ _).trans hmoves)).send setting.id signal
  · exact fun first entity hfirst hmoves => hfirst ((List.prefix_append _ _).trans hmoves)
  · intro first event rest step hqueue hturn hfirst hmoves
    have hearlier := (List.prefix_append _ _).trans hmoves
    obtain ⟨hconduct, horderly⟩ := hfresh.conduct_of_earlier hsends hearlier
    exact (hfirst hearlier).take (hfresh.sound first) hconduct horderly hqueue hturn

end Fresh

section Unkilled

variable {setting : Setting} {failing : List TaskId} {acknowledges : Bool} {coordinator : Coordinator}
  (hfresh : coordinator.Fresh setting (some (.rehearsal failing acknowledges))) {moves : List Move}
  (hsends : moves.filterMap Move.sent? = (fullRun 0).map (Event.dag setting.id))

include hfresh hsends

theorem Fresh.spared {earlier : List Move} (hbegins : earlier <+: moves) :
    (coordinator.after earlier).situation.Spared setting := by
  refine hfresh.induction (motive := fun earlier _ situation =>
    earlier <+: moves → situation.Spared setting) ?_ ?_ ?_ ?_ earlier hbegins
  · exact fun _ => Situation.spared_create setting _
  · intro first event hfirst hmoves
    obtain ⟨signal, hsignal, rfl⟩ :=
      mem_fullRun_of_send hsends (hmoves.mem (List.mem_append_right _ List.mem_cons_self))
    apply (hfirst ((List.prefix_append _ _).trans hmoves)).send
    rw [Event.command?, if_pos ⟨rfl, isCommand_of_mem_fullRun hsignal⟩]
    rintro ⟨rfl⟩
    exact absurd hsignal (by decide)
  · exact fun first entity hfirst hmoves => hfirst ((List.prefix_append _ _).trans hmoves)
  · intro first event rest step hqueue hturn hfirst hmoves
    apply Situation.Spared.take (hfresh.sound first) hqueue hturn
    exact hfirst ((List.prefix_append _ _).trans hmoves)

theorem Fresh.smooth (hfailing : ∀ task ∈ failing, ¬ setting.plan.HasTask task) {earlier : List Move}
    (hbegins : earlier <+: moves) : (coordinator.after earlier).situation.Smooth := by
  refine hfresh.induction (motive := fun earlier _ situation =>
    earlier <+: moves → situation.Smooth) ?_ ?_ ?_ ?_ earlier hbegins
  · exact fun _ => Situation.smooth_create setting _
  · intro first event hfirst hmoves
    obtain ⟨signal, -, rfl⟩ :=
      mem_fullRun_of_send hsends (hmoves.mem (List.mem_append_right _ List.mem_cons_self))
    exact (hfirst ((List.prefix_append _ _).trans hmoves)).send
  · exact fun first entity hfirst hmoves => hfirst ((List.prefix_append _ _).trans hmoves)
  · intro first event rest step hqueue hturn hfirst hmoves
    have hearlier := (List.prefix_append _ _).trans hmoves
    have hsound := hfresh.sound first
    apply Situation.Smooth.take hsound hqueue hturn (hfresh.conduct_of_earlier hsends hearlier).1
      (hfirst hearlier) (hfresh.spared hsends hearlier) (hfresh.rehearsed hsends hearlier).served
    exact fun task hscheduled hfails =>
      hfailing task hfails (hsound.wired.hasTask_of_scheduled hscheduled)

end Unkilled

end Coordinator

end JobFlow
