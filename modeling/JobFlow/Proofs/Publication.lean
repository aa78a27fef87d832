import Mathlib.Data.List.Infix
import JobFlow.Proofs.Notification

/-!
What an owner can see of a job. The phase that watchers see is the phase of the job, and the owner is told
how the job ended when it ended first, which a job that errs later does not take back. Main statement: so it
is at every moment of every run, whatever else is sent.
-/

namespace JobFlow

/-- An attempt that publishes the phase of its job goes on doing so. -/
theorem Attempt.published_react {attempt : Attempt} (hpublished : attempt.published = attempt.dag.phase)
    (event : Event) : (attempt.react event).machine.published = (attempt.react event).machine.dag.phase := by
  cases event with
  | dag id signal =>
      rw [react]
      dsimp only
      split
      next => exact hpublished
      next =>
        dsimp only
        split
        next hsame => exact hpublished.trans hsame.symm
        next => rfl
  | vertex id signal =>
      rw [react]
      dsimp only
      cases attempt.vertex? id <;> exact hpublished
  | tasks vertex request =>
      rw [react]
      cases attempt.layer <;> exact hpublished
  | finished dag phase => exact hpublished

namespace Situation

/-- The owner was told, or is about to be told, how a job ended first. -/
structure Told (setting : Setting) (first : Option Phase) (situation : Situation) : Prop where
  own : ∀ dag phase, situation.Waits (.finished dag phase) → dag = setting.id
  told : situation.attempt.finished ++ situation.notifications setting.id =
    first.toList.map (Prod.mk setting.id)
  ended : first.isSome = situation.attempt.dag.phase.isTerminal

variable {setting : Setting} {situation : Situation} {first : Option Phase}

theorem told_create (setting : Setting) (layer : Option TaskLayer) : Told setting none
    ⟨{ Attempt.create setting.id setting.plan setting.graph setting.gating with layer := layer },
      fun _ => []⟩ where
  own _ _ hwaits := by cases hwaits
  told := rfl
  ended := rfl

/-- The first end is the same when the phase is looked at once more. -/
theorem Told.or_phase (htold : situation.Told setting first) :
    first.or ([situation.attempt.dag.phase].find? (·.isTerminal)) = first := by
  have hover := htold.ended
  cases first with
  | some phase => rfl
  | none => simp [← hover]

theorem Told.send (htold : situation.Told setting first) {event : Event}
    (hevent : ∀ dag phase, event ≠ .finished dag phase) : (situation.send [event]).Told setting first where
  own _ _ hwaits := own_send hevent htold.own hwaits
  told := by
    rw [notifications_send hevent]
    exact htold.told
  ended := htold.ended

/-- A turn in which the job comes to be over for the first time is the one in which it tells its owner. -/
theorem Told.take {event : Event} {rest : List Event} {step : Step Attempt} (hsound : situation.Sound setting)
    (hqueue : situation.queue event.entity = event :: rest) (hturn : situation.attempt.Turn event step)
    (htold : situation.Told setting first) : (situation.take event.entity rest step).Told setting
      (first.or ([step.machine.dag.phase].find? (·.isTerminal))) := by
  have hbefore := htold.ended
  have hterminal : situation.attempt.dag.phase.isTerminal = true → step.machine.dag.phase.isTerminal = true := by
    intro hover
    rcases hturn.dag_cases with hsame | ⟨signal, -, hdag, -⟩
    · rw [hsame]
      exact hover
    · rw [hdag]
      exact (situation.attempt.dag.change_handle signal).isTerminal hover
  refine ⟨fun _ _ hwaits => own_take hsound hqueue hturn htold.own hwaits, ?_, ?_⟩
  · rw [attempt_take, told_take hsound hqueue hturn htold.own, htold.told, hsound.wired.dag.ownerTold,
      (hsound.wired.step hturn).dag.ownerTold, ← hbefore]
    cases first with
    | some phase => simp
    | none => cases hafter : step.machine.dag.phase.isTerminal <;> simp [hafter]
  · cases first with
    | some phase => exact (hterminal hbefore.symm).symm
    | none => cases hafter : step.machine.dag.phase.isTerminal <;> simp [hafter]

/-- What waits for an owner is the news of ends. -/
theorem Sound.queue_owner (hsound : situation.Sound setting) (id : DagId) :
    situation.queue (.owner id) =
      (situation.notifications id).map (fun told => .finished told.1 told.2) := by
  have hevent : ∀ event ∈ situation.queue (.owner id),
      (event.finished? id).map (fun told => .finished told.1 told.2) = some event := by
    intro event hmem
    have hentity := hsound.sorted (.owner id) event hmem
    cases event with
    | dag | vertex | tasks => cases hentity
    | finished dag phase =>
        cases hentity
        simp [Event.finished?]
  rw [notifications, pick, List.map_filterMap, List.filterMap_congr hevent, List.filterMap_some]

end Situation

namespace Coordinator

/-- The phases that a job has gone through in a run, from the start on. -/
def phases (coordinator : Coordinator) (moves : List Move) : List Phase :=
  moves.inits.map (fun earlier => (coordinator.after earlier).attempt.dag.phase)

theorem phases_concat (coordinator : Coordinator) (moves : List Move) (last : Move) :
    coordinator.phases (moves ++ [last]) = coordinator.phases moves ++
      [(coordinator.after (moves ++ [last])).attempt.dag.phase] := by
  simp [phases, List.inits_append]

theorem published_after {coordinator : Coordinator} (hrouted : coordinator.dispatcher.Routed)
    (hpublished : coordinator.attempt.published = coordinator.attempt.dag.phase) (moves : List Move) :
    (coordinator.after moves).attempt.published = (coordinator.after moves).attempt.dag.phase := by
  refine situation_induction hrouted (motive := fun _ situation =>
    situation.attempt.published = situation.attempt.dag.phase) hpublished ?_ ?_ moves
  · exact fun earlier event hearlier => hearlier
  · intro earlier entity hearlier
    rw [Situation.deliver]
    split
    next => exact hearlier
    next event rest hqueue => exact Attempt.published_react hearlier event

theorem Fresh.told {setting : Setting} {layer : Option TaskLayer} {coordinator : Coordinator}
    (hfresh : coordinator.Fresh setting layer) {moves : List Move}
    (hsends : ∀ dag phase, Move.send (.finished dag phase) ∉ moves) :
    (coordinator.after moves).situation.Told setting
      ((coordinator.phases moves).find? (·.isTerminal)) := by
  -- The phases of a run are told of its last situation too, so the induction has to know it as such.
  refine hfresh.induction (motive := fun moves _ situation =>
    (coordinator.after moves).situation = situation →
    (∀ dag phase, Move.send (.finished dag phase) ∉ moves) →
    situation.Told setting ((coordinator.phases moves).find? (·.isTerminal))) ?_ ?_ ?_ ?_ moves rfl hsends
  · intro hstart _
    have hphase : coordinator.phases [] = [(coordinator.after []).situation.attempt.dag.phase] := rfl
    rw [hphase, hstart]
    exact Situation.told_create setting layer
  · intro earlier event hearlier hlast hsends
    have htold := hearlier rfl (fun dag phase hmem => hsends dag phase (List.mem_append_left _ hmem))
    have hphase : (coordinator.after (earlier ++ [.send event])).attempt.dag.phase =
        (coordinator.after earlier).situation.attempt.dag.phase :=
      congrArg (fun situation => situation.attempt.dag.phase) hlast
    rw [phases_concat, List.find?_append, hphase, htold.or_phase]
    apply htold.send
    rintro dag phase rfl
    exact hsends dag phase (List.mem_append_right _ List.mem_cons_self)
  · intro earlier entity hearlier hlast hsends
    have htold := hearlier rfl (fun dag phase hmem => hsends dag phase (List.mem_append_left _ hmem))
    have hphase : (coordinator.after (earlier ++ [.deliver entity])).attempt.dag.phase =
        (coordinator.after earlier).situation.attempt.dag.phase :=
      congrArg (fun situation => situation.attempt.dag.phase) hlast
    rw [phases_concat, List.find?_append, hphase, htold.or_phase]
    exact htold
  · intro earlier event rest step hqueue hturn hearlier hlast hsends
    have htold := hearlier rfl (fun dag phase hmem => hsends dag phase (List.mem_append_left _ hmem))
    have hphase : (coordinator.after (earlier ++ [.deliver event.entity])).attempt.dag.phase =
        step.machine.dag.phase :=
      congrArg (fun situation => situation.attempt.dag.phase) hlast
    rw [phases_concat, List.find?_append, hphase]
    exact htold.take (hfresh.sound earlier) hqueue hturn

/-- At every moment of a run, in which anything may be sent but news of an end, watchers see the phase of the
job, and what the owner has been told and is about to be told is nothing as long as the job has never been
over, and afterwards how the job ended first, once. -/
theorem owner_sees_first_end {id : DagId} {plan : Plan} {config : Config} {coordinator : Coordinator}
    (hsubmit : submit id plan config = .ok coordinator) (layer : Option TaskLayer) (moves : List Move)
    (hsends : ∀ dag phase, Move.send (.finished dag phase) ∉ moves) :
    let reached := (coordinator.equip layer).after moves
    let firstEnd := ((coordinator.equip layer).phases moves).find? (·.isTerminal)
    reached.attempt.published = reached.attempt.dag.phase ∧
    reached.attempt.finished.map (fun told => .finished told.1 told.2) ++
        reached.dispatcher.queue (.owner id) = firstEnd.toList.map (Event.finished id) ∧
    ∀ other, other ≠ id → reached.dispatcher.queue (.owner other) = [] := by
  obtain ⟨setting, rfl, -, -, hfresh⟩ := fresh_of_submit hsubmit layer
  intro reached firstEnd
  have hsound := hfresh.sound moves
  have htold := hfresh.told hsends
  refine ⟨?_, ?_, fun other hother => ?_⟩
  · have hstart : (coordinator.equip layer).situation.attempt.published =
        (coordinator.equip layer).situation.attempt.dag.phase := by
      rw [hfresh.situation]
      rfl
    exact published_after hfresh.routed hstart moves
  · have hqueue : reached.dispatcher.queue (.owner setting.id) = _ := hsound.queue_owner setting.id
    have hevents := congrArg (List.map (fun told => Event.finished told.1 told.2)) htold.told
    rw [List.map_append, List.map_map] at hevents
    rw [hqueue]
    exact hevents
  · refine List.eq_nil_iff_forall_not_mem.mpr (fun event hmem => ?_)
    have hentity : event.entity = .owner other := hsound.sorted (.owner other) event hmem
    cases event with
    | dag | vertex | tasks => cases hentity
    | finished dag phase =>
        cases hentity
        exact hother (htold.own other phase hmem)

/-- The job of two vertices, whose ends are reported though they have done nothing, succeeds by that and errs
when it is initialised again. The error is published, and the owner is told of the success. -/
theorem owner_sees_first_end_line :
    let moves := ([.init, .start, .vertexCompleted ⟨0⟩ .succeeded, .vertexCompleted ⟨1⟩ .succeeded, .init].map
      (fun signal => Move.send (.dag ⟨1⟩ signal))) ++ List.replicate 5 (.deliver (.dag ⟨1⟩))
    let reached := line.after moves
    reached.attempt.dag.phase = .error ∧ reached.attempt.published = .error ∧
      reached.attempt.finished.map (fun told => .finished told.1 told.2) ++
        reached.dispatcher.queue (.owner ⟨1⟩) = [.finished ⟨1⟩ .succeeded] := by
  intro moves reached
  have hfirst : (line.phases moves).find? (·.isTerminal) = some .succeeded := by decide
  have herror : reached.attempt.dag.phase = .error := by decide
  obtain ⟨hpublished, htold, -⟩ := owner_sees_first_end submit_line none moves (by simp [moves])
  refine ⟨herror, hpublished.trans herror, htold.trans ?_⟩
  have hend : (((line.equip none).phases moves).find? (·.isTerminal)).toList = [.succeeded] :=
    congrArg Option.toList hfirst
  rw [hend]
  rfl

end Coordinator

end JobFlow
