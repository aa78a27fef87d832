import JobFlow.Proofs.Dag.Responses

/-!
Whom a job tells to die. A live job that ends has told everyone whose ending it has not counted, and
never forgets whom it has told. Main statement: a job tells everyone at once, in the step that gives it
its cause or makes it err without one, and nobody in any other step.
-/

namespace JobFlow

namespace Dag

/-- Everyone whose ending is not counted was told to die. -/
def TornDown (dag : Dag) : Prop :=
  ∀ vertex : VertexId, vertex.index < dag.vertexCount → dag.ending? vertex = none →
    dag.asked vertex = true

/-- A job that has started and has not ended. -/
def Live (dag : Dag) : Prop := dag.phase = .running ∨ dag.phase = .killWait

variable {dag after : Dag}

/-- Who was told to die stays told, and who was counted stays counted. -/
theorem TornDown.follows (htorn : dag.TornDown) (hfollows : dag.Follows after) : after.TornDown := by
  intro vertex hindex hending
  rw [hfollows.vertexCount] at hindex
  apply hfollows.asked
  apply htorn vertex hindex
  cases hbefore : dag.ending? vertex with
  | none => rfl
  | some phase =>
      rw [hfollows.ending vertex phase hbefore] at hending
      cases hending

theorem tornDown_of_all (hall : none ∉ dag.endings) : dag.TornDown := by
  intro vertex hindex hending
  have hnone := (ending?_eq_none_iff hindex).mp hending
  exact absurd (List.mem_of_getElem? hnone) hall

/-- A live job does not err before it has told everyone to die. -/
theorem tornDown_endInError (hlive : dag.Live) : dag.endInError.machine.TornDown := by
  obtain ⟨targets, -, htargets, hstep⟩ := dag.endInError_eq
  rw [hstep, htargets hlive]
  intro vertex hindex hending
  apply asked_tellToDie_killable
  · exact (dag.vertexCount_tellToDie _).symm ▸ hindex
  · exact (dag.ending?_tellToDie _ vertex).symm ▸ hending

/-- The signals that make a live job err make it tell everyone to die. -/
theorem Change.tornDown {signal : DagSignal} (hchange : dag.Change signal after) (hlive : dag.Live)
    (herror : after.phase = .error) : after.TornDown := by
  have hunerred : dag.phase ≠ .error := by rcases hlive with h | h <;> simp [h]
  cases hchange with
  | kept => exact absurd herror hunerred
  | begun phase hphase =>
      rcases hphase with ⟨-, rfl⟩ | ⟨-, rfl⟩
      · cases herror
      · cases herror
  | killed =>
      refine absurd herror (phase_windUp_ne_error ?_ _)
      simp
  | counted vertex phase _ _ hterminal tally =>
      by_cases hphase : phase = .error
      · subst hphase
        exact tornDown_endInError hlive
      · exact absurd herror (dag.phase_account_ne_error hunerred vertex tally hterminal hphase)
  | rejected _ reason => exact tornDown_endInError hlive

/-- A job that was live is live still, or over with everyone counted or told to die. -/
def Attended (dag : Dag) : Prop := dag.Live ∨ dag.phase.isTerminal = true ∧ dag.TornDown

/-- A step out of a live phase leads to a live phase or to an end. -/
theorem Live.attended {signal : DagSignal} (hlive : dag.Live)
    (hlawful : dag.Lawful (dag.handle signal)) : (dag.handle signal).machine.Attended := by
  have hbegun : dag.phase ≠ .new ∧ dag.phase ≠ .inited := by rcases hlive with h | h <;> simp [h]
  have hchange := dag.change_handle signal
  cases hphase : (dag.handle signal).machine.phase with
  | new => exact absurd (hlawful.follows.new hphase) hbegun.1
  | inited =>
      rcases hlawful.follows.inited hphase with h | h
      · exact absurd h hbegun.1
      · exact absurd h hbegun.2
  | running => exact Or.inl (Or.inl hphase)
  | killWait => exact Or.inl (Or.inr hphase)
  | succeeded | failed | killed =>
      have hended := hlawful.valid.ended (by simp [hphase])
      exact Or.inr ⟨by rw [hphase]; rfl, tornDown_of_all hended.1⟩
  | error => exact Or.inr ⟨by rw [hphase]; rfl, hchange.tornDown hlive hphase⟩

theorem Attended.handle {signal : DagSignal} (hattended : dag.Attended)
    (hlawful : dag.Lawful (dag.handle signal)) : (dag.handle signal).machine.Attended := by
  rcases hattended with hlive | ⟨hterminal, htorn⟩
  · exact hlive.attended hlawful
  · exact Or.inr ⟨(dag.change_handle signal).isTerminal hterminal, htorn.follows hlawful.follows⟩

/-! ### Who is told -/

/-- The vertices whose ending a job has not counted, in order. -/
def uncounted (dag : Dag) : List VertexId :=
  ((List.range dag.vertexCount).filter (fun index => !dag.isCounted ⟨index⟩)).map (⟨·⟩)

/-- A step tears a job down when it gives it a cause, or makes it err while it lives without one. -/
def TearsDown (before after : Dag) : Prop :=
  before.cause = .none ∧ (after.cause ≠ .none ∨ before.Live ∧ after.phase = .error)

theorem mem_uncounted {vertex : VertexId} :
    vertex ∈ dag.uncounted ↔ vertex.index < dag.vertexCount ∧ dag.ending? vertex = none := by
  have hcounted : dag.isCounted vertex = false ↔ dag.ending? vertex = none := by
    rw [← Bool.not_eq_true, isCounted_iff, Classical.not_not]
  rw [uncounted, List.mem_map]
  constructor
  · rintro ⟨index, hindex, rfl⟩
    rw [List.mem_filter, List.mem_range, Bool.not_eq_true', hcounted] at hindex
    exact hindex
  · rintro ⟨hindex, hending⟩
    refine ⟨vertex.index, ?_, rfl⟩
    rw [List.mem_filter, List.mem_range, Bool.not_eq_true']
    exact ⟨hindex, hcounted.mpr hending⟩

theorem nodup_uncounted (dag : Dag) : dag.uncounted.Nodup := by
  rw [uncounted]
  refine List.Pairwise.map _ ?_ (List.nodup_range.filter _)
  exact fun left right hne heq => hne (congrArg VertexId.index heq)

/-! What a job remembers of its vertices is in its tallies, so it is told apart from the rest of it. -/

section Tallies

variable {base : Dag} {vertex : VertexId}

/-- Whoever is told to die is not counted. -/
theorem asked_tellToDie_cases {targets : List VertexId}
    (hasked : (dag.tellToDie targets).machine.asked vertex = true)
    (htargets : targets = Tally.killable dag.tallies ∨ targets = []) (htallies : dag.tallies = base.tallies) :
    base.asked vertex = true ∨ base.ending? vertex = none := by
  have hbase : base.asked vertex = dag.asked vertex ∧ base.ending? vertex = dag.ending? vertex := by
    unfold Dag.asked ending? tally?
    rw [htallies]
    exact ⟨rfl, rfl⟩
  rw [asked_tellToDie, Bool.or_eq_true] at hasked
  rw [hbase.1, hbase.2]
  refine hasked.imp_right (fun htarget => ?_)
  obtain ⟨hmem, -⟩ := of_decide_eq_true htarget
  rcases htargets with rfl | rfl
  · exact (mem_killable.mp hmem).2.1
  · cases hmem

theorem asked_windUp_cases {fresh : Bool} (hasked : (dag.windUp fresh).machine.asked vertex = true)
    (htallies : dag.tallies = base.tallies) :
    base.asked vertex = true ∨ base.ending? vertex = none := by
  by_cases hall : none ∉ dag.endings
  · rw [windUp_of_all fresh hall] at hasked
    exact asked_tellToDie_cases hasked (dag.dueTargets_cases fresh) htallies
  · rw [windUp_of_missing fresh (Classical.not_not.mp hall)] at hasked
    exact asked_tellToDie_cases hasked (dag.dueTargets_cases fresh) htallies

theorem asked_endInError_cases (hasked : dag.endInError.machine.asked vertex = true)
    (htallies : dag.tallies = base.tallies) :
    base.asked vertex = true ∨ base.ending? vertex = none := by
  obtain ⟨targets, htargets, -, hstep⟩ := dag.endInError_eq
  rw [hstep] at hasked
  exact asked_tellToDie_cases hasked htargets htallies

end Tallies

theorem asked_account_cases {vertex other : VertexId} {tally : Tally}
    (htally : dag.tally? vertex = some tally) (phase : Phase)
    (hasked : (dag.account vertex tally phase).machine.asked other = true) :
    dag.asked other = true ∨ (dag.account vertex tally phase).machine.ending? other = none := by
  rw [ending?_account, ← asked_enter htally phase]
  unfold account at hasked
  cases phase with
  | succeeded => exact asked_windUp_cases hasked rfl
  | failed => exact asked_windUp_cases hasked rfl
  | killed =>
      dsimp only at hasked
      split at hasked
      · exact asked_windUp_cases hasked rfl
      · exact asked_windUp_cases hasked rfl
  | error | new | inited | running | killWait => exact asked_endInError_cases hasked rfl

section Step

variable {signal : DagSignal}

/-- A step tells nobody to die who is counted after it. -/
theorem Change.asked_cases (hchange : dag.Change signal after) {vertex : VertexId}
    (hasked : after.asked vertex = true) :
    dag.asked vertex = true ∨ after.ending? vertex = none := by
  cases hchange with
  | kept | begun => exact Or.inl hasked
  | killed =>
      rw [ending?_killByUser]
      rw [killByUser] at hasked
      dsimp only at hasked
      split at hasked
      · exact asked_windUp_cases hasked rfl
      · exact asked_windUp_cases hasked rfl
  | counted place phase _ _ _ tally htally => exact asked_account_cases htally phase hasked
  | rejected _ reason =>
      rw [ending?_violate]
      exact asked_endInError_cases hasked rfl

/-- A job that errs without being live tells nobody to die. -/
theorem Change.asked_of_idle (hchange : dag.Change signal after) (hidle : ¬ dag.Live)
    (herror : after.phase = .error) (vertex : VertexId) : after.asked vertex = dag.asked vertex := by
  cases hchange with
  | kept | begun => rfl
  | killed =>
      refine absurd herror (phase_windUp_ne_error ?_ _)
      simp
  | counted _ _ _ hlive => exact absurd hlive hidle
  | rejected _ reason =>
      rw [violate, Step.machine_andThen, endInError]
      split
      next hlive => exact absurd hlive hidle
      next => rfl

/-- A step gives a cause only to a job that has been initialised and is not over. -/
theorem Change.cause_of_idle (hchange : dag.Change signal after)
    (hidle : ¬ (dag.phase = .inited ∨ dag.Live)) : after.cause = dag.cause := by
  cases hchange with
  | kept | begun => rfl
  | killed _ hphase => exact absurd (hphase.imp_right Or.inl) hidle
  | counted _ _ _ hlive => exact absurd (Or.inr hlive) hidle
  | rejected _ reason => exact cause_violate dag reason

/-- A job is torn down out of `inited` or while it lives. -/
theorem Change.phase_of_tearsDown (hchange : dag.Change signal after) (htears : dag.TearsDown after) :
    dag.phase = .inited ∨ dag.Live := by
  obtain ⟨hcause, hset | ⟨hlive, -⟩⟩ := htears
  · by_cases hidle : dag.phase = .inited ∨ dag.Live
    · exact hidle
    · exact absurd ((hchange.cause_of_idle hidle).trans hcause) hset
  · exact Or.inr hlive

/-! ### When they are told -/

section Lawful

variable (hvalid : dag.Valid) (hlawful : dag.Lawful (dag.handle signal))

include hvalid hlawful

/-- The step that tears a job down tells everyone to die who is not counted after it. -/
theorem newlyAsked_of_tearsDown (htears : dag.TearsDown (dag.handle signal).machine) :
    dag.newlyAsked (dag.handle signal).machine = (dag.handle signal).machine.uncounted := by
  have hchange := dag.change_handle signal
  have hcount := hlawful.follows.vertexCount
  have hphase := hchange.phase_of_tearsDown htears
  have hunasked : ∀ vertex, dag.asked vertex = false :=
    (hvalid.unhurt htears.1 (by rcases hphase with h | h | h <;> simp [h])).1
  have htorn : (dag.handle signal).machine.TornDown := by
    rcases htears.2 with hset | ⟨hlive, herror⟩
    · exact hlawful.valid.hurt hset
    · exact hchange.tornDown hlive herror
  rw [newlyAsked, uncounted, hcount]
  congr 1
  apply List.filter_congr
  intro index hindex
  rw [List.mem_range, ← hcount] at hindex
  rw [hunasked, Bool.not_false, Bool.and_true]
  cases hcounted : (dag.handle signal).machine.isCounted ⟨index⟩ with
  | false =>
      apply htorn ⟨index⟩ hindex
      rw [← Bool.not_eq_true, isCounted_iff, Classical.not_not] at hcounted
      exact hcounted
  | true =>
      rw [Bool.not_true, ← Bool.not_eq_true]
      intro hasked
      rcases hchange.asked_cases hasked with hbefore | hending
      · exact absurd ((hunasked _).symm.trans hbefore) (by decide)
      · exact isCounted_iff.mp hcounted hending

/-- Any other step tells nobody. -/
theorem newlyAsked_of_not_tearsDown (htears : ¬ dag.TearsDown (dag.handle signal).machine) :
    dag.newlyAsked (dag.handle signal).machine = [] := by
  have hchange := dag.change_handle signal
  rw [newlyAsked, List.map_eq_nil_iff, List.filter_eq_nil_iff]
  intro index hindex hnewly
  rw [List.mem_range] at hindex
  rw [Bool.and_eq_true, Bool.not_eq_true'] at hnewly
  obtain ⟨hasked, hunasked⟩ := hnewly
  have hending : dag.ending? ⟨index⟩ = none := by
    have hafter := (hchange.asked_cases hasked).resolve_left (by simp [hunasked])
    cases hbefore : dag.ending? ⟨index⟩ with
    | none => rfl
    | some phase =>
        rw [hlawful.follows.ending _ phase hbefore] at hafter
        cases hafter
  by_cases hcause : dag.cause = .none
  · have hstill : (dag.handle signal).machine.cause = .none :=
      Classical.not_not.mp (fun hset => htears ⟨hcause, Or.inl hset⟩)
    by_cases herror : (dag.handle signal).machine.phase = .error
    · have hidle : ¬ dag.Live := fun hlive => htears ⟨hcause, Or.inr ⟨hlive, herror⟩⟩
      rw [hchange.asked_of_idle hidle herror, hunasked] at hasked
      cases hasked
    · rw [(hlawful.valid.unhurt hstill herror).1] at hasked
      cases hasked
  · rw [hvalid.hurt hcause ⟨index⟩ hindex hending] at hunasked
    cases hunasked

end Lawful

end Step

end Dag

end JobFlow
