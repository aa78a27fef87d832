import JobFlow.Proofs.Dag.Changes

/-!
What a job makes of each signal: commands count no ending and the news of an ending counts at most that
ending, which signals a job rejects, and which phases and causes it can come to.
-/

namespace JobFlow.Dag

/-! ### Endings -/

theorem ending?_windUp (dag : Dag) (fresh : Bool) (vertex : VertexId) :
    (dag.windUp fresh).machine.ending? vertex = dag.ending? vertex := by
  rw [← ending?_tellToDie dag (Consequence.of dag.tallies dag.cause fresh).toKill vertex]
  rw [windUp]
  dsimp only [Step.machine_andThen]
  split <;> rfl

theorem ending?_endInError (dag : Dag) (vertex : VertexId) :
    dag.endInError.machine.ending? vertex = dag.ending? vertex := by
  rw [endInError, Step.machine_andThen]
  split
  · exact ending?_tellToDie dag _ vertex
  · rfl

theorem phase_violate (dag : Dag) (reason : DagViolation) :
    (dag.violate reason).machine.phase = .error := rfl

theorem ending?_violate (dag : Dag) (reason : DagViolation) (vertex : VertexId) :
    (dag.violate reason).machine.ending? vertex = dag.ending? vertex :=
  ending?_endInError (dag.note (.violation reason)) vertex

theorem ending?_killByUser (dag : Dag) (vertex : VertexId) :
    dag.killByUser.machine.ending? vertex = dag.ending? vertex := by
  rw [killByUser]
  dsimp only
  rw [ending?_windUp]
  split <;> rfl

theorem ending?_account (dag : Dag) (vertex : VertexId) (tally : Tally) (phase : Phase)
    (other : VertexId) : (dag.account vertex tally phase).machine.ending? other =
      (dag.enter vertex tally phase).ending? other := by
  unfold account
  cases phase with
  | succeeded => exact ending?_windUp _ _ other
  | failed => exact ending?_windUp _ _ other
  | killed =>
      dsimp only
      split <;> exact ending?_windUp _ _ other
  | error | new | inited | running | killWait => exact ending?_endInError _ other

section Change

variable {dag after : Dag} {signal : DagSignal} (hchange : dag.Change signal after)

include hchange

/-- Commands count no ending. -/
theorem Change.ending?_of_command (hcommand : ∀ vertex phase, signal ≠ .vertexCompleted vertex phase)
    (vertex : VertexId) : after.ending? vertex = dag.ending? vertex := by
  cases hchange with
  | kept | begun => rfl
  | killed => exact ending?_killByUser dag vertex
  | counted place phase hsignal => exact absurd hsignal (hcommand place phase)
  | rejected _ reason => exact ending?_violate dag reason vertex

/-- The news of an ending counts that ending or nothing. -/
theorem Change.ending?_cases {vertex : VertexId} {phase : Phase}
    (hsignal : signal = .vertexCompleted vertex phase) :
    (∀ other, after.ending? other = dag.ending? other) ∨
    (dag.ending? vertex = none ∧ ∀ other,
      after.ending? other = if other = vertex then some phase else dag.ending? other) := by
  subst hsignal
  cases hchange with
  | kept => exact Or.inl (fun _ => rfl)
  | begun _ _ hcommand => exact absurd rfl (hcommand vertex phase)
  | killed hsignal => cases hsignal
  | counted place ending hsignal _ _ tally htally hnone =>
      cases hsignal
      refine Or.inr ⟨ending?_eq_none_of_tally htally hnone, fun other => ?_⟩
      rw [ending?_account, ending?_enter htally]
  | rejected _ reason => exact Or.inl (ending?_violate dag reason)

/-- The news of an ending is counted unless it came before, or the job ends in error. -/
theorem Change.ending?_self {vertex : VertexId} {phase : Phase}
    (hsignal : signal = .vertexCompleted vertex phase) (hending : dag.ending? vertex = none)
    (herror : after.phase ≠ .error) : after.ending? vertex = some phase := by
  subst hsignal
  cases hchange with
  | kept hidle =>
      rcases hidle with herred | hkill | ⟨place, ending, hsignal, hcounted⟩
      · exact absurd herred herror
      · cases hkill
      · cases hsignal
        exact absurd hending hcounted
  | begun _ _ hcommand => exact absurd rfl (hcommand vertex phase)
  | killed hsignal => cases hsignal
  | counted place ending hsignal _ _ tally htally =>
      cases hsignal
      rw [ending?_account, ending?_enter htally, if_pos rfl]
  | rejected _ reason => exact absurd (phase_violate dag reason) herror

end Change

/-! ### Phases and causes -/

theorem phase_windUp (dag : Dag) (fresh : Bool) : (dag.windUp fresh).machine.phase = dag.phase ∨
    (dag.windUp fresh).machine.phase = dag.cause.finalPhase := by
  rw [windUp, Consequence.of, Step.machine_andThen]
  dsimp only
  cases Tally.allCounted dag.tallies with
  | true => exact Or.inr rfl
  | false => exact Or.inl rfl

theorem phase_windUp_ne_error {dag : Dag} (herror : dag.phase ≠ .error) (fresh : Bool) :
    (dag.windUp fresh).machine.phase ≠ .error := by
  rcases phase_windUp dag fresh with h | h
  · rwa [h]
  · rw [h]
    cases dag.cause <;> decide

theorem phase_account_ne_error (dag : Dag) (herror : dag.phase ≠ .error) (vertex : VertexId)
    (tally : Tally) {phase : Phase} (hterminal : phase.isTerminal = true) (hphase : phase ≠ .error) :
    (dag.account vertex tally phase).machine.phase ≠ .error := by
  unfold account
  cases phase with
  | succeeded | failed =>
      refine phase_windUp_ne_error ?_ _
      exact herror
  | killed =>
      dsimp only
      split
      all_goals
        refine phase_windUp_ne_error ?_ _
        exact herror
  | error => exact absurd rfl hphase
  | new | inited | running | killWait => cases hterminal

theorem cause_windUp (dag : Dag) (fresh : Bool) : (dag.windUp fresh).machine.cause = dag.cause := by
  rw [windUp, Step.machine_andThen]
  split <;> rfl

theorem cause_endInError (dag : Dag) : dag.endInError.machine.cause = dag.cause := by
  rw [endInError, Step.machine_andThen]
  split <;> rfl

theorem cause_violate (dag : Dag) (reason : DagViolation) :
    (dag.violate reason).machine.cause = dag.cause := cause_endInError _

theorem orElse_vertexFailure (cause : Cause) :
    cause.orElse .vertexFailure = cause ∨ cause.orElse .vertexFailure = .vertexFailure := by
  cases cause <;> simp [Cause.orElse, Cause.isSet]

theorem cause_account (dag : Dag) (vertex : VertexId) (tally : Tally) (phase : Phase) :
    (dag.account vertex tally phase).machine.cause = dag.cause ∨
      (phase ≠ .succeeded ∧ (dag.account vertex tally phase).machine.cause = .vertexFailure) := by
  unfold account
  cases phase with
  | succeeded =>
      dsimp only
      rw [cause_windUp]
      exact Or.inl rfl
  | failed =>
      dsimp only
      rw [cause_windUp]
      exact (orElse_vertexFailure dag.cause).imp_right (fun h => ⟨by decide, h⟩)
  | killed =>
      dsimp only
      split
      · rw [cause_windUp]
        exact Or.inl rfl
      · rw [cause_windUp]
        exact (orElse_vertexFailure dag.cause).imp_right (fun h => ⟨by decide, h⟩)
  | error | new | inited | running | killWait =>
      dsimp only
      rw [Step.machine_andThen, cause_endInError]
      exact Or.inl rfl

section Change

variable {dag after : Dag} {signal : DagSignal} (hchange : dag.Change signal after)

include hchange

/-- Only a signal that a job rejects moves it to `error`. -/
theorem Change.phase_ne_error (herror : dag.phase ≠ .error) (hexpects : dag.Expects signal) :
    after.phase ≠ .error := by
  cases hchange with
  | kept => exact herror
  | begun phase hphase =>
      rcases hphase with ⟨-, rfl⟩ | ⟨-, rfl⟩
      · simp
      · simp
  | killed => exact phase_windUp_ne_error (by simp) _
  | counted vertex phase hsignal _ hterminal tally =>
      subst hsignal
      exact dag.phase_account_ne_error herror vertex tally hterminal hexpects.2.2.1
  | rejected hunexpected => exact absurd hexpects hunexpected

/-- A job that is over stays as it ended or errs. -/
theorem Change.phase_of_isTerminal (hterminal : dag.phase.isTerminal = true) :
    after.phase = dag.phase ∨ after.phase = .error := by
  cases hchange with
  | kept => exact Or.inl rfl
  | begun phase hphase =>
      rcases hphase with ⟨h, -⟩ | ⟨h, -⟩ <;> simp [h, Phase.isTerminal] at hterminal
  | killed _ hphase => rcases hphase with h | h <;> simp [h, Phase.isTerminal] at hterminal
  | counted _ _ _ hlive => rcases hlive with h | h <;> simp [h, Phase.isTerminal] at hterminal
  | rejected _ reason => exact Or.inr (phase_violate dag reason)

theorem Change.isTerminal (hterminal : dag.phase.isTerminal = true) : after.phase.isTerminal = true := by
  rcases hchange.phase_of_isTerminal hterminal with h | h
  · rwa [h]
  · rw [h]
    rfl

/-- Without a kill, only the end of a vertex that did not succeed gives a job a cause. -/
theorem Change.cause_cases (hkill : signal ≠ .kill) : after.cause = dag.cause ∨
    (after.cause = .vertexFailure ∧
      ∃ vertex phase, signal = .vertexCompleted vertex phase ∧ phase ≠ .succeeded) := by
  cases hchange with
  | kept | begun => exact Or.inl rfl
  | killed hsignal => exact absurd hsignal hkill
  | counted vertex phase hsignal _ _ tally =>
      refine (cause_account dag vertex tally phase).imp_right ?_
      exact fun ⟨hphase, hcause⟩ => ⟨hcause, vertex, phase, hsignal, hphase⟩
  | rejected _ reason => exact Or.inl (cause_violate dag reason)

end Change

end JobFlow.Dag
