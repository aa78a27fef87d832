import JobFlow.Proofs.Vertex.Changes

/-!
What a vertex makes of each kind of signal: how far a command or a passed gate takes it, which signals
it rejects, what a report does to its slots, and that it never leaves the way of stopping.
-/

namespace JobFlow

namespace Vertex

theorem phase_violate (vertex : Vertex) (reason : VertexViolation) :
    (vertex.violate reason).machine.phase = .error := rfl

/-! ### How far a signal takes a vertex -/

theorem rank_of_isTerminal {vertex : Vertex} (hterminal : vertex.phase.isTerminal = true) (rank : Nat)
    (hrank : rank ≤ 4) : rank ≤ vertex.phase.rank := by
  rw [Phase.rank_eq_four.mpr hterminal]
  exact hrank

theorem rank_handleInit (vertex : Vertex) : 1 ≤ vertex.handleInit.machine.phase.rank := by
  rw [handleInit]
  split
  next => exact Nat.le_refl _
  next =>
    split
    next hterminal => exact rank_of_isTerminal hterminal 1 (by decide)
    next =>
      rw [phase_violate]
      decide

theorem told_handleStart (vertex : Vertex) : vertex.handleStart.machine.toldToStart = true ∨
    2 ≤ vertex.handleStart.machine.phase.rank := by
  rw [handleStart]
  split
  next =>
    left
    rcases startIfReady_cases { vertex with toldToStart := true } with ⟨hwait, -⟩ | ⟨-, -, hlaunch⟩
    · rw [hwait]
    · rw [hlaunch, machine_launch]
  next =>
    right
    split
    next hterminal => exact rank_of_isTerminal hterminal 2 (by decide)
    next =>
      rw [phase_violate]
      decide

theorem rank_handleKill (vertex : Vertex) : 3 ≤ vertex.handleKill.machine.phase.rank := by
  have hdying : 3 ≤ vertex.startDying.machine.phase.rank := by
    rw [startDying]
    by_cases hrunning : vertex.progress.running = 0
    · simp [note, hrunning, conclude, Phase.rank]
    · simp [note, hrunning, Phase.rank]
  rw [handleKill]
  cases hphase : vertex.phase with
  | new | inited | running => exact hdying
  | killWait | succeeded | failed | killed | error =>
      rw [Step.machine_rest, hphase]
      decide

/-- A source that passed the gate of a vertex is remembered until the vertex has started. -/
theorem ready_handleSource (vertex : Vertex) (source : VertexId) :
    source ∈ (vertex.handleSource source vertex.gating).machine.ready ∨
      2 ≤ (vertex.handleSource source vertex.gating).machine.phase.rank := by
  rw [handleSource]
  split
  next hterminal => exact Or.inr (rank_of_isTerminal hterminal 2 (by decide))
  next =>
    rw [sourcePassed]
    split
    next =>
      left
      have hmem : source ∈ vertex.ready.insert source := List.mem_insert_self
      rw [if_pos rfl]
      rcases startIfReady_cases { vertex with ready := vertex.ready.insert source } with
        ⟨hwait, -⟩ | ⟨-, -, hlaunch⟩
      · rw [hwait]
        exact hmem
      · rw [hlaunch, machine_launch]
        exact hmem
    next =>
      right
      rw [phase_violate]
      decide

theorem handle_signal (vertex : Vertex) (gate : Gating) (source : VertexId) :
    vertex.handle (gate.signal source) = vertex.handleSource source gate := by
  cases gate <;> rfl

theorem startIfReady_of_untold {vertex : Vertex} (huntold : vertex.toldToStart = false) :
    vertex.startIfReady = .rest vertex := by
  rw [startIfReady, if_neg]
  rintro ⟨-, htold, -⟩
  cases huntold.symm.trans htold

/-- A vertex that was not told to start makes no more of a source than to remember it. -/
theorem handleSource_of_untold {vertex : Vertex} (huntold : vertex.toldToStart = false)
    {source : VertexId} (hsource : source ∈ vertex.sources) (gate : Gating) :
    (vertex.handleSource source gate).machine.phase = vertex.phase ∧
      (vertex.handleSource source gate).machine.toldToStart = false := by
  have hstay : ∀ ready, (startIfReady { vertex with ready := ready }).machine.phase = vertex.phase ∧
      (startIfReady { vertex with ready := ready }).machine.toldToStart = false := by
    intro ready
    have hwait : startIfReady { vertex with ready := ready } = .rest { vertex with ready := ready } :=
      startIfReady_of_untold huntold
    rw [hwait]
    exact ⟨rfl, huntold⟩
  rw [handleSource]
  split
  next => exact ⟨rfl, huntold⟩
  next =>
    rw [sourcePassed, if_pos hsource]
    split
    · exact hstay _
    · exact hstay vertex.ready

/-! ### What holds of every change -/

theorem phaseAfter_ne_error (vertex : Vertex) (herror : vertex.phase ≠ .error)
    (outcome : TaskOutcome) : vertex.phaseAfter outcome ≠ .error := by
  rw [phaseAfter.eq_def]
  cases hphase : vertex.phase with
  | running =>
      cases outcome with
      | succeeded =>
          dsimp only
          split
          · decide
          · split <;> decide
      | failed => simp
      | killed =>
          dsimp only
          split <;> decide
  | killWait =>
      dsimp only
      split <;> decide
  | error => exact absurd hphase herror
  | new | inited | succeeded | failed | killed => simp

theorem isStopping_phaseAfter (vertex : Vertex) (hstopping : vertex.phase.isStopping = true)
    (outcome : TaskOutcome) : (vertex.phaseAfter outcome).isStopping = true := by
  rw [phaseAfter.eq_def]
  cases hphase : vertex.phase with
  | killWait =>
      dsimp only
      split <;> rfl
  | failed | killed | error => rfl
  | new | inited | running | succeeded =>
      rw [hphase] at hstopping
      cases hstopping

section Change

variable {vertex after : Vertex} {signal : VertexSignal} (hchange : vertex.Change signal after)

include hchange

/-- Only a signal that a vertex rejects moves it to `error`. -/
theorem Change.phase_ne_error (herror : vertex.phase ≠ .error) (hexpects : vertex.Expects signal) :
    after.phase ≠ .error := by
  cases hchange with
  | kept => exact herror
  | inited => simp
  | noted => exact herror
  | launched =>
      rw [machine_launch]
      dsimp only
      split <;> decide
  | stopped _ phase hphase =>
      rcases hphase with rfl | rfl
      · simp
      · simp
  | rejected hunexpected => exact absurd hexpects hunexpected
  | filed task outcome => exact (vertex.file task outcome).phaseAfter_ne_error herror outcome

/-- Nothing but a report of one of its tasks changes the slots of a vertex. -/
theorem Change.slots : after.slots = vertex.slots ∨
    ∃ task outcome, signal = .taskCompleted task outcome ∧ vertex.Owns task ∧
      vertex.slots[task.index]? = some none ∧
      after.slots = vertex.slots.set task.index (some outcome) := by
  cases hchange with
  | kept | inited | noted | stopped | rejected => exact Or.inl rfl
  | launched =>
      rw [machine_launch]
      exact Or.inl rfl
  | filed task outcome hsignal howns _ hslot =>
      exact Or.inr ⟨task, outcome, hsignal, howns, hslot, rfl⟩

/-- A report of a task of a launched vertex leaves no empty slot for that task. -/
theorem Change.slot_ne_none {task : TaskId} {outcome : TaskOutcome}
    (hsignal : signal = .taskCompleted task outcome) (herror : vertex.phase ≠ .error)
    (howns : vertex.Owns task) (hlaunched : vertex.launched = true) :
    after.slots[task.index]? ≠ some none := by
  subst hsignal
  cases hchange with
  | kept hfirst =>
      obtain ⟨first, hslot⟩ := hfirst task outcome rfl herror howns hlaunched
      rw [hslot]
      simp
  | inited hsignal => cases hsignal
  | noted hsignal => exact absurd rfl (hsignal task outcome)
  | launched hsignal => exact absurd rfl (hsignal task outcome)
  | stopped hsignal => cases hsignal
  | rejected hunexpected => exact absurd ⟨howns, hlaunched⟩ hunexpected
  | filed other result hsignal =>
      cases hsignal
      rw [show (vertex.file task outcome).slots = vertex.slots.set task.index (some outcome) from rfl,
        List.getElem?_set_self howns.2]
      simp

/-- A vertex that is being stopped never goes back to work. -/
theorem Change.isStopping (hstopping : vertex.phase.isStopping = true) :
    after.phase.isStopping = true := by
  cases hchange with
  | kept => exact hstopping
  | inited _ hnew =>
      rw [hnew] at hstopping
      cases hstopping
  | noted => exact hstopping
  | launched _ hinited =>
      rw [hinited] at hstopping
      cases hstopping
  | stopped _ phase hphase =>
      rcases hphase with rfl | rfl
      · rfl
      · rfl
  | rejected => rfl
  | filed task outcome => exact (vertex.file task outcome).isStopping_phaseAfter hstopping outcome

end Change

/-- A vertex that is not being stopped and has only successes on file. -/
structure Hale (vertex : Vertex) : Prop where
  going : vertex.phase.isStopping = false
  slots : ∀ slot ∈ vertex.slots, slot = none ∨ slot = some .succeeded

/-- With nothing but successes on file and no report missing, every task succeeded. -/
theorem Tallied.succeeded_eq_total {vertex : Vertex} (htallied : vertex.Tallied)
    (hlaunched : vertex.launched = true) (hrunning : vertex.progress.running = 0)
    (hslots : ∀ slot ∈ vertex.slots, slot = none ∨ slot = some .succeeded) :
    vertex.progress.succeeded = vertex.progress.total := by
  have hcount := htallied.running
  rw [hlaunched, if_pos rfl, hrunning] at hcount
  rw [htallied.succeeded, htallied.total, List.count_eq_length]
  intro slot hslot
  rcases hslots slot hslot with rfl | rfl
  · exact absurd hslot (List.count_eq_zero.mp hcount.symm)
  · rfl

/-- A success on file does not take a hale vertex out of its way. -/
theorem Hale.file {vertex : Vertex} (hhale : vertex.Hale) (hvalid : vertex.Valid) {task : TaskId}
    (hlaunched : vertex.launched = true) (hslot : vertex.slots[task.index]? = some none)
    (diagnostics : List VertexDiagnostic) : Hale { vertex.file task .succeeded with
      phase := (vertex.file task .succeeded).phaseAfter .succeeded
      diagnostics := diagnostics } := by
  have hgoing := hhale.going
  have hslots : ∀ slot ∈ (vertex.file task .succeeded).slots,
      slot = none ∨ slot = some .succeeded := by
    intro slot hmem
    rcases List.mem_or_eq_of_mem_set hmem with hold | hnew
    · exact hhale.slots slot hold
    · exact Or.inr hnew
  refine ⟨?_, hslots⟩
  dsimp only
  rw [phaseAfter.eq_def, phase_file]
  cases hphase : vertex.phase with
  | new | inited => rfl
  | running =>
      have htallied := hvalid.toTallied.file .succeeded hlaunched hslot
      dsimp only
      split
      next => rfl
      next hmissing =>
        rw [if_neg]
        · rfl
        · intro hrunning
          exact hmissing (htallied.succeeded_eq_total hlaunched hrunning hslots)
  | succeeded => rfl
  | killWait | failed | killed | error =>
      rw [hphase] at hgoing
      cases hgoing

/-- A vertex stays hale as long as it is sent what it expects, no kill and only successes. -/
theorem Hale.change {vertex after : Vertex} {signal : VertexSignal} (hhale : vertex.Hale)
    (hchange : vertex.Change signal after) (hvalid : vertex.Valid) (hexpects : vertex.Expects signal)
    (hkill : signal ≠ .kill)
    (hsuccess : ∀ task outcome, signal = .taskCompleted task outcome → outcome = .succeeded) :
    after.Hale := by
  cases hchange with
  | kept => exact hhale
  | inited => exact ⟨rfl, hhale.slots⟩
  | noted => exact ⟨hhale.going, hhale.slots⟩
  | launched =>
      rw [machine_launch]
      refine ⟨?_, hhale.slots⟩
      dsimp only
      split <;> rfl
  | stopped hsignal => exact absurd hsignal hkill
  | rejected hunexpected => exact absurd hexpects hunexpected
  | filed task outcome hsignal _ hlaunched hslot diagnostics =>
      cases hsuccess task outcome hsignal
      exact hhale.file hvalid hlaunched hslot diagnostics

end Vertex

end JobFlow
