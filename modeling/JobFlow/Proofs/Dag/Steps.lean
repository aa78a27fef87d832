import JobFlow.Proofs.Dag.Bookkeeping

/-!
What a step of a job can do. A job keeps every ending that it has counted and every order to die that
it has given, and what it sends is read off the change that it made: the commands for all vertices, the
orders to die and the news for the owner. A step that is lawful in this sense also keeps the books valid;
shown here for winding up, for ending in error and for a kill by the user.
-/

namespace JobFlow.Dag

/-- The vertices that were told to die between two states of a job. -/
def newlyAsked (before after : Dag) : List VertexId :=
  ((List.range before.vertexCount).filter (fun index =>
    after.asked ⟨index⟩ && !before.asked ⟨index⟩)).map (⟨·⟩)

/-- What a job sends when it changes. -/
def announcements (before after : Dag) : List Event :=
  (if before.phase = .new ∧ after.phase = .inited then before.broadcast .init else []) ++
  (if before.phase = .inited ∧ after.phase = .running then before.broadcast .start else []) ++
  (before.newlyAsked after).map (.vertex · .kill) ++
  (if before.ownerTold = false ∧ after.ownerTold = true then [.finished after.id after.phase] else [])

/-- What never changes about a job, and what only grows. -/
structure Follows (before after : Dag) : Prop where
  id : after.id = before.id
  vertexCount : after.vertexCount = before.vertexCount
  ending : ∀ vertex phase, before.ending? vertex = some phase → after.ending? vertex = some phase
  asked : ∀ vertex, before.asked vertex = true → after.asked vertex = true
  erred : before.phase = .error → after.phase = .error
  new : after.phase = .new → before.phase = .new
  inited : after.phase = .inited → before.phase = .new ∨ before.phase = .inited
  running : after.phase = .running → before.phase = .inited ∨ before.phase = .running
  started : before.phase = .new → after.phase = .new ∨ after.phase = .inited ∨ after.phase = .error

/-- A step that keeps the books and sends what its change asks for. -/
structure Lawful (before : Dag) (step : Step Dag) : Prop where
  valid : step.machine.Valid
  follows : before.Follows step.machine
  outbound : step.outbound = announcements before step.machine
  notices : ∀ notice ∈ step.notices, notice.isViolation = true → step.machine.phase = .error

theorem broadcast_eq {before after : Dag} (h : after.vertexCount = before.vertexCount)
    (signal : VertexSignal) : after.broadcast signal = before.broadcast signal := by
  unfold broadcast
  rw [h]

/-- What is entered into the books before a step is part of the step. -/
theorem Lawful.of_follows {before middle : Dag} {step : Step Dag} (h : Lawful middle step)
    (hfollows : before.Follows middle) (hasked : ∀ vertex, middle.asked vertex = before.asked vertex)
    (hownerTold : middle.ownerTold = before.ownerTold) (hnew : before.phase ≠ .new)
    (hphase : middle.phase = before.phase ∨ middle.phase = .killWait) : Lawful before step where
  valid := h.valid
  follows := {
    id := h.follows.id.trans hfollows.id
    vertexCount := h.follows.vertexCount.trans hfollows.vertexCount
    ending := fun vertex phase hending =>
      h.follows.ending vertex phase (hfollows.ending vertex phase hending)
    asked := fun vertex hbefore => h.follows.asked vertex (hfollows.asked vertex hbefore)
    erred := fun hbefore => h.follows.erred (hfollows.erred hbefore)
    new := fun hafter => hfollows.new (h.follows.new hafter)
    inited := by
      intro hafter
      rcases h.follows.inited hafter with hmiddle | hmiddle
      · exact Or.inl (hfollows.new hmiddle)
      · exact hfollows.inited hmiddle
    running := by
      intro hafter
      rcases h.follows.running hafter with hmiddle | hmiddle
      · exact Or.inl ((hfollows.inited hmiddle).resolve_left hnew)
      · exact hfollows.running hmiddle
    started := fun hbefore => absurd hbefore hnew }
  outbound := by
    have hnewly : middle.newlyAsked step.machine = before.newlyAsked step.machine := by
      unfold newlyAsked
      rw [hfollows.vertexCount]
      simp only [hasked]
    have hmiddleNew : middle.phase ≠ .new := fun heq => hnew (hfollows.new heq)
    have hstart : (middle.phase = .inited ∧ step.machine.phase = .running) ↔
        (before.phase = .inited ∧ step.machine.phase = .running) := by
      rcases hphase with heq | hkillWait
      · rw [heq]
      · have hrunning : step.machine.phase ≠ .running := by
          intro heq
          rcases h.follows.running heq with hmiddle | hmiddle <;> rw [hkillWait] at hmiddle <;>
            cases hmiddle
        simp [hrunning]
    rw [h.outbound]
    unfold announcements
    rw [hnewly, hownerTold, broadcast_eq hfollows.vertexCount, broadcast_eq hfollows.vertexCount]
    simp only [hmiddleNew, hnew, false_and, hstart]
  notices := h.notices

/-- Nobody is told to die, or everybody who can be. -/
theorem newlyAsked_tellToDie {dag after : Dag} {targets : List VertexId}
    (htargets : targets = Tally.killable dag.tallies ∨ targets = [])
    (hasked : ∀ vertex, after.asked vertex = (dag.tellToDie targets).machine.asked vertex) :
    dag.newlyAsked after = targets := by
  rw [newlyAsked]
  simp only [hasked, asked_tellToDie]
  rcases htargets with rfl | rfl
  · have hfilter : ∀ index ∈ List.range dag.vertexCount,
        ((dag.asked ⟨index⟩ || decide ((⟨index⟩ : VertexId) ∈ Tally.killable dag.tallies ∧
          index < dag.vertexCount)) && !dag.asked ⟨index⟩) =
        (dag.tallies[index]?).any (fun tally => !tally.isCounted && !tally.killRequested) := by
      intro index hindex
      have hlt : index < dag.tallies.length := List.mem_range.mp hindex
      simp only [mem_killable]
      rw [asked, ending?, tally?, vertexCount]
      simp only [List.getElem?_eq_getElem hlt, hlt]
      cases hcompleted : dag.tallies[index].completed <;>
        cases hrequested : dag.tallies[index].killRequested <;>
        simp [Tally.isCounted, hcompleted, hrequested]
    rw [List.filter_congr hfilter]
    rfl
  · simp

/-- A step that only changes what is remembered of the phase, the cause and the troubles. -/
theorem Follows.of_books {before after : Dag} (hid : after.id = before.id)
    (htallies : after.tallies = before.tallies) (herred : before.phase = .error → after.phase = .error)
    (hphase : after.phase = before.phase ∨ 3 ≤ after.phase.rank ∧ before.phase ≠ .new ∨
      after.phase = .error) : before.Follows after := by
  have hending : ∀ vertex, after.ending? vertex = before.ending? vertex := by
    intro vertex
    unfold ending? tally?
    rw [htallies]
  have hasked : ∀ vertex, after.asked vertex = before.asked vertex := by
    intro vertex
    unfold Dag.asked tally?
    rw [htallies]
  refine ⟨hid, ?_, ?_, ?_, herred, ?_, ?_, ?_, ?_⟩
  · unfold Dag.vertexCount
    rw [htallies]
  · intro vertex phase h
    rw [hending, h]
  · intro vertex h
    rw [hasked, h]
  all_goals
    intro h
    rcases hphase with heq | ⟨hrank, hnew⟩ | heq <;> simp_all [Phase.rank]

theorem follows_tellToDie (dag : Dag) (targets : List VertexId) :
    dag.Follows (dag.tellToDie targets).machine where
  id := rfl
  vertexCount := dag.vertexCount_tellToDie targets
  ending vertex phase h := by rw [ending?_tellToDie, h]
  asked vertex h := by rw [asked_tellToDie, h, Bool.true_or]
  erred h := h
  new h := h
  inited h := Or.inr h
  running h := Or.inr h
  started h := Or.inl h

theorem Counted.tellToDie {dag : Dag} (hcounted : dag.Counted) (targets : List VertexId) :
    (dag.tellToDie targets).machine.Counted where
  nonempty := by
    intro hnil
    have hlength := congrArg List.length hnil
    rw [Dag.tellToDie, List.length_mapIdx] at hlength
    exact hcounted.nonempty (List.length_eq_zero_iff.mp hlength)
  succeeded := by rw [endings_tellToDie]; exact hcounted.succeeded
  failed := by rw [endings_tellToDie]; exact hcounted.failed
  killed := by rw [endings_tellToDie]; exact hcounted.killed
  terminal := by rw [endings_tellToDie]; exact hcounted.terminal

theorem Counted.of_eq {dag other : Dag} (hcounted : dag.Counted) (htallies : other.tallies = dag.tallies)
    (hsucceeded : other.succeeded = dag.succeeded) (hfailed : other.failed = dag.failed)
    (hkilled : other.killed = dag.killed) : other.Counted := by
  have hendings : other.endings = dag.endings := by
    unfold endings
    rw [htallies]
  refine ⟨?_, ?_, ?_, ?_, ?_⟩
  · rw [htallies]
    exact hcounted.nonempty
  · rw [hsucceeded, hendings, hcounted.succeeded]
  · rw [hfailed, hendings, hcounted.failed]
  · rw [hkilled, hendings, hcounted.killed]
  · rw [hendings]
    exact hcounted.terminal

/-- The order to die reaches everyone who is not counted. -/
theorem asked_tellToDie_killable {dag : Dag} {vertex : VertexId} (hindex : vertex.index < dag.vertexCount)
    (hending : dag.ending? vertex = none) :
    (dag.tellToDie (Tally.killable dag.tallies)).machine.asked vertex = true := by
  rw [asked_tellToDie]
  cases hasked : dag.asked vertex with
  | true => rfl
  | false =>
      have hmem := mem_killable.mpr ⟨hindex, hending, hasked⟩
      simp [hmem, hindex]

/-! ### Ending -/

section Ending

variable {dag : Dag} {targets : List VertexId} {phase : Phase} (hterminal : phase.isTerminal = true)

include hterminal

/-- A job may end while it lives, and in error at any time. -/
theorem follows_conclude (herred : dag.phase = .error → phase = .error)
    (hstarted : dag.phase = .new → phase = .error) :
    dag.Follows ((dag.tellToDie targets).andThen (conclude · phase)).machine where
  id := rfl
  vertexCount := dag.vertexCount_tellToDie targets
  ending := (dag.follows_tellToDie targets).ending
  asked := (dag.follows_tellToDie targets).asked
  erred := herred
  new := by
    rintro rfl
    cases hterminal
  inited := by
    rintro rfl
    cases hterminal
  running := by
    rintro rfl
    cases hterminal
  started hnew := Or.inr (Or.inr (hstarted hnew))

theorem outbound_conclude (htargets : targets = Tally.killable dag.tallies ∨ targets = []) :
    ((dag.tellToDie targets).andThen (conclude · phase)).outbound =
      announcements dag ((dag.tellToDie targets).andThen (conclude · phase)).machine := by
  have hnewly : dag.newlyAsked ((dag.tellToDie targets).andThen (conclude · phase)).machine = targets :=
    newlyAsked_tellToDie htargets (fun _ => rfl)
  have hinited : phase ≠ .inited := by
    rintro rfl
    cases hterminal
  have hrunning : phase ≠ .running := by
    rintro rfl
    cases hterminal
  rw [announcements, hnewly]
  cases htold : dag.ownerTold <;> simp [conclude, tellToDie, htold, hinited, hrunning]

end Ending

/-! ### Winding up -/

/-- The books of a live job that has still to act on its last entry, which gave it its cause if that is
fresh. -/
structure Due (dag : Dag) (fresh : Bool) : Prop extends Counted dag where
  live : dag.phase = .running ∨ dag.phase = .killWait
  running : dag.phase = .running → dag.cause ≠ .userKill
  killWait : dag.phase = .killWait → dag.cause ≠ .none
  unhurt : dag.cause = .none → (∀ vertex, dag.asked vertex = false) ∧
    (∀ ending ∈ dag.endings, ending = none ∨ ending = some .succeeded) ∧ dag.diagnostics = []
  hurt : fresh = false → dag.cause ≠ .none → ∀ vertex : VertexId, vertex.index < dag.vertexCount →
    dag.ending? vertex = none → dag.asked vertex = true
  unerred : some .error ∉ dag.endings
  untold : dag.ownerTold = false

/-- The vertices that a job tells to die when it winds up. -/
def dueTargets (dag : Dag) (fresh : Bool) : List VertexId :=
  if fresh && dag.cause.isSet then Tally.killable dag.tallies else []

theorem dueTargets_cases (dag : Dag) (fresh : Bool) :
    dag.dueTargets fresh = Tally.killable dag.tallies ∨ dag.dueTargets fresh = [] := by
  rw [dueTargets]
  split
  · exact Or.inl rfl
  · exact Or.inr rfl

theorem windUp_of_all {dag : Dag} (fresh : Bool) (hall : none ∉ dag.endings) :
    dag.windUp fresh =
      (dag.tellToDie (dag.dueTargets fresh)).andThen (conclude · dag.cause.finalPhase) := by
  rw [windUp, Consequence.of, (allCounted_iff dag).mpr hall]
  rfl

theorem windUp_of_missing {dag : Dag} (fresh : Bool) (hmissing : none ∈ dag.endings) :
    dag.windUp fresh = dag.tellToDie (dag.dueTargets fresh) := by
  have hnot : Tally.allCounted dag.tallies = false := by
    rw [← Bool.not_eq_true, allCounted_iff]
    exact not_not_intro hmissing
  rw [windUp, Consequence.of, hnot]
  simp [Step.andThen, Step.rest, tellToDie, dueTargets]

namespace Due

variable {dag : Dag} {fresh : Bool} (hdue : dag.Due fresh)

include hdue

theorem begun : dag.phase ≠ .new ∧ dag.phase ≠ .inited ∧ dag.phase ≠ .error := by
  rcases hdue.live with h | h <;> simp [h]

theorem unhurt_tellToDie (hcause : dag.cause = .none) :
    (∀ vertex, (dag.tellToDie (dag.dueTargets fresh)).machine.asked vertex = false) ∧
      (∀ ending ∈ (dag.tellToDie (dag.dueTargets fresh)).machine.endings,
        ending = none ∨ ending = some .succeeded) ∧ dag.diagnostics = [] := by
  obtain ⟨hasked, hbooks, hclean⟩ := hdue.unhurt hcause
  have htargets : dag.dueTargets fresh = [] := by
    rw [dueTargets, hcause]
    simp [Cause.isSet]
  refine ⟨fun vertex => ?_, ?_, hclean⟩
  · rw [htargets, asked_tellToDie, hasked]
    simp
  · rwa [endings_tellToDie]

theorem hurt_tellToDie (hcause : dag.cause ≠ .none) {vertex : VertexId}
    (hindex : vertex.index < (dag.tellToDie (dag.dueTargets fresh)).machine.vertexCount)
    (hending : (dag.tellToDie (dag.dueTargets fresh)).machine.ending? vertex = none) :
    (dag.tellToDie (dag.dueTargets fresh)).machine.asked vertex = true := by
  rw [vertexCount_tellToDie] at hindex
  rw [ending?_tellToDie] at hending
  cases fresh with
  | true =>
      have htargets : dag.dueTargets true = Tally.killable dag.tallies := by
        rw [dueTargets, Cause.isSet_iff.mpr hcause]
        rfl
      rw [htargets]
      exact asked_tellToDie_killable hindex hending
  | false => rw [asked_tellToDie, hdue.hurt rfl hcause vertex hindex hending, Bool.true_or]

theorem unerred_tellToDie :
    some .error ∉ (dag.tellToDie (dag.dueTargets fresh)).machine.endings := by
  rw [endings_tellToDie]
  exact hdue.unerred

theorem valid_of_missing (hmissing : none ∈ dag.endings) :
    (dag.tellToDie (dag.dueTargets fresh)).machine.Valid where
  toCounted := hdue.toCounted.tellToDie _
  fresh h := by rcases h with h | h <;> simp [tellToDie, hdue.begun] at h
  alive _ := by rwa [endings_tellToDie]
  running := hdue.running
  killWait := hdue.killWait
  ended h := by rcases hdue.live with hlive | hlive <;> simp [tellToDie, hlive] at h
  unhurt hcause _ := hdue.unhurt_tellToDie hcause
  hurt hcause _ := hdue.hurt_tellToDie hcause
  unerred _ := hdue.unerred_tellToDie
  ownerTold := by
    rcases hdue.live with hlive | hlive <;> simp [tellToDie, hdue.untold, hlive, Phase.isTerminal]

theorem valid_of_all (hall : none ∉ dag.endings) :
    ((dag.tellToDie (dag.dueTargets fresh)).andThen
      (conclude · dag.cause.finalPhase)).machine.Valid := by
  have hfinal : dag.cause.finalPhase ≠ .new ∧ dag.cause.finalPhase ≠ .inited ∧
      dag.cause.finalPhase ≠ .running ∧ dag.cause.finalPhase ≠ .killWait := by
    cases dag.cause <;> simp [Cause.finalPhase]
  exact {
    toCounted := (hdue.toCounted.tellToDie _).of_eq rfl rfl rfl rfl
    fresh := by simp [conclude, hfinal]
    alive := by simp [conclude, hfinal]
    running := by simp [conclude, hfinal]
    killWait := by simp [conclude, hfinal]
    ended := by
      rw [← dag.endings_tellToDie (dag.dueTargets fresh)] at hall
      exact fun _ => ⟨hall, rfl⟩
    unhurt := fun hcause _ => hdue.unhurt_tellToDie hcause
    hurt := fun hcause _ => hdue.hurt_tellToDie hcause
    unerred := fun _ => hdue.unerred_tellToDie
    ownerTold := dag.cause.isTerminal_finalPhase.symm }

end Due

theorem lawful_windUp {dag : Dag} {fresh : Bool} (hdue : dag.Due fresh) :
    Lawful dag (dag.windUp fresh) := by
  obtain ⟨hnew, hinited, herror⟩ := hdue.begun
  by_cases hall : none ∉ dag.endings
  · have hterminal := dag.cause.isTerminal_finalPhase
    rw [windUp_of_all fresh hall]
    refine ⟨hdue.valid_of_all hall, ?_, ?_, ?_⟩
    · exact follows_conclude hterminal (fun h => absurd h herror) (fun h => absurd h hnew)
    · exact outbound_conclude hterminal (dag.dueTargets_cases fresh)
    · intro notice hnotice
      cases hnotice
  · have hmissing := Decidable.of_not_not hall
    rw [windUp_of_missing fresh hmissing]
    refine ⟨hdue.valid_of_missing hmissing, dag.follows_tellToDie _, ?_, ?_⟩
    · rw [announcements, newlyAsked_tellToDie (dag.dueTargets_cases fresh) (fun _ => rfl)]
      simp [tellToDie, hnew, hinited, hdue.untold]
    · intro notice hnotice
      cases hnotice

/-! ### Errors -/

theorem tellToDie_nil (dag : Dag) : dag.tellToDie [] = .rest dag := by
  have hsame : dag.tallies.mapIdx (fun _ tally => tally) = dag.tallies := by
    apply List.ext_getElem?
    intro index
    rw [List.getElem?_mapIdx, Option.map_id']
  simp [tellToDie, Step.rest, hsame]

theorem endInError_eq (dag : Dag) : ∃ targets,
    (targets = Tally.killable dag.tallies ∨ targets = []) ∧
    (dag.phase = .running ∨ dag.phase = .killWait → targets = Tally.killable dag.tallies) ∧
    dag.endInError = (dag.tellToDie targets).andThen (conclude · .error) := by
  by_cases hrunning : dag.phase = .running ∨ dag.phase = .killWait
  · refine ⟨Tally.killable dag.tallies, Or.inl rfl, fun _ => rfl, ?_⟩
    rw [endInError, if_pos hrunning]
  · refine ⟨[], Or.inr rfl, fun h => absurd h hrunning, ?_⟩
    rw [endInError, if_neg hrunning, tellToDie_nil]

/-- A job that ends in error first tells everyone to die who may be running. -/
theorem lawful_endInError {dag : Dag} (hcounted : dag.Counted)
    (hhurt : ¬ (dag.phase = .running ∨ dag.phase = .killWait) → dag.cause ≠ .none →
      ∀ vertex : VertexId, vertex.index < dag.vertexCount → dag.ending? vertex = none →
      dag.asked vertex = true) : Lawful dag dag.endInError := by
  obtain ⟨targets, htargets, hrunning, hstep⟩ := dag.endInError_eq
  have hreached : dag.cause ≠ .none → ∀ vertex : VertexId, vertex.index < dag.vertexCount →
      dag.ending? vertex = none → (dag.tellToDie targets).machine.asked vertex = true := by
    intro hcause vertex hindex hending
    by_cases hlive : dag.phase = .running ∨ dag.phase = .killWait
    · rw [hrunning hlive]
      exact asked_tellToDie_killable hindex hending
    · rw [asked_tellToDie, hhurt hlive hcause vertex hindex hending, Bool.true_or]
  rw [hstep]
  refine ⟨?_, follows_conclude rfl (fun _ => rfl) (fun _ => rfl), outbound_conclude rfl htargets, ?_⟩
  · exact {
      toCounted := (hcounted.tellToDie targets).of_eq rfl rfl rfl rfl
      fresh := by simp [conclude]
      alive := by simp [conclude]
      running := by simp [conclude]
      killWait := by simp [conclude]
      ended := by simp [conclude]
      unhurt := by simp [conclude]
      hurt := fun hcause vertex hindex hnone => hreached hcause vertex
        (by rwa [← dag.vertexCount_tellToDie targets]) (by rwa [← dag.ending?_tellToDie targets])
      unerred := by simp [conclude]
      ownerTold := rfl }
  · intro notice hnotice
    cases hnotice

/-- A protocol violation is noted and ends the job in error. -/
theorem lawful_violate {dag : Dag} (hvalid : dag.Valid)
    (reason : DagViolation) : Lawful dag (dag.violate reason) := by
  have hend : Lawful (dag.note (.violation reason)) (dag.note (.violation reason)).endInError :=
    lawful_endInError (hvalid.toCounted.of_eq rfl rfl rfl rfl) (fun _ => hvalid.hurt)
  have hfollows : dag.Follows (dag.note (.violation reason)) :=
    Follows.of_books rfl rfl (fun h => h) (Or.inl rfl)
  have herror : (dag.violate reason).machine.phase = .error := rfl
  by_cases hnew : dag.phase = .new
  · refine ⟨hend.valid, ?_, ?_, fun _ _ _ => herror⟩
    · exact {
        id := hend.follows.id
        vertexCount := hend.follows.vertexCount
        ending := hend.follows.ending
        asked := hend.follows.asked
        erred := fun _ => herror
        new := fun _ => hnew
        inited := fun h => by rw [herror] at h; cases h
        running := fun h => by rw [herror] at h; cases h
        started := fun _ => Or.inr (Or.inr herror) }
    · exact hend.outbound
  · have h := hend.of_follows hfollows (fun _ => rfl) rfl hnew (Or.inl rfl)
    exact ⟨h.valid, h.follows, h.outbound, fun _ _ _ => herror⟩

/-! ### Causes and endings -/

theorem orElse_ne_none {cause later : Cause} (hlater : later ≠ .none) : cause.orElse later ≠ .none := by
  cases cause <;> cases later <;> simp_all [Cause.orElse, Cause.isSet]

theorem accepts_eq_false {cause later : Cause} (hlater : later ≠ .none)
    (h : cause.accepts later = false) : cause ≠ .none := by
  cases cause <;> cases later <;> simp_all [Cause.accepts, Cause.isSet]

/-- A user kills the job; a cause that is there already is kept. -/
theorem lawful_killByUser {dag : Dag} (hvalid : dag.Valid)
    (hphase : dag.phase = .inited ∨ dag.phase = .running) : Lawful dag dag.killByUser := by
  have hlive : dag.phase ≠ .new ∧ dag.phase ≠ .error ∧ dag.phase.isTerminal = false := by
    rcases hphase with h | h <;> simp [h, Phase.isTerminal]
  have hdue : ∀ diagnostics, Due { dag with
      phase := .killWait, cause := dag.cause.orElse .userKill, diagnostics := diagnostics }
      (dag.cause.accepts .userKill) := by
    intro diagnostics
    have hcause : dag.cause.orElse .userKill ≠ .none := orElse_ne_none (by decide)
    exact {
      toCounted := hvalid.toCounted.of_eq rfl rfl rfl rfl
      live := Or.inr rfl
      running := by simp
      killWait := fun _ => hcause
      unhurt := fun h => absurd h hcause
      hurt := fun hfresh _ => hvalid.hurt (accepts_eq_false (by decide) hfresh)
      unerred := hvalid.unerred hlive.2.1
      untold := by rw [hvalid.ownerTold, hlive.2.2] }
  have hfollows : ∀ diagnostics, dag.Follows { dag with
      phase := .killWait, cause := dag.cause.orElse .userKill, diagnostics := diagnostics } := by
    intro diagnostics
    refine Follows.of_books rfl rfl (fun h => absurd h hlive.2.1) (Or.inr (Or.inl ⟨?_, hlive.1⟩))
    exact Nat.le_refl 3
  rw [killByUser]
  cases hfresh : dag.cause.accepts .userKill with
  | true =>
      have h := hdue (dag.diagnostics ++ [.userKill])
      rw [hfresh] at h
      exact (lawful_windUp h).of_follows (hfollows _) (fun _ => rfl) rfl hlive.1 (Or.inr rfl)
  | false =>
      have h := hdue dag.diagnostics
      rw [hfresh] at h
      exact (lawful_windUp h).of_follows (hfollows _) (fun _ => rfl) rfl hlive.1 (Or.inr rfl)

end JobFlow.Dag
