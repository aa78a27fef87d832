import JobFlow.Proofs.Vertex.Bookkeeping

/-!
What a step of a vertex can do. A vertex never goes back to an earlier phase and never leaves a terminal
one, its books only grow, and what it sends is read off the change that it made: the requests of a
launch, the request to kill what still runs, and the news of its end. Main statement: every step is
lawful in this sense and keeps the books valid.
-/

namespace JobFlow.Vertex

/-- What never changes about a vertex, and what only grows. -/
structure Follows (before after : Vertex) : Prop where
  dag : after.dag = before.dag
  id : after.id = before.id
  name : after.name = before.name
  sources : after.sources = before.sources
  targets : after.targets = before.targets
  gating : after.gating = before.gating
  total : after.progress.total = before.progress.total
  length : after.slots.length = before.slots.length
  rank : before.phase.rank ≤ after.phase.rank
  ended : before.phase.isTerminal = true → after.phase = before.phase
  launched : before.launched = true → after.launched = true
  told : before.toldToStart = true → after.toldToStart = true
  ready : ∀ source ∈ before.ready, source ∈ after.ready
  filed : ∀ (index : Nat) (outcome : TaskOutcome), before.slots[index]? = some (some outcome) →
    after.slots[index]? = some (some outcome)

theorem Follows.refl (vertex : Vertex) : vertex.Follows vertex where
  dag := rfl
  id := rfl
  name := rfl
  sources := rfl
  targets := rfl
  gating := rfl
  total := rfl
  length := rfl
  rank := Nat.le_refl _
  ended _ := rfl
  launched h := h
  told h := h
  ready _ h := h
  filed _ _ h := h

theorem Follows.trans {first second third : Vertex} (h : first.Follows second)
    (h' : second.Follows third) : first.Follows third where
  dag := h'.dag.trans h.dag
  id := h'.id.trans h.id
  name := h'.name.trans h.name
  sources := h'.sources.trans h.sources
  targets := h'.targets.trans h.targets
  gating := h'.gating.trans h.gating
  total := h'.total.trans h.total
  length := h'.length.trans h.length
  rank := Nat.le_trans h.rank h'.rank
  ended hover := by
    have hphase := h.ended hover
    rw [h'.ended (by rw [hphase]; exact hover), hphase]
  launched hlaunched := h'.launched (h.launched hlaunched)
  told htold := h'.told (h.told htold)
  ready source hsource := h'.ready source (h.ready source hsource)
  filed index outcome hslot := h'.filed index outcome (h.filed index outcome hslot)

/-- A report that is missing was missing before. -/
theorem Follows.mem_unreported {before after : Vertex} (hfollows : before.Follows after)
    {task : TaskId} (htask : task ∈ after.unreported) : task ∈ before.unreported := by
  obtain ⟨hid, hslot⟩ := Vertex.mem_unreported.mp htask
  refine Vertex.mem_unreported.mpr ⟨hid.trans hfollows.id, ?_⟩
  have hlt := (List.getElem?_eq_some_iff.mp hslot).1
  rw [hfollows.length] at hlt
  rw [List.getElem?_eq_getElem hlt]
  cases hfiled : before.slots[task.index] with
  | none => rfl
  | some outcome =>
      have hkept := hfollows.filed task.index outcome (List.getElem?_eq_some_iff.mpr ⟨hlt, hfiled⟩)
      rw [hslot] at hkept
      cases hkept

/-- The requests with which a vertex starts. -/
def launchEvents (vertex : Vertex) : List Event :=
  (if vertex.progress.total = 0 then []
    else [.tasks vertex.id (.schedule vertex.tasks vertex.resource)]) ++
  vertex.targets.map (fun target => .vertex target (.sourceStarted vertex.id))

/-- The news of the end of a vertex. -/
def endEvents (vertex : Vertex) : List Event :=
  .dag vertex.dag (.vertexCompleted vertex.id vertex.phase) ::
    if vertex.phase = .succeeded then
      vertex.targets.map (fun target => .vertex target (.sourceSucceeded vertex.id))
    else []

/-- What a vertex sends when it changes. -/
def announcements (before after : Vertex) : List Event :=
  (if before.launched = false ∧ after.launched = true then after.launchEvents else []) ++
  (if before.phase ≠ after.phase ∧ after.phase.isStopping = true then after.killRequest else []) ++
  (if before.phase.isTerminal = false ∧ after.phase.isTerminal = true then after.endEvents else [])

/-- A step that keeps the books, goes forward and sends what its change asks for. -/
structure Lawful (before : Vertex) (step : Step Vertex) : Prop where
  valid : step.machine.Valid
  follows : before.Follows step.machine
  outbound : step.outbound = announcements before step.machine
  notices : ∀ notice ∈ step.notices, notice.isViolation = true → step.machine.phase = .error

/-- Books that are brought up to date before a step are part of the step. -/
theorem Lawful.of_follows {before middle : Vertex} {step : Step Vertex} (h : Lawful middle step)
    (hfollows : before.Follows middle) (hphase : middle.phase = before.phase)
    (hlaunched : middle.launched = before.launched) : Lawful before step where
  valid := h.valid
  follows := hfollows.trans h.follows
  outbound := by
    rw [h.outbound]
    unfold announcements
    rw [hphase, hlaunched]
  notices := h.notices

theorem announcements_eq_nil {before after : Vertex} (hphase : after.phase = before.phase)
    (hlaunched : after.launched = before.launched) : announcements before after = [] := by
  rw [announcements, hphase, hlaunched]
  cases before.launched <;> cases before.phase <;> simp [Phase.isTerminal]

theorem lawful_rest {before after : Vertex} (hvalid : after.Valid) (hfollows : before.Follows after)
    (hphase : after.phase = before.phase) (hlaunched : after.launched = before.launched) :
    Lawful before (.rest after) where
  valid := hvalid
  follows := hfollows
  outbound := (announcements_eq_nil hphase hlaunched).symm
  notices _ h := by cases h

theorem lawful_stay {vertex : Vertex} (hvalid : vertex.Valid) : Lawful vertex (.rest vertex) :=
  lawful_rest hvalid (Follows.refl vertex) rfl rfl

/-- The books of a vertex that ended otherwise than by success need no more than the right counts. -/
theorem Tallied.valid_of_stopped {vertex : Vertex} (htallied : vertex.Tallied)
    (htold : vertex.launched = true → vertex.toldToStart = true)
    (hterminal : vertex.phase.isTerminal = true) (hstopped : vertex.phase ≠ .succeeded) :
    vertex.Valid where
  toTallied := htallied
  waiting h := by rcases h with h | h <;> simp [h, Phase.isTerminal] at hterminal
  live h := by rcases h with h | h <;> simp [h, Phase.isTerminal] at hterminal
  untold h := by simp [h, Phase.isTerminal] at hterminal
  told := htold
  gated h := by simp [h, Phase.isTerminal] at hterminal
  allSucceeded h := absurd h hstopped
  clean h := by
    rcases h with h | h | h | h
    · simp [h, Phase.isTerminal] at hterminal
    · simp [h, Phase.isTerminal] at hterminal
    · simp [h, Phase.isTerminal] at hterminal
    · exact absurd h hstopped

/-- Only the phase and the diagnostics of a vertex change. -/
theorem follows_of_phase {vertex : Vertex} {phase : Phase} (diagnostics : List VertexDiagnostic)
    (hlive : vertex.phase.isTerminal = false) (hrank : vertex.phase.rank ≤ phase.rank) :
    vertex.Follows { vertex with phase := phase, diagnostics := diagnostics } :=
  { Follows.refl vertex with
    rank := hrank
    ended := fun hterminal => by simp [hlive] at hterminal }

theorem tallied_of_phase {vertex : Vertex} (htallied : vertex.Tallied) (phase : Phase)
    (diagnostics : List VertexDiagnostic) :
    Tallied { vertex with phase := phase, diagnostics := diagnostics } :=
  ⟨htallied.total, htallied.succeeded, htallied.failed, htallied.killed, htallied.running,
    htallied.unlaunched⟩

/-- A vertex that is not over ends in a phase other than success, killing what still runs. -/
theorem lawful_stop {vertex : Vertex} (htallied : vertex.Tallied)
    (htold : vertex.launched = true → vertex.toldToStart = true)
    (hlive : vertex.phase.isTerminal = false) {phase : Phase} (hterminal : phase.isTerminal = true)
    (hstopped : phase ≠ .succeeded) (diagnostics : List VertexDiagnostic) (notices : List Notice)
    (hnotices : ∀ notice ∈ notices, notice.isViolation = true → phase = .error) :
    Lawful vertex ((Step.mk { vertex with diagnostics := diagnostics } vertex.killRequest notices).andThen
      (conclude · phase)) := by
  have hne : vertex.phase ≠ phase := by
    intro heq
    rw [heq, hterminal] at hlive
    cases hlive
  have hstopping : phase.isStopping = true := by
    cases phase <;> simp_all [Phase.isTerminal, Phase.isStopping]
  refine ⟨?_, ?_, ?_, ?_⟩
  · exact (tallied_of_phase htallied phase diagnostics).valid_of_stopped htold hterminal hstopped
  · refine follows_of_phase diagnostics hlive ?_
    rw [Phase.rank_eq_four.mpr hterminal]
    exact Phase.rank_le_four _
  · simp [announcements, conclude, endEvents, hne, hstopping, hlive, hterminal, killRequest, unreported]
  · intro notice hnotice
    simp only [Step.notices_andThen, conclude, List.append_nil] at hnotice
    exact hnotices notice hnotice

theorem lawful_violate {vertex : Vertex} (hvalid : vertex.Valid)
    (hlive : vertex.phase.isTerminal = false) (reason : VertexViolation) :
    Lawful vertex (vertex.violate reason) :=
  lawful_stop hvalid.toTallied hvalid.told hlive rfl (by decide) _ _ (fun _ _ _ => rfl)

theorem Valid.launched_of_running {vertex : Vertex} (hvalid : vertex.Valid)
    (hrunning : vertex.progress.running ≠ 0) : vertex.launched = true := by
  by_contra hunlaunched
  have hcount := hvalid.running
  rw [if_neg hunlaunched] at hcount
  exact hrunning hcount

/-- A vertex that is told to die while something runs waits for the rest of its reports. -/
theorem valid_dying {vertex : Vertex} (hvalid : vertex.Valid) (hrunning : vertex.progress.running ≠ 0)
    (diagnostics : List VertexDiagnostic) :
    Valid { vertex with phase := .killWait, diagnostics := diagnostics } where
  toTallied := tallied_of_phase hvalid.toTallied .killWait diagnostics
  waiting := by simp
  live _ := ⟨hvalid.launched_of_running hrunning, Nat.pos_of_ne_zero hrunning⟩
  untold := by simp
  told := hvalid.told
  gated := by simp
  allSucceeded := by simp
  clean := by simp

/-- A vertex that is told to die is over at once if nothing runs. -/
theorem lawful_startDying {vertex : Vertex} (hvalid : vertex.Valid)
    (hlive : vertex.phase.isTerminal = false) (hrank : vertex.phase.rank < Phase.killWait.rank) :
    Lawful vertex vertex.startDying := by
  rw [startDying]
  by_cases hrunning : vertex.progress.running = 0
  · have hne : vertex.phase ≠ .killed := by
      intro heq
      rw [heq] at hlive
      cases hlive
    have hterminal : Phase.killed.isTerminal = true := rfl
    refine ⟨?_, ?_, ?_, ?_⟩
    · simp only [Step.machine_andThen, note, hrunning, if_pos, conclude]
      exact (tallied_of_phase hvalid.toTallied .killed _).valid_of_stopped hvalid.told rfl (by simp)
    · simp only [Step.machine_andThen, note, hrunning, if_pos, conclude]
      exact follows_of_phase _ hlive (Phase.rank_le_four _)
    · simp [announcements, note, hrunning, conclude, endEvents, hne, hlive, hterminal,
        Phase.isStopping, killRequest, unreported]
    · intro notice hnotice
      simp [note, hrunning, conclude] at hnotice
  · have hne : vertex.phase ≠ .killWait := by
      intro heq
      rw [heq] at hrank
      exact Nat.lt_irrefl _ hrank
    refine ⟨?_, ?_, ?_, ?_⟩
    · simp only [Step.machine_andThen, note, hrunning, if_false, Step.machine_rest]
      exact valid_dying hvalid hrunning _
    · simp only [Step.machine_andThen, note, hrunning, if_false, Step.machine_rest]
      exact follows_of_phase _ hlive (Nat.le_of_lt hrank)
    · simp [announcements, note, hrunning, hne, Phase.isStopping, Phase.isTerminal, killRequest,
        unreported]
    · intro notice hnotice
      simp [note, hrunning] at hnotice

/-- What is noted of the command and of the sources does not change where a vertex stands. -/
theorem follows_of_noted {vertex : Vertex} {told : Bool} {ready : List VertexId}
    (htold : vertex.toldToStart = true → told = true)
    (hready : ∀ source ∈ vertex.ready, source ∈ ready) :
    vertex.Follows { vertex with toldToStart := told, ready := ready } :=
  { Follows.refl vertex with told := htold, ready := hready }

section Launch

variable {vertex : Vertex} (htallied : vertex.Tallied) (hlaunched : vertex.launched = false)

include htallied hlaunched

/-- Nothing is on file before the launch, so every task runs after it. -/
theorem Tallied.launch (phase : Phase) : Tallied { vertex with
    phase := phase
    launched := true
    progress := { vertex.progress with running := vertex.progress.total } } := by
  have hempty := htallied.unlaunched hlaunched
  have hcount : vertex.slots.count none = vertex.progress.total := by
    rw [htallied.total]
    exact List.count_eq_length.mpr (fun slot hslot => (hempty slot hslot).symm)
  exact ⟨htallied.total, htallied.succeeded, htallied.failed, htallied.killed, by simp [hcount], by simp⟩

omit htallied hlaunched in
theorem follows_launch (hphase : vertex.phase = .inited) {phase : Phase}
    (hrank : Phase.inited.rank ≤ phase.rank) : vertex.Follows { vertex with
      phase := phase
      launched := true
      progress := { vertex.progress with running := vertex.progress.total } } :=
  { Follows.refl vertex with
    rank := by rw [hphase]; exact hrank
    ended := fun hterminal => by simp [hphase, Phase.isTerminal] at hterminal
    launched := fun _ => rfl }

variable (hphase : vertex.phase = .inited) (htold : vertex.toldToStart = true)
  (hclean : vertex.diagnostics = [])

include hphase htold hclean

/-- The launch of a vertex without tasks is its success. -/
theorem lawful_launch_of_empty (htotal : vertex.progress.total = 0) :
    Lawful vertex vertex.launch := by
  have hslots : vertex.slots = [] := List.length_eq_zero_iff.mp (htallied.total ▸ htotal)
  have hbooks := htallied.launch hlaunched .succeeded
  have hfollows := follows_launch hphase (show Phase.inited.rank ≤ Phase.succeeded.rank by decide)
  simp only [htotal] at hbooks hfollows
  rw [launch]
  refine ⟨?_, ?_, ?_, ?_⟩
  · simp only [Step.machine_andThen, htotal, if_pos, conclude]
    exact {
      toTallied := hbooks
      waiting := by simp
      live := by simp
      untold := by simp
      told := fun _ => htold
      gated := by simp
      allSucceeded := fun _ => ⟨rfl, by simp [hslots]⟩
      clean := fun _ => hclean }
  · simp only [Step.machine_andThen, htotal, if_pos, conclude]
    exact hfollows
  · simp [announcements, htotal, conclude, launchEvents, endEvents, hlaunched, hphase,
      Phase.isStopping, Phase.isTerminal]
  · intro notice hnotice
    simp [htotal, conclude] at hnotice

theorem lawful_launch_of_tasks (htotal : vertex.progress.total ≠ 0) :
    Lawful vertex vertex.launch := by
  rw [launch]
  refine ⟨?_, ?_, ?_, ?_⟩
  · simp only [Step.machine_andThen, htotal, if_false, Step.machine_rest]
    exact {
      toTallied := htallied.launch hlaunched .running
      waiting := by simp
      live := fun _ => ⟨rfl, Nat.pos_of_ne_zero htotal⟩
      untold := by simp
      told := fun _ => htold
      gated := by simp
      allSucceeded := by simp
      clean := fun _ => hclean }
  · simp only [Step.machine_andThen, htotal, if_false, Step.machine_rest]
    exact follows_launch hphase (by decide)
  · simp [announcements, htotal, launchEvents, hlaunched, Phase.isStopping, Phase.isTerminal, tasks]
  · intro notice hnotice
    simp [htotal] at hnotice

/-- A launch starts every task, or succeeds when there is none. -/
theorem lawful_launch : Lawful vertex vertex.launch := by
  by_cases htotal : vertex.progress.total = 0
  · exact lawful_launch_of_empty htallied hlaunched hphase htold hclean htotal
  · exact lawful_launch_of_tasks htallied hlaunched hphase htold hclean htotal

end Launch

/-- A vertex that is not over takes note of the command or of a source, and starts if it can. -/
theorem lawful_startIfReady {vertex : Vertex} (hvalid : vertex.Valid) {told : Bool}
    {ready : List VertexId} (htold : vertex.toldToStart = true → told = true)
    (hready : ∀ source ∈ vertex.ready, source ∈ ready)
    (huntold : vertex.phase = .new → told = false) :
    Lawful vertex (startIfReady { vertex with toldToStart := told, ready := ready }) := by
  have hfollows := follows_of_noted htold hready
  have htallied : Tallied { vertex with toldToStart := told, ready := ready } :=
    ⟨hvalid.total, hvalid.succeeded, hvalid.failed, hvalid.killed, hvalid.running, hvalid.unlaunched⟩
  rw [startIfReady]
  dsimp only
  split
  next hstart =>
    obtain ⟨hphase, htoldNow, -⟩ := hstart
    refine Lawful.of_follows ?_ hfollows rfl rfl
    exact lawful_launch htallied (hvalid.waiting (Or.inr hphase)) hphase htoldNow
      (hvalid.clean (Or.inr (Or.inl hphase)))
  next hwait =>
    refine lawful_rest ?_ hfollows rfl rfl
    exact {
      toTallied := htallied
      waiting := hvalid.waiting
      live := hvalid.live
      untold := huntold
      told := fun hlaunched => htold (hvalid.told hlaunched)
      gated := by
        intro hphase htoldNow
        by_contra hnone
        refine hwait ⟨hphase, htoldNow, fun source hsource => ?_⟩
        by_contra hmissing
        exact hnone ⟨source, hsource, hmissing⟩
      allSucceeded := hvalid.allSucceeded
      clean := hvalid.clean }

theorem killRequest_eq_nil {vertex : Vertex} (htallied : vertex.Tallied)
    (hrunning : vertex.progress.running = 0) : vertex.killRequest = [] := by
  rw [killRequest, if_neg]
  rintro ⟨hlaunched, hunreported⟩
  exact hunreported (htallied.unreported_eq_nil hlaunched hrunning)

theorem phase_file (vertex : Vertex) (task : TaskId) (outcome : TaskOutcome) :
    (vertex.file task outcome).phase = vertex.phase := rfl

theorem follows_file {vertex : Vertex} {task : TaskId} (outcome : TaskOutcome)
    (hslot : vertex.slots[task.index]? = some none) : vertex.Follows (vertex.file task outcome) :=
  { Follows.refl vertex with
    total := by cases outcome <;> rfl
    length := List.length_set
    filed := by
      intro index first hfirst
      have hne : task.index ≠ index := by
        intro heq
        rw [← heq, hslot] at hfirst
        cases hfirst
      rw [file, List.getElem?_set_ne hne]
      exact hfirst }

/-- The last report ends a vertex, some of whose tasks were killed, as killed. -/
theorem lawful_killed {vertex : Vertex} (htallied : vertex.Tallied)
    (htold : vertex.toldToStart = true) (hlive : vertex.phase.isTerminal = false)
    (hrunning : vertex.progress.running = 0) (diagnostics : List VertexDiagnostic) :
    Lawful vertex (conclude { vertex with diagnostics := diagnostics } .killed) := by
  have hkilled : Phase.killed.isTerminal = true := rfl
  have h := lawful_stop htallied (fun _ => htold) hlive hkilled (by decide) diagnostics [] (by simp)
  rw [killRequest_eq_nil htallied hrunning] at h
  exact h

section Filed

variable {vertex : Vertex} (htallied : vertex.Tallied) (hlaunched : vertex.launched = true)
  (htold : vertex.toldToStart = true)

include htallied hlaunched htold

/-- With a report still missing, a vertex that runs or is being killed goes on. -/
theorem valid_of_running (hphase : vertex.phase = .running ∨ vertex.phase = .killWait)
    (hrunning : vertex.progress.running ≠ 0)
    (hclean : vertex.phase = .running → vertex.diagnostics = []) : vertex.Valid where
  toTallied := htallied
  waiting h := by rcases hphase with hp | hp <;> simp [hp] at h
  live _ := ⟨hlaunched, Nat.pos_of_ne_zero hrunning⟩
  untold h := by rcases hphase with hp | hp <;> simp [hp] at h
  told _ := htold
  gated h := by rcases hphase with hp | hp <;> simp [hp] at h
  allSucceeded h := by rcases hphase with hp | hp <;> simp [hp] at h
  clean h := by
    rcases hphase with hp | hp
    · exact hclean hp
    · simp [hp] at h

theorem lawful_concludeKilled (hphase : vertex.phase = .running)
    (hclean : vertex.diagnostics = []) : Lawful vertex vertex.concludeKilled := by
  rw [concludeKilled]
  split
  next hrunning =>
    exact lawful_killed htallied htold (by rw [hphase]; rfl) hrunning _
  next hrunning =>
    have hvalid := valid_of_running htallied hlaunched htold (Or.inl hphase) hrunning (fun _ => hclean)
    exact lawful_stay hvalid

theorem lawful_succeeded (hphase : vertex.phase = .running) (hclean : vertex.diagnostics = [])
    (hall : vertex.progress.succeeded = vertex.progress.total) :
    Lawful vertex (vertex.conclude .succeeded) := by
  have hslots : ∀ slot ∈ vertex.slots, slot = some .succeeded := by
    rw [htallied.succeeded, htallied.total] at hall
    exact fun slot hslot => (List.count_eq_length.mp hall slot hslot).symm
  have hbooks := tallied_of_phase htallied .succeeded vertex.diagnostics
  refine ⟨?_, ?_, ?_, ?_⟩
  · exact {
      toTallied := hbooks
      waiting := by simp [conclude]
      live := by simp [conclude]
      untold := by simp [conclude]
      told := fun _ => htold
      gated := by simp [conclude]
      allSucceeded := fun _ => ⟨hlaunched, hslots⟩
      clean := fun _ => hclean }
  · exact follows_of_phase vertex.diagnostics (by rw [hphase]; rfl) (Phase.rank_le_four _)
  · simp [announcements, conclude, endEvents, hphase, Phase.isStopping, Phase.isTerminal]
  · intro notice hnotice
    cases hnotice

/-- What a report means to a running vertex. -/
theorem lawful_afterReport (hphase : vertex.phase = .running) (hclean : vertex.diagnostics = [])
    (task : TaskId) (outcome : TaskOutcome) : Lawful vertex (vertex.afterReport task outcome) := by
  unfold afterReport
  cases outcome with
  | succeeded =>
      dsimp only
      split
      next hall => exact lawful_succeeded htallied hlaunched htold hphase hclean hall
      next => exact lawful_concludeKilled htallied hlaunched htold hphase hclean
  | failed =>
      refine lawful_stop htallied (fun _ => htold) (by rw [hphase]; rfl) rfl (by decide) _ _ ?_
      intro notice hnotice hviolation
      rw [List.mem_singleton.mp hnotice] at hviolation
      cases hviolation
  | killed => exact lawful_concludeKilled htallied hlaunched htold hphase hclean

end Filed

theorem lawful_reportRunning {vertex : Vertex} (hvalid : vertex.Valid)
    (hphase : vertex.phase = .running) (task : TaskId) (outcome : TaskOutcome) :
    Lawful vertex (vertex.reportRunning task outcome) := by
  rw [reportRunning]
  rcases vertex.report_cases task outcome with ⟨⟨reason, heq⟩, -⟩ | ⟨heq, -⟩ | ⟨heq, hlaunched, -, hslot⟩ <;>
    rw [heq] <;> dsimp only
  · exact lawful_violate hvalid (by rw [hphase]; rfl) reason
  · exact lawful_stay hvalid
  · have htallied := hvalid.toTallied.file outcome hlaunched hslot
    have hclean := hvalid.clean (Or.inr (Or.inr (Or.inl hphase)))
    exact (lawful_afterReport htallied hlaunched (hvalid.told hlaunched) hphase hclean task
      outcome).of_follows (follows_file outcome hslot) rfl rfl

theorem lawful_reportDying {vertex : Vertex} (hvalid : vertex.Valid)
    (hphase : vertex.phase = .killWait) (task : TaskId) (outcome : TaskOutcome) :
    Lawful vertex (vertex.reportDying task outcome) := by
  rw [reportDying]
  rcases vertex.report_cases task outcome with ⟨⟨reason, heq⟩, -⟩ | ⟨heq, -⟩ | ⟨heq, hlaunched, -, hslot⟩ <;>
    rw [heq] <;> dsimp only
  · exact lawful_violate hvalid (by rw [hphase]; rfl) reason
  · exact lawful_stay hvalid
  · have htallied := hvalid.toTallied.file outcome hlaunched hslot
    have htold := hvalid.told hlaunched
    have hfollows := follows_file outcome hslot
    split
    next hrunning =>
      exact (lawful_killed htallied htold (by rw [phase_file, hphase]; rfl) hrunning _).of_follows
        hfollows rfl rfl
    next hrunning =>
      refine lawful_rest (valid_of_running htallied hlaunched htold (Or.inr hphase) hrunning ?_)
        hfollows rfl rfl
      intro hrunningPhase
      rw [phase_file, hphase] at hrunningPhase
      cases hrunningPhase

/-- A report that comes after the end changes the books and nothing else. -/
theorem lawful_reportLate {vertex : Vertex} (hvalid : vertex.Valid)
    (hterminal : vertex.phase.isTerminal = true) (task : TaskId) (outcome : TaskOutcome) :
    Lawful vertex (vertex.reportLate task outcome) := by
  rw [reportLate]
  rcases vertex.report_cases task outcome with ⟨⟨reason, heq⟩, -⟩ | ⟨heq, -⟩ | ⟨heq, hlaunched, -, hslot⟩ <;>
    rw [heq] <;> dsimp only
  · exact lawful_stay hvalid
  · exact lawful_stay hvalid
  · have htallied := hvalid.toTallied.file outcome hlaunched hslot
    have hstopped : vertex.phase ≠ .succeeded := by
      intro hsucceeded
      have hsome := (hvalid.allSucceeded hsucceeded).2 none (List.mem_of_getElem? hslot)
      cases hsome
    exact lawful_rest (htallied.valid_of_stopped hvalid.told hterminal hstopped)
      (follows_file outcome hslot) rfl rfl

/-! ### Steps -/

section Handle

variable {vertex : Vertex} (hvalid : vertex.Valid)

include hvalid

/-- What does not fit the phase of a vertex is ignored after its end and ends it before. -/
theorem lawful_refuse (reason : VertexViolation) :
    Lawful vertex (if vertex.phase.isTerminal then .rest vertex else vertex.violate reason) := by
  split
  next => exact lawful_stay hvalid
  next hlive => exact lawful_violate hvalid (by simpa using hlive) reason

theorem lawful_handleInit : Lawful vertex vertex.handleInit := by
  rw [handleInit]
  split
  next hnew =>
    have hunlaunched := hvalid.waiting (Or.inl hnew)
    have huntold := hvalid.untold hnew
    refine ⟨?_, ?_, ?_, ?_⟩
    · exact {
        toTallied := tallied_of_phase hvalid.toTallied .inited vertex.diagnostics
        waiting := fun _ => hunlaunched
        live := by simp
        untold := by simp
        told := hvalid.told
        gated := by simp [huntold]
        allSucceeded := by simp
        clean := fun _ => hvalid.clean (Or.inl hnew) }
    · exact follows_of_phase vertex.diagnostics (by rw [hnew]; rfl) (by rw [hnew]; decide)
    · simp [announcements, hunlaunched, hnew, Phase.isStopping, Phase.isTerminal]
    · intro notice hnotice
      cases hnotice
  next => exact lawful_refuse hvalid _

theorem lawful_handleStart : Lawful vertex vertex.handleStart := by
  rw [handleStart]
  split
  next hinited => exact lawful_startIfReady hvalid (fun _ => rfl) (fun _ h => h) (by simp [hinited])
  next => exact lawful_refuse hvalid _

theorem lawful_handleKill : Lawful vertex vertex.handleKill := by
  rw [handleKill]
  cases hphase : vertex.phase with
  | new | inited | running =>
      exact lawful_startDying hvalid (by rw [hphase]; rfl) (by rw [hphase]; decide)
  | killWait | succeeded | failed | killed | error => exact lawful_stay hvalid

theorem lawful_handleSource (source : VertexId) (gate : Gating) :
    Lawful vertex (vertex.handleSource source gate) := by
  rw [handleSource]
  split
  next => exact lawful_stay hvalid
  next hlive =>
    rw [sourcePassed]
    split
    next =>
      split
      next =>
        exact lawful_startIfReady hvalid (fun h => h)
          (fun other hother => List.mem_insert_iff.mpr (Or.inr hother)) hvalid.untold
      next => exact lawful_startIfReady hvalid (fun h => h) (fun _ h => h) hvalid.untold
    next => exact lawful_violate hvalid (by simpa using hlive) _

theorem lawful_handleTask (task : TaskId) (outcome : TaskOutcome) :
    Lawful vertex (vertex.handleTask task outcome) := by
  rw [handleTask]
  cases hphase : vertex.phase with
  | new | inited => exact lawful_violate hvalid (by rw [hphase]; rfl) _
  | running => exact lawful_reportRunning hvalid hphase task outcome
  | killWait => exact lawful_reportDying hvalid hphase task outcome
  | succeeded | failed | killed => exact lawful_reportLate hvalid (by rw [hphase]; rfl) task outcome
  | error => exact lawful_stay hvalid

/-- Every step of a vertex is lawful. -/
theorem lawful_handle (signal : VertexSignal) : Lawful vertex (vertex.handle signal) := by
  cases signal with
  | init => exact lawful_handleInit hvalid
  | start => exact lawful_handleStart hvalid
  | kill => exact lawful_handleKill hvalid
  | sourceStarted source => exact lawful_handleSource hvalid source .sourceStarted
  | sourceSucceeded source => exact lawful_handleSource hvalid source .sourceSucceeded
  | taskCompleted task outcome => exact lawful_handleTask hvalid task outcome

end Handle

end JobFlow.Vertex
