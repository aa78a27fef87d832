import JobFlow.Proofs.Dag.Coherence
import JobFlow.Proofs.Dag.Correspondence
import JobFlow.Proofs.Dag.Reports

/-!
The first cause wins. A job that is told of kills and of the ends of its vertices counts the first report
of each vertex, and the first of a kill and a harm to reach it while it lives decides how it ends. Main
statement: how the job stands, and what it has counted, in closed form.
-/

namespace JobFlow.Dag

open Reports

/-! ### What a step does to the phase and the cause -/

section Change

variable {dag after : Dag} {signal : DagSignal}

theorem phase_windUp_cases (dag : Dag) (fresh : Bool) :
    (dag.windUp fresh).machine.phase = dag.phase ∨
      (dag.windUp fresh).machine.phase.isTerminal = true := by
  refine (phase_windUp dag fresh).imp_right (fun h => ?_)
  rw [h]
  exact Cause.isTerminal_finalPhase dag.cause

/-- Counting an ending ends a job or leaves it where it is. -/
theorem phase_account_cases (dag : Dag) (vertex : VertexId) (tally : Tally) (phase : Phase) :
    (dag.account vertex tally phase).machine.phase = dag.phase ∨
      (dag.account vertex tally phase).machine.phase.isTerminal = true := by
  unfold account
  cases phase with
  | succeeded | failed => exact phase_windUp_cases _ _
  | killed =>
      dsimp only
      split
      · exact phase_windUp_cases _ _
      · exact phase_windUp_cases _ _
  | error | new | inited | running | killWait => exact Or.inr rfl

theorem Change.phase_eq_killWait (hchange : dag.Change signal after) (hkill : signal ≠ .kill)
    (hphase : after.phase = .killWait) : dag.phase = .killWait := by
  cases hchange with
  | kept => exact hphase
  | begun phase hbegun => rcases hbegun with ⟨-, rfl⟩ | ⟨-, rfl⟩ <;> cases hphase
  | killed hsignal => exact absurd hsignal hkill
  | counted vertex phase _ _ _ tally =>
      rcases dag.phase_account_cases vertex tally phase with h | h
      · exact h.symm.trans hphase
      · rw [hphase] at h
        cases h
  | rejected _ reason =>
      rw [phase_violate] at hphase
      cases hphase

/-- A job that comes to blame a vertex has just counted its harm. -/
theorem Change.harmed (hchange : dag.Change signal after) (hbefore : dag.cause = .none)
    (hafter : after.cause = .vertexFailure) :
    ∃ vertex phase, signal = .vertexCompleted vertex phase ∧
      (after.ending? vertex = some .failed ∨ after.ending? vertex = some .killed) := by
  cases hchange with
  | kept | begun => cases hbefore.symm.trans hafter
  | killed =>
      rw [cause_killByUser, hbefore] at hafter
      cases hafter
  | counted vertex phase hsignal _ _ tally htally =>
      refine ⟨vertex, phase, hsignal, ?_⟩
      rw [cause_account_eq, hbefore] at hafter
      rw [ending?_account, ending?_enter htally, if_pos rfl]
      cases phase with
      | failed => exact Or.inl rfl
      | killed => exact Or.inr rfl
      | new | inited | running | succeeded | error | killWait => cases hafter
  | rejected _ reason =>
      rw [cause_violate, hbefore] at hafter
      cases hafter

end Change

/-! ### What a job knows -/

/-- The vertices of a job, in order. -/
def vertexIds (dag : Dag) : List VertexId := (List.range dag.vertexCount).map (⟨·⟩)

theorem mem_vertexIds {dag : Dag} {vertex : VertexId} :
    vertex ∈ dag.vertexIds ↔ vertex.index < dag.vertexCount := by
  rw [vertexIds, List.mem_map]
  constructor
  · rintro ⟨index, hindex, rfl⟩
    exact List.mem_range.mp hindex
  · exact fun hindex => ⟨vertex.index, List.mem_range.mpr hindex, rfl⟩

theorem endings_eq_map (dag : Dag) : dag.endings = dag.vertexIds.map dag.ending? := by
  apply List.ext_getElem
  · simp [vertexIds]
  · intro index hleft hright
    have hindex : (VertexId.mk index).index < dag.vertexCount := by rwa [length_endings] at hleft
    have hget := getElem?_endings_of_lt hindex
    rw [List.getElem?_eq_getElem hleft] at hget
    rw [Option.some.inj hget]
    simp [vertexIds]

/-- A job that has been started over some vertices, and been told so much of them since. -/
structure Informed (vertices : List VertexId) (signals : List DagSignal) (dag : Dag) : Prop where
  valid : dag.Valid
  known : dag.vertexIds = vertices
  begun : dag.phase ≠ .new ∧ dag.phase ≠ .inited ∧ dag.phase ≠ .error
  endings : ∀ vertex ∈ vertices, dag.ending? vertex = first? signals vertex
  killed : .kill ∈ signals → dag.phase ≠ .running
  unkilled : .kill ∉ signals → dag.phase ≠ .killWait
  harmed : dag.cause = .vertexFailure → ∃ vertex ∈ vertices, Harmed signals vertex
  userKill : dag.cause = .userKill ↔ KillCounts vertices signals

namespace Informed

variable {vertices : List VertexId} {signals : List DagSignal} {dag : Dag}
  (h : dag.Informed vertices signals)

include h

theorem index_lt {vertex : VertexId} (hvertex : vertex ∈ vertices) : vertex.index < dag.vertexCount :=
  mem_vertexIds.mp (h.known ▸ hvertex)

theorem live_or_ended :
    dag.Live ∨ dag.phase = .succeeded ∨ dag.phase = .failed ∨ dag.phase = .killed := by
  obtain ⟨hnew, hinited, herror⟩ := h.begun
  cases hphase : dag.phase with
  | running => exact Or.inl (Or.inl hphase)
  | killWait => exact Or.inl (Or.inr hphase)
  | succeeded | failed | killed => simp
  | new => exact absurd hphase hnew
  | inited => exact absurd hphase hinited
  | error => exact absurd hphase herror

/-- A job is live as long as a report is missing. -/
theorem live_iff : dag.Live ↔ ∃ vertex ∈ vertices, first? signals vertex = none := by
  constructor
  · intro hlive
    obtain ⟨vertex, hindex, hending⟩ := exists_of_none_mem (h.valid.alive hlive)
    have hvertex := h.known ▸ mem_vertexIds.mpr hindex
    exact ⟨vertex, hvertex, (h.endings vertex hvertex).symm.trans hending⟩
  · rintro ⟨vertex, hvertex, hnone⟩
    exact h.live_or_ended.resolve_right (h.valid.not_ended (h.index_lt hvertex)
      ((h.endings vertex hvertex).trans hnone))

/-- A job without a cause has been told of no harm. -/
theorem unharmed (hcause : dag.cause = .none) : ∀ vertex ∈ vertices, ¬ Harmed signals vertex := by
  intro vertex hvertex hharmed
  have hmem := List.mem_of_getElem? (getElem?_endings_of_lt (h.index_lt hvertex))
  have hbooks := (h.valid.unhurt hcause h.begun.2.2).2.1 _ hmem
  rw [h.endings vertex hvertex] at hbooks
  rcases hharmed with hfirst | hfirst
  · simp [hfirst] at hbooks
  · simp [hfirst] at hbooks

/-! ### What it makes of the next signal -/

section Next

variable {signal : DagSignal}

theorem killed_handle (hkill : .kill ∈ signals ++ [signal]) :
    (dag.handle signal).machine.phase ≠ .running := by
  intro hafter
  have hrunning : dag.phase = .running :=
    ((lawful_handle h.valid signal).follows.running hafter).resolve_left h.begun.2.1
  rcases List.mem_append.mp hkill with hearlier | hlast
  · exact h.killed hearlier hrunning
  · rw [← List.mem_singleton.mp hlast] at hafter
    refine phase_killByUser_ne_running dag ?_
    simpa [handle, handleKill, hrunning] using hafter

theorem unkilled_handle (hkill : .kill ∉ signals ++ [signal]) :
    (dag.handle signal).machine.phase ≠ .killWait := by
  simp only [List.mem_append, List.mem_singleton, not_or] at hkill
  intro hafter
  exact h.unkilled hkill.1 ((dag.change_handle signal).phase_eq_killWait (Ne.symm hkill.2) hafter)

variable (htells : signal.Tells vertices)

include htells

/-- Once all reports are in nothing changes any more. -/
theorem handle_of_idle (hidle : ¬ dag.Live) : dag.handle signal = .rest dag := by
  have hphase := h.live_or_ended.resolve_left hidle
  cases signal with
  | init | start => cases htells
  | kill => rcases hphase with hphase | hphase | hphase <;> simp [handle, handleKill, hphase]
  | vertexCompleted vertex phase =>
      have hcounted : dag.isCounted vertex = true := by
        rw [isCounted_iff, h.endings vertex htells.1]
        exact fun hnone => hidle (h.live_iff.mpr ⟨vertex, htells.1, hnone⟩)
      rcases hphase with hphase | hphase | hphase <;>
        simp [handle, handleVertexCompleted, hphase, hcounted]

theorem expects (hlive : dag.Live) : dag.Expects signal := by
  cases signal with
  | init | start => cases htells
  | kill => exact h.begun.1
  | vertexCompleted vertex phase =>
      obtain ⟨hvertex, hphase⟩ := htells
      refine ⟨hlive, ?_, ?_, h.index_lt hvertex⟩
      · rcases hphase with rfl | rfl | rfl <;> rfl
      · rcases hphase with rfl | rfl | rfl <;> decide

theorem begun_handle : (dag.handle signal).machine.phase ≠ .new ∧
    (dag.handle signal).machine.phase ≠ .inited ∧ (dag.handle signal).machine.phase ≠ .error := by
  have hfollows := (lawful_handle h.valid signal).follows
  refine ⟨fun hnew => h.begun.1 (hfollows.new hnew), fun hinited => ?_, ?_⟩
  · rcases hfollows.inited hinited with hnew | hinited
    · exact h.begun.1 hnew
    · exact h.begun.2.1 hinited
  · by_cases hlive : dag.Live
    · exact (dag.change_handle signal).phase_ne_error h.begun.2.2 (h.expects htells hlive)
    · rw [h.handle_of_idle htells hlive]
      exact h.begun.2.2

/-- The first report of a vertex is counted, and no other. -/
theorem endings_handle : ∀ vertex ∈ vertices,
    (dag.handle signal).machine.ending? vertex = first? (signals ++ [signal]) vertex := by
  intro vertex hvertex
  have hchange := dag.change_handle signal
  rw [first?_concat, ← h.endings vertex hvertex]
  cases signal with
  | init | start => cases htells
  | kill => rw [hchange.ending?_of_command (by simp), DagSignal.reports, Option.or_none]
  | vertexCompleted place phase =>
      rw [DagSignal.reports]
      by_cases hplace : place = vertex
      · subst hplace
        rw [if_pos rfl]
        cases hending : dag.ending? place with
        | none => exact hchange.ending?_self rfl hending (h.begun_handle htells).2.2
        | some counted => exact (lawful_handle h.valid _).follows.ending place counted hending
      · rw [if_neg hplace, Option.or_none]
        rcases hchange.ending?_cases rfl with hsame | ⟨-, hset⟩
        · exact hsame vertex
        · rw [hset vertex, if_neg (Ne.symm hplace)]

theorem harmed_handle (hafter : (dag.handle signal).machine.cause = .vertexFailure) :
    ∃ vertex ∈ vertices, Harmed (signals ++ [signal]) vertex := by
  have hchange := dag.change_handle signal
  by_cases hcause : dag.cause = .none
  · obtain ⟨vertex, phase, rfl, hending⟩ := hchange.harmed hcause hafter
    refine ⟨vertex, htells.1, ?_⟩
    rw [h.endings_handle htells vertex htells.1] at hending
    exact hending
  · rw [hchange.cause_of_set hcause] at hafter
    obtain ⟨vertex, hvertex, hharmed⟩ := h.harmed hafter
    exact ⟨vertex, hvertex, hharmed.extends (List.prefix_append signals [signal])⟩

theorem userKill_handle : (dag.handle signal).machine.cause = .userKill ↔
    KillCounts vertices (signals ++ [signal]) := by
  have hchange := dag.change_handle signal
  rw [killCounts_concat, ← h.userKill]
  by_cases hcause : dag.cause = .none
  · cases signal with
    | init | start => cases htells
    | kill =>
        rw [← h.live_iff]
        by_cases hlive : dag.Live
        -- A live job without a cause is not being killed yet, so this kill is the first cause.
        · have hrunning := hlive.resolve_right (fun hwaits => h.valid.killWait hwaits hcause)
          have hblamed : (dag.handle .kill).machine.cause = .userKill := by
            rw [handle, handleKill, hrunning]
            exact (cause_killByUser dag).trans (by rw [hcause]; rfl)
          exact iff_of_true hblamed (Or.inr ⟨rfl, hlive, h.unharmed hcause⟩)
        · rw [h.handle_of_idle htells hlive]
          simp [hcause, hlive]
    | vertexCompleted vertex phase =>
        -- A report may give a cause, but never that of a kill.
        rcases hchange.cause_cases (by simp) with hsame | ⟨hfailure, -⟩
        · simp [hsame, hcause]
        · simp [hfailure, hcause]
  · rw [hchange.cause_of_set hcause]
    refine ⟨Or.inl, fun hcounts => ?_⟩
    rcases hcounts with huser | ⟨-, -, hunharmed⟩
    · exact huser
    · cases hset : dag.cause with
      | none => exact absurd hset hcause
      | userKill => rfl
      | vertexFailure =>
          obtain ⟨vertex, hvertex, hharmed⟩ := h.harmed hset
          exact absurd hharmed (hunharmed vertex hvertex)

theorem next : (dag.handle signal).machine.Informed vertices (signals ++ [signal]) where
  valid := (lawful_handle h.valid signal).valid
  known := by
    rw [vertexIds, (lawful_handle h.valid signal).follows.vertexCount]
    exact h.known
  begun := h.begun_handle htells
  endings := h.endings_handle htells
  killed := h.killed_handle
  unkilled := h.unkilled_handle
  harmed := h.harmed_handle htells
  userKill := h.userKill_handle htells

end Next

/-! ### How it stands -/

/-- How a job stands is what the rule on positions says. -/
theorem phase_eq_outcome : dag.phase = outcome vertices signals := by
  rw [outcome]
  by_cases hpending : ∃ vertex ∈ vertices, first? signals vertex = none
  · have hlive := h.live_iff.mpr hpending
    rw [if_pos hpending]
    by_cases hkill : .kill ∈ signals
    · rw [if_pos hkill]
      exact hlive.resolve_left (h.killed hkill)
    · rw [if_neg hkill]
      exact hlive.resolve_right (h.unkilled hkill)
  · have hidle : ¬ dag.Live := fun hlive => hpending (h.live_iff.mp hlive)
    have hfinal := (h.valid.ended (h.live_or_ended.resolve_left hidle)).2
    have hall : ∀ vertex ∈ vertices, first? signals vertex ≠ none :=
      fun vertex hvertex hnone => hpending ⟨vertex, hvertex, hnone⟩
    rw [if_neg hpending, hfinal]
    simp only [killPrevails_iff hall, ← h.userKill, isSome_harmAt?_iff]
    cases hcause : dag.cause with
    | userKill => rfl
    | vertexFailure => simp [Cause.finalPhase, h.harmed hcause]
    | none => simpa [Cause.finalPhase] using h.unharmed hcause

theorem count_endings (phase : Phase) : dag.endings.count (some phase) =
    vertices.countP (fun vertex => first? signals vertex = some phase) := by
  rw [endings_eq_map, h.known, List.count, List.countP_map]
  apply List.countP_congr
  intro vertex hvertex
  simp [h.endings vertex hvertex]

/-- What a job counts are the first reports. -/
theorem counts : dag.succeeded = vertices.countP (fun vertex => first? signals vertex = some .succeeded) ∧
    dag.failed = vertices.countP (fun vertex => first? signals vertex = some .failed) ∧
    dag.killed = vertices.countP (fun vertex => first? signals vertex = some .killed) := by
  have hunerred := List.count_eq_zero.mpr (h.valid.unerred h.begun.2.2)
  rw [h.valid.succeeded, h.valid.failed, h.valid.killed, hunerred]
  exact ⟨h.count_endings .succeeded, h.count_endings .failed, h.count_endings .killed⟩

theorem run {later : List DagSignal} (htells : ∀ signal ∈ later, signal.Tells vertices) :
    (Step.run handle dag later).machine.Informed vertices (signals ++ later) := by
  induction later generalizing dag signals with
  | nil => simpa using h
  | cons signal later ih =>
      have hrest := ih (h.next (htells signal List.mem_cons_self))
        (fun other hother => htells other (List.mem_cons_of_mem signal hother))
      rw [List.append_assoc, List.singleton_append] at hrest
      exact hrest

end Informed

/-- A job that has just been started has been told nothing. -/
theorem informed_start {graph : Graph} (hsize : 0 < graph.size) (id : DagId) (name : String) :
    (Step.run handle (create id name graph) [.init, .start]).machine.Informed graph.vertexIds [] := by
  have hstart : (create id name graph).Valid := valid_create (List.length_pos_iff.mp hsize)
  have hcount : (create id name graph).vertexCount = graph.size := List.length_replicate
  have hvalid : Valid { create id name graph with phase := .running } := hstart.run [.init, .start]
  have hempty : ∀ vertex ∈ graph.vertexIds, (create id name graph).ending? vertex = none := by
    intro vertex hvertex
    obtain ⟨index, hindex, rfl⟩ := List.mem_map.mp hvertex
    have hknown : (VertexId.mk index).index < (create id name graph).vertexCount := by
      rw [hcount]
      exact List.mem_range.mp hindex
    exact (hstart.fresh (Or.inl rfl)).2 _ (List.mem_of_getElem? (getElem?_endings_of_lt hknown))
  have huncounted : ¬ KillCounts graph.vertexIds [] := by
    rintro ⟨earlier, hpre, -⟩
    simp at hpre
  show Informed graph.vertexIds [] { create id name graph with phase := .running }
  constructor
  · exact hvalid
  · show (List.range (create id name graph).vertexCount).map (⟨·⟩) = graph.vertexIds
    rw [hcount, Graph.vertexIds]
  · simp
  · exact hempty
  · simp
  · simp
  · simp [create]
  · simp [create, huncounted]

/-- The first cause wins. A job that was started is told of kills and of ends of its vertices, in any
order and with any repetitions, and stands as the rule on the positions of the first kill, the first harm
and the last report says; what it has counted are the first reports. Without a kill, and if the reports of
a vertex agree, as they do when there is one for each vertex, their order does not matter. -/
theorem first_cause_wins (graph : Graph) (hsize : 0 < graph.size) (id : DagId) (name : String)
    (signals : List DagSignal) (htells : ∀ signal ∈ signals, signal.Tells graph.vertexIds) :
    let after := fun signals => (Step.run handle (create id name graph) (.init :: .start :: signals)).machine
    let dag := after signals
    let reported := fun phase =>
      graph.vertexIds.countP (fun vertex => first? signals vertex = some phase)
    dag.phase = outcome graph.vertexIds signals ∧ dag.succeeded = reported .succeeded ∧
      dag.failed = reported .failed ∧ dag.killed = reported .killed ∧
      (.kill ∉ signals → (∀ vertex left right, .vertexCompleted vertex left ∈ signals →
          .vertexCompleted vertex right ∈ signals → left = right) →
        ∀ other, signals.Perm other → (after other).phase = dag.phase ∧
          (after other).succeeded = dag.succeeded ∧ (after other).failed = dag.failed ∧
          (after other).killed = dag.killed) := by
  intro after dag reported
  have hinformed : ∀ signals, (∀ signal ∈ signals, signal.Tells graph.vertexIds) →
      (after signals).Informed graph.vertexIds signals :=
    fun signals htells => (informed_start hsize id name).run htells
  have hdag := hinformed signals htells
  obtain ⟨hsucceeded, hfailed, hkilled⟩ := hdag.counts
  refine ⟨hdag.phase_eq_outcome, hsucceeded, hfailed, hkilled, fun hkill hagree other hperm => ?_⟩
  have hother := hinformed other (fun signal hsignal => htells signal (hperm.mem_iff.mpr hsignal))
  have hfirst : ∀ vertex, first? other vertex = first? signals vertex :=
    fun vertex => first?_of_perm hperm (hagree vertex)
  have hunkilled : .kill ∉ other := fun hmem => hkill (hperm.mem_iff.mpr hmem)
  have hcounts := hother.counts
  simp only [hfirst] at hcounts
  rw [hsucceeded, hfailed, hkilled, hother.phase_eq_outcome, hdag.phase_eq_outcome]
  exact ⟨outcome_of_unkilled hkill hunkilled hfirst, hcounts⟩

/-- The job of two vertices is killed if the kill comes before the failure of the second, and without a
kill it is all the same which of the two ends first. -/
theorem first_cause_wins_line :
    let after := fun signals =>
      (Step.run handle (create ⟨1⟩ "line" Coordinator.lineGraph) (.init :: .start :: signals)).machine
    (after [.vertexCompleted ⟨0⟩ .succeeded, .kill, .vertexCompleted ⟨1⟩ .failed]).phase = .killed ∧
      (after [.vertexCompleted ⟨1⟩ .failed, .vertexCompleted ⟨0⟩ .succeeded]).phase =
        (after [.vertexCompleted ⟨0⟩ .succeeded, .vertexCompleted ⟨1⟩ .failed]).phase := by
  intro after
  obtain ⟨hphase, -⟩ := first_cause_wins Coordinator.lineGraph (by decide) ⟨1⟩ "line"
    [.vertexCompleted ⟨0⟩ .succeeded, .kill, .vertexCompleted ⟨1⟩ .failed]
    (by simp [DagSignal.Tells, Graph.vertexIds, Coordinator.lineGraph, Graph.size])
  obtain ⟨-, -, -, -, horder⟩ := first_cause_wins Coordinator.lineGraph (by decide) ⟨1⟩ "line"
    [.vertexCompleted ⟨0⟩ .succeeded, .vertexCompleted ⟨1⟩ .failed]
    (by simp [DagSignal.Tells, Graph.vertexIds, Coordinator.lineGraph, Graph.size])
  refine ⟨hphase.trans (by decide), (horder (by decide) ?_ _ (List.Perm.swap _ _ _)).1⟩
  intro vertex left right hleft hright
  simp only [List.mem_cons, DagSignal.vertexCompleted.injEq, List.not_mem_nil, or_false] at hleft hright
  rcases hleft with ⟨rfl, rfl⟩ | ⟨rfl, rfl⟩
  · exact Eq.symm (by simpa using hright)
  · exact Eq.symm (by simpa using hright)

end JobFlow.Dag
