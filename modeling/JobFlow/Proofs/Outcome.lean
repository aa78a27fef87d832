import Mathlib.Algebra.GroupWithZero.Nat
import Mathlib.Data.List.Nodup
import JobFlow.Proofs.DeadlockFreedom
import JobFlow.Proofs.FullRun

/-!
The outcome of a full run. In whatever order lanes are served, the job is over once nothing waits, the
owner was told so once, and without a kill the end depends on nothing but the tasks that are set to fail.
A job that succeeded has run every task of its plan once and stopped none.
-/

namespace JobFlow

/-- The number of tasks of a plan. -/
def Plan.taskTotal (plan : Plan) : Nat := (plan.vertices.map (·.taskCount)).sum

namespace Attempt

/-- A job that is over, as it should be after a full run. -/
structure Concluded (id : DagId) (plan : Plan) (attempt : Attempt) : Prop where
  terminal : attempt.dag.phase.isTerminal = true
  unerred : attempt.dag.phase ≠ .error
  phase : attempt.dag.phase = attempt.dag.cause.finalPhase
  completed : attempt.dag.completedCount = plan.vertices.length
  length : attempt.vertices.length = plan.vertices.length
  vertices : ∀ vertex ∈ attempt.vertices, vertex.phase.isTerminal = true
  told : attempt.finished = [(id, attempt.dag.phase)]

/-- A job that has run every task of its plan with success. -/
structure Accomplished (plan : Plan) (attempt : Attempt) : Prop where
  vertices : ∀ vertex ∈ attempt.vertices, vertex.phase = .succeeded ∧ vertex.diagnostics = []
  records : ∃ layer, attempt.layer = some layer ∧ layer.scheduled.Nodup ∧
    (∀ task, task ∈ layer.scheduled ↔ plan.HasTask task) ∧ layer.killed = []
  progress : attempt.progress = ⟨plan.taskTotal, plan.taskTotal, 0, 0, 0⟩
  diagnostics : attempt.dag.diagnostics = []

theorem exists_id_of_mem {attempt : Attempt} {vertex : Vertex} (hmem : vertex ∈ attempt.vertices) :
    ∃ id, attempt.vertex? id = some vertex := by
  obtain ⟨index, hindex⟩ := List.mem_iff_getElem?.mp hmem
  exact ⟨⟨index⟩, hindex⟩

end Attempt

/-! ### Counters -/

/-- The counters of a vertex all of whose tasks succeeded. -/
def Progress.complete (count : Nat) : Progress := ⟨count, count, 0, 0, 0⟩

theorem Progress.foldl_add_complete (counts : List Nat) (start : Progress) :
    (counts.map complete).foldl add start =
      { start with
        total := start.total + counts.sum
        succeeded := start.succeeded + counts.sum } := by
  induction counts generalizing start with
  | nil => rfl
  | cons count rest ih =>
      rw [List.map_cons, List.foldl_cons, ih, List.sum_cons]
      simp only [add, complete, Nat.add_assoc, Nat.add_zero]

theorem Progress.sum_complete (counts : List Nat) :
    sum (counts.map complete) = complete counts.sum := by
  rw [sum, foldl_add_complete]
  simp only [complete, Nat.zero_add]

theorem Vertex.Valid.progress_of_succeeded {vertex : Vertex} (hvalid : vertex.Valid)
    (hphase : vertex.phase = .succeeded) : vertex.progress = .complete vertex.progress.total := by
  obtain ⟨hlaunched, hslots⟩ := hvalid.allSucceeded hphase
  have hreplicate : vertex.slots = List.replicate vertex.slots.length (some .succeeded) :=
    List.eq_replicate_iff.mpr ⟨rfl, hslots⟩
  have hcount : ∀ slot, vertex.slots.count slot =
      if (some TaskOutcome.succeeded == slot) = true then vertex.slots.length else 0 := by
    intro slot
    conv_lhs => rw [hreplicate]
    exact List.count_replicate
  have hsucceeded := hvalid.succeeded
  have hrunning := hvalid.running
  have hfailed := hvalid.failed
  have hkilled := hvalid.killed
  rw [hlaunched, if_pos rfl] at hrunning
  rw [hcount] at hsucceeded hrunning hfailed hkilled
  rw [← hvalid.total] at hsucceeded
  cases hprogress : vertex.progress with
  | mk total succeeded running failed killed =>
      rw [hprogress] at hsucceeded hrunning hfailed hkilled
      simp only [Progress.complete, Progress.mk.injEq, true_and]
      exact ⟨hsucceeded, hrunning, hfailed, hkilled⟩

/-- With every vertex succeeded, the counters show every task of the plan as succeeded. -/
theorem Attempt.Wired.progress_of_succeeded {setting : Setting} {attempt : Attempt}
    (hwired : attempt.Wired setting)
    (hall : ∀ id vertex, attempt.vertex? id = some vertex → vertex.phase = .succeeded) :
    attempt.progress = .complete setting.plan.taskTotal := by
  have hcounters : attempt.vertices.map (·.progress) =
      (setting.plan.vertices.map (·.taskCount)).map .complete := by
    apply List.ext_getElem?
    intro index
    rw [List.map_map, List.getElem?_map, List.getElem?_map]
    by_cases hindex : index < setting.graph.size
    · obtain ⟨vertex, hvertex⟩ := hwired.exists_vertex ⟨index⟩ hindex
      obtain ⟨spec, hspec, -, htotal⟩ := hwired.vertex_length hvertex
      have hsucceeded := hall ⟨index⟩ vertex hvertex
      have hprogress := (hwired.valid _ _ hvertex).progress_of_succeeded hsucceeded
      rw [htotal] at hprogress
      rw [show attempt.vertices[index]? = some vertex from hvertex,
        show setting.plan.vertices[index]? = some spec from hspec]
      exact congrArg some hprogress
    · have hlength := Nat.not_lt.mp hindex
      rw [List.getElem?_eq_none (by rwa [hwired.length]),
        List.getElem?_eq_none (by rwa [← setting.size])]
      rfl
  rw [progress, hcounters, Progress.sum_complete, Plan.taskTotal]

theorem Vertex.nodup_tasks (vertex : Vertex) : vertex.tasks.Nodup := by
  rw [tasks]
  refine List.Nodup.map ?_ List.nodup_range
  intro first second heq
  exact congrArg TaskId.index heq

/-! ### When nothing waits -/

namespace Situation

variable {setting : Setting} {situation : Situation} {told : List DagSignal} {heard : List Event}
  {failing : List TaskId} (hsound : situation.Sound setting)
  (hconduct : situation.Conduct setting told heard)
  (hrehearsed : situation.Rehearsed setting failing) (hquiet : situation.Quiet)

include hquiet

theorem pick_of_quiet {β : Type} (entity : Entity) (select : Event → Option β) :
    situation.pick entity select = [] := by
  rw [pick, hquiet entity]
  rfl

theorem not_waits_of_quiet {event : Event} : ¬ situation.Waits event := fun hwaits =>
  hwaits.ne_nil (hquiet _)

include hconduct in
/-- A job that was told to start has taken up both of the first commands. -/
theorem Conduct.begun (htold : 2 ≤ told.length) :
    situation.attempt.dag.phase ≠ .new ∧ situation.attempt.dag.phase ≠ .inited := by
  have hnothing : situation.commands setting.id = [] := pick_of_quiet hquiet _ _
  constructor
  · intro hnew
    rw [hconduct.commanded.new hnew, hnothing] at htold
    cases htold
  · intro hinited
    rw [hconduct.commanded.inited hinited, hnothing] at htold
    exact absurd htold (by decide)

include hsound hrehearsed in
/-- No vertex waits for a report, since the layer has given every report. -/
theorem Rehearsed.not_busy {id : VertexId} {vertex : Vertex}
    (hvertex : situation.attempt.vertex? id = some vertex) :
    ¬ (vertex.phase = .running ∨ vertex.phase = .killWait) := by
  intro hbusy
  have hvalid := hsound.wired.valid id vertex hvertex
  obtain ⟨hlaunched, hrunning⟩ := hvalid.live hbusy
  obtain ⟨task, htask⟩ := List.exists_mem_of_ne_nil _
    (hvalid.toTallied.unreported_ne_nil hlaunched hrunning)
  rcases hrehearsed.served.pending id vertex hvertex hlaunched task htask with
    ⟨tasks, resource, -, hwaits⟩ | ⟨outcome, hwaits⟩
  · exact not_waits_of_quiet hquiet hwaits
  · exact not_waits_of_quiet hquiet hwaits

include hsound hconduct hrehearsed

theorem Rehearsed.ended (htold : 2 ≤ told.length) : situation.attempt.dag.phase = .succeeded ∨
    situation.attempt.dag.phase = .failed ∨ situation.attempt.dag.phase = .killed := by
  obtain ⟨hnew, hinited⟩ := hconduct.begun hquiet htold
  have hsettled : ¬ (situation.attempt.dag.phase = .running ∨
      situation.attempt.dag.phase = .killWait) := by
    intro hlive
    obtain ⟨id, vertex, hvertex, hbusy⟩ :=
      exists_busy hsound hconduct.accounted hrehearsed.promises hquiet hlive
    exact hrehearsed.not_busy hsound hquiet hvertex hbusy
  have herror := hconduct.unerred.dag
  cases hphase : situation.attempt.dag.phase with
  | succeeded => exact Or.inl rfl
  | failed => exact Or.inr (Or.inl rfl)
  | killed => exact Or.inr (Or.inr rfl)
  | new => exact absurd hphase hnew
  | inited => exact absurd hphase hinited
  | running => exact absurd (Or.inl hphase) hsettled
  | killWait => exact absurd (Or.inr hphase) hsettled
  | error => exact absurd hphase herror

theorem Rehearsed.concluded (htold : 2 ≤ told.length) :
    situation.attempt.Concluded setting.id setting.plan := by
  have hwired := hsound.wired
  have hover := hrehearsed.ended hsound hconduct hquiet htold
  obtain ⟨hcounted, hphase⟩ := hwired.dag.ended hover
  have hterminal : situation.attempt.dag.phase.isTerminal = true := by
    rcases hover with h | h | h <;> rw [h] <;> rfl
  refine ⟨hterminal, hconduct.unerred.dag, hphase, ?_, hwired.length.trans setting.size, ?_, ?_⟩
  · have hall : situation.attempt.dag.endings.countP (·.isSome) =
        situation.attempt.dag.endings.length := by
      rw [List.countP_eq_length]
      intro ending hending
      cases ending with
      | none => exact absurd hending hcounted
      | some phase => rfl
    rw [hwired.dag.toCounted.completedCount, hall, Dag.length_endings, hwired.vertexCount, setting.size]
  · intro vertex hmem
    obtain ⟨id, hvertex⟩ := Attempt.exists_id_of_mem hmem
    have hending := hconduct.accounted.ending?_eq_ended? hquiet hconduct.unerred.dag hvertex
    cases hlive : vertex.phase.isTerminal with
    | true => rfl
    | false =>
        rw [Vertex.ended?_of_live hlive, Dag.ending?_eq_none_iff] at hending
        · exact absurd (List.mem_of_getElem? hending) hcounted
        · rw [hwired.vertexCount]
          exact hwired.index_lt hvertex
  · have htold := hrehearsed.notified.told
    rw [hwired.dag.ownerTold, hterminal, if_pos rfl] at htold
    rwa [show situation.notifications setting.id = [] from pick_of_quiet hquiet _ _,
      List.append_nil] at htold

end Situation

/-- A job that succeeded has no cause to be torn down. -/
theorem Dag.Valid.cause_of_succeeded {dag : Dag} (hvalid : dag.Valid)
    (hphase : dag.phase = .succeeded) : dag.cause = .none := by
  have hfinal := (hvalid.ended (Or.inl hphase)).2
  rw [hphase] at hfinal
  cases hcause : dag.cause with
  | none => rfl
  | userKill | vertexFailure =>
      rw [hcause] at hfinal
      cases hfinal

/-- A job that succeeded has counted the success of each of its vertices. -/
theorem Dag.Valid.ending?_of_succeeded {dag : Dag} (hvalid : dag.Valid)
    (hphase : dag.phase = .succeeded) {id : VertexId} (hindex : id.index < dag.vertexCount) :
    dag.ending? id = some .succeeded := by
  have hcounted := (hvalid.ended (Or.inl hphase)).1
  have hbooks := hvalid.unhurt (hvalid.cause_of_succeeded hphase) (by simp [hphase])
  have hmem := List.mem_of_getElem? (getElem?_endings_of_lt hindex)
  rcases hbooks.2.1 _ hmem with hnone | hsucceeded
  · exact absurd (hnone ▸ hmem) hcounted
  · exact hsucceeded

namespace Situation

variable {setting : Setting} {situation : Situation} {told : List DagSignal} {heard : List Event}
  {failing : List TaskId} (hsound : situation.Sound setting)
  (hconduct : situation.Conduct setting told heard)
  (hrehearsed : situation.Rehearsed setting failing) (hquiet : situation.Quiet)
  (hphase : situation.attempt.dag.phase = .succeeded)

include hsound hconduct hquiet hphase

/-- If the job succeeded, every vertex did. -/
theorem Conduct.all_succeeded {id : VertexId} {vertex : Vertex}
    (hvertex : situation.attempt.vertex? id = some vertex) : vertex.phase = .succeeded := by
  have hwired := hsound.wired
  have herror := hconduct.unerred.dag
  have hending := hwired.dag.ending?_of_succeeded hphase (hwired.index_lt_vertexCount hvertex)
  rw [hconduct.accounted.ending?_eq_ended? hquiet herror hvertex, Vertex.ended?] at hending
  split at hending
  · exact Option.some.inj hending
  · cases hending

theorem Conduct.progress_eq : situation.attempt.progress = .complete setting.plan.taskTotal :=
  hsound.wired.progress_of_succeeded (fun _ _ => hconduct.all_succeeded hsound hquiet hphase)

include hrehearsed

theorem Rehearsed.records : ∃ layer, situation.attempt.layer = some layer ∧ layer.scheduled.Nodup ∧
    (∀ task, task ∈ layer.scheduled ↔ setting.plan.HasTask task) ∧ layer.killed = [] := by
  have hwired := hsound.wired
  obtain ⟨layer, hlayer, -⟩ := hrehearsed.served.layer
  have hfilter : ∀ id vertex, situation.attempt.vertex? id = some vertex →
      layer.scheduled.filter (·.vertex = id) = vertex.tasks := by
    intro id vertex hvertex
    have hsucceeded := hconduct.all_succeeded hsound hquiet hphase hvertex
    have hscheduled := hrehearsed.recorded.scheduled layer hlayer id vertex hvertex
    rw [if_pos ((hwired.valid id vertex hvertex).allSucceeded hsucceeded).1, requested,
      pick_of_quiet hquiet, List.flatten_nil, List.append_nil] at hscheduled
    exact hscheduled
  refine ⟨layer, hlayer, ?_, fun task => ⟨fun hmem => ?_, ?_⟩, ?_⟩
  · rw [List.nodup_iff_count_le_one]
    intro task
    by_cases hmem : task ∈ layer.scheduled
    · obtain ⟨vertex, hvertex, -⟩ := hrehearsed.recorded.known layer hlayer task hmem
      have hcount := List.nodup_iff_count_le_one.mp vertex.nodup_tasks task
      have hown : decide (task.vertex = task.vertex) = true := decide_eq_true rfl
      rwa [← hfilter task.vertex vertex hvertex,
        List.count_filter (p := fun other : TaskId => decide (other.vertex = task.vertex)) hown] at hcount
    · rw [List.count_eq_zero.mpr hmem]
      exact Nat.zero_le 1
  · exact hwired.hasTask_of_scheduled (hrehearsed.recorded.known layer hlayer task hmem)
  · rintro ⟨spec, hspec, hindex⟩
    have hlt := (List.getElem?_eq_some_iff.mp hspec).1
    rw [← setting.size] at hlt
    obtain ⟨vertex, hvertex⟩ := hwired.exists_vertex task.vertex hlt
    obtain ⟨other, hother, hlength, -⟩ := hwired.vertex_length hvertex
    cases hother.symm.trans hspec
    have hmem : task ∈ vertex.tasks := by
      rw [Vertex.mem_tasks (hwired.valid _ _ hvertex).total]
      exact ⟨(hwired.vertex_id hvertex).symm, by rwa [hlength]⟩
    rw [← hfilter task.vertex vertex hvertex] at hmem
    exact List.mem_of_mem_filter hmem
  · rw [List.eq_nil_iff_forall_not_mem]
    intro task htask
    obtain ⟨vertex, hvertex, hstopping⟩ := hrehearsed.recorded.killed layer hlayer task htask
    rw [hconduct.all_succeeded hsound hquiet hphase hvertex] at hstopping
    cases hstopping

theorem Rehearsed.accomplished : situation.attempt.Accomplished setting.plan where
  vertices := by
    intro vertex hmem
    obtain ⟨id, hvertex⟩ := Attempt.exists_id_of_mem hmem
    have hsucceeded := hconduct.all_succeeded hsound hquiet hphase hvertex
    refine ⟨hsucceeded, (hsound.wired.valid id vertex hvertex).clean ?_⟩
    exact Or.inr (Or.inr (Or.inr hsucceeded))
  records := hrehearsed.records hsound hconduct hquiet hphase
  progress := hconduct.progress_eq hsound hquiet hphase
  diagnostics :=
    (hsound.wired.dag.unhurt (hsound.wired.dag.cause_of_succeeded hphase) hconduct.unerred.dag).2.2

end Situation

namespace Coordinator

section Unkilled

variable {setting : Setting} {failing : List TaskId} {acknowledges : Bool} {coordinator : Coordinator}
  (hfresh : coordinator.Fresh setting (some (.rehearsal failing acknowledges))) {moves : List Move}
  (hsends : moves.filterMap Move.sent? = (fullRun 0).map (Event.dag setting.id))
  (hconcluded : (coordinator.after moves).attempt.Concluded setting.id setting.plan)

include hfresh hsends hconcluded

theorem Fresh.succeeded_of_unkilled (hfailing : ∀ task ∈ failing, ¬ setting.plan.HasTask task) :
    (coordinator.after moves).attempt.dag.phase = .succeeded := by
  have hsmooth := hfresh.smooth hsends hfailing (List.prefix_refl moves)
  have hcause : (coordinator.after moves).attempt.dag.cause = .none := hsmooth.cause
  rw [hconcluded.phase, hcause]
  rfl

/-- A task that fails keeps its vertex from succeeding, and the job with it. -/
theorem Fresh.failed_of_unkilled (hquiet : (coordinator.after moves).situation.Quiet)
    {task : TaskId} (hfails : task ∈ failing) (htask : setting.plan.HasTask task) :
    (coordinator.after moves).attempt.dag.phase = .failed := by
  have hbegins := List.prefix_refl moves
  have hsound := hfresh.sound moves
  have hwired := hsound.wired
  have hunkilled : (coordinator.after moves).attempt.dag.cause ≠ .userKill :=
    (hfresh.spared hsends hbegins).cause
  have hphase := hconcluded.phase
  cases hcause : (coordinator.after moves).attempt.dag.cause with
  | userKill => exact absurd hcause hunkilled
  | vertexFailure =>
      rw [hphase, hcause]
      rfl
  | none =>
      exfalso
      rw [hcause] at hphase
      obtain ⟨spec, hspec, hindex⟩ := htask
      have hlt := (List.getElem?_eq_some_iff.mp hspec).1
      rw [← setting.size] at hlt
      obtain ⟨vertex, hvertex⟩ := hwired.exists_vertex task.vertex hlt
      obtain ⟨other, hother, hlength, -⟩ := hwired.vertex_length hvertex
      cases hother.symm.trans hspec
      have hsucceeded := (hfresh.conduct_of_earlier hsends hbegins).1.all_succeeded hsound hquiet hphase
        hvertex
      have hslots := ((hwired.valid _ _ hvertex).allSucceeded hsucceeded).2
      have hslot : vertex.slots[task.index]? = some (some .succeeded) := by
        rw [← hlength] at hindex
        rw [List.getElem?_eq_getElem hindex]
        exact congrArg some (hslots _ (List.getElem_mem hindex))
      exact (hfresh.rehearsed hsends hbegins).honest.slots _ vertex hvertex _ hslot hfails

end Unkilled

/-- In whatever order lanes are served, a job that was initialised, started and then killed any number of
times is over once nothing waits. If nobody killed it, it succeeded when none of its tasks was set to
fail and failed otherwise; and a job that succeeded has run every task once. -/
theorem run_outcome {id : DagId} {plan : Plan} {config : Config} {coordinator : Coordinator}
    (hsubmit : Coordinator.submit id plan config = .ok coordinator) (failing : List TaskId)
    (acknowledges : Bool) (kills : Nat) (moves : List Move)
    (hsends : moves.filterMap Move.sent? = (fullRun kills).map (Event.dag id)) :
    let reached := (coordinator.equip (some (.rehearsal failing acknowledges))).after moves
    reached.situation.Quiet →
      reached.attempt.Concluded id plan ∧
      (kills = 0 → (∀ task ∈ failing, ¬ plan.HasTask task) →
        reached.attempt.dag.phase = .succeeded) ∧
      (kills = 0 → (∃ task ∈ failing, plan.HasTask task) → reached.attempt.dag.phase = .failed) ∧
      (reached.attempt.dag.phase = .succeeded → reached.attempt.Accomplished plan) := by
  obtain ⟨setting, rfl, rfl, -, hfresh⟩ :=
    fresh_of_submit hsubmit (some (.rehearsal failing acknowledges))
  intro reached hquiet
  have hsound := hfresh.sound moves
  have hbegins := List.prefix_refl moves
  have hconduct := (hfresh.conduct_of_earlier hsends hbegins).1
  have hrehearsed := hfresh.rehearsed hsends hbegins
  rw [commands_of_fullRun hsends] at hconduct
  have hconcluded : reached.attempt.Concluded setting.id setting.plan :=
    hrehearsed.concluded hsound hconduct hquiet (by simp [fullRun])
  refine ⟨hconcluded, ?_, ?_, hrehearsed.accomplished hsound hconduct hquiet⟩
  · rintro rfl hfailing
    exact hfresh.succeeded_of_unkilled hsends hconcluded hfailing
  · rintro rfl ⟨task, hfails, htask⟩
    exact hfresh.failed_of_unkilled hsends hconcluded hquiet hfails htask

/-- The job of two vertices, with no task that fails and with a first task that does. -/
theorem run_outcome_line :
    let smooth := (line.equip (some (.rehearsal [] true))).after (lineRun 6)
    let failing := (line.equip (some (.rehearsal [⟨⟨0⟩, 0⟩] true))).after (lineRun 6)
    (smooth.attempt.Concluded ⟨1⟩ (.chain 2 1) ∧ smooth.attempt.dag.phase = .succeeded ∧
      smooth.attempt.Accomplished (.chain 2 1)) ∧
    failing.attempt.Concluded ⟨1⟩ (.chain 2 1) ∧ failing.attempt.dag.phase = .failed := by
  dsimp only
  have hsends : (lineRun 6).filterMap Move.sent? = (fullRun 0).map (Event.dag ⟨1⟩) := by decide
  have hsmooth : ((line.equip (some (.rehearsal [] true))).after (lineRun 6)).situation.Quiet :=
    quiet_of_queued (by decide)
  have hfailing : ((line.equip (some (.rehearsal [⟨⟨0⟩, 0⟩] true))).after (lineRun 6)).situation.Quiet :=
    quiet_of_queued (by decide)
  obtain ⟨hconcluded, hsucceeds, -, haccomplished⟩ :=
    run_outcome submit_line [] true 0 (lineRun 6) hsends hsmooth
  obtain ⟨hover, -, hfails, -⟩ :=
    run_outcome submit_line [⟨⟨0⟩, 0⟩] true 0 (lineRun 6) hsends hfailing
  have hsucceeded := hsucceeds rfl (fun task htask => absurd htask List.not_mem_nil)
  refine ⟨⟨hconcluded, hsucceeded, haccomplished hsucceeded⟩, hover, hfails rfl ?_⟩
  exact ⟨⟨⟨0⟩, 0⟩, List.mem_cons_self, by decide⟩

end Coordinator

end JobFlow
