import JobFlow.Proofs.Operation
import JobFlow.Proofs.Outcome

/-!
The word of a job that it has succeeded. Everything that a job has heard or is about to hear of its
vertices is true, and every entry in the slots of a vertex goes back to a report that the vertex was
handed while that slot was empty. Main statement: a job is never in success without all of its tasks
being so, in no run and at no time.
-/

namespace JobFlow

namespace Situation

def Ended (situation : Situation) (id : VertexId) (phase : Phase) : Prop :=
  phase.isTerminal = true ∧
    ∃ vertex, situation.attempt.vertex? id = some vertex ∧ vertex.phase = phase

/-- What the job has counted, and what is on its way to it, is how its vertices ended. -/
structure Truthful (setting : Setting) (situation : Situation) : Prop where
  news : ∀ id phase, situation.Waits (.dag setting.id (.vertexCompleted id phase)) →
    situation.Ended id phase
  counted : ∀ id phase, situation.attempt.dag.ending? id = some phase → situation.Ended id phase

variable {setting : Setting} {situation : Situation}

theorem Truthful.send (htruthful : situation.Truthful setting) {event : Event}
    (hevent : ∀ vertex phase, event ≠ .dag setting.id (.vertexCompleted vertex phase)) :
    (situation.send [event]).Truthful setting where
  news id phase hwaits := by
    rcases waits_send.mp hwaits with hold | hsent
    · exact htruthful.news id phase hold
    · exact absurd (List.mem_singleton.mp hsent).symm (hevent id phase)
  counted := htruthful.counted

theorem Truthful.fades {after : Situation} (htruthful : situation.Truthful setting)
    (hfades : situation.Fades after) : after.Truthful setting where
  news id phase hwaits := by
    rw [Ended, hfades.attempt]
    exact htruthful.news id phase (hfades.waits hwaits)
  counted id phase hending := by
    rw [hfades.attempt] at hending
    rw [Ended, hfades.attempt]
    exact htruthful.counted id phase hending

section Take

variable {event : Event} {rest : List Event} {step : Step Attempt} (hsound : situation.Sound setting)
  (hqueue : situation.queue event.entity = event :: rest)
  (hturn : situation.attempt.Turn event step)

include hturn in
/-- A vertex that has ended stays in the phase in which it ended. -/
theorem Ended.take {id : VertexId} {phase : Phase} (hended : situation.Ended id phase) :
    (situation.take event.entity rest step).Ended id phase := by
  obtain ⟨hterminal, before, hbefore, rfl⟩ := hended
  obtain ⟨after, hafter, hfollows⟩ := hturn.follows hbefore
  exact ⟨hterminal, after, hafter, hfollows.ended hterminal⟩

include hsound hturn in
/-- The news of an end are sent by the vertex that ended. -/
theorem ended_of_sent {dag : DagId} {id : VertexId} {phase : Phase}
    (hsent : .dag dag (.vertexCompleted id phase) ∈ step.outbound) :
    (situation.take event.entity rest step).Ended id phase := by
  cases hturn with
  | dag signal published hlawful =>
      rcases Dag.mem_announcements hsent with ⟨_, _, heq, -⟩ | heq
      · cases heq
      · cases heq
  | @vertex place before hbefore signal hlawful =>
      have hplace : (before.handle signal).machine.id = place :=
        hlawful.follows.id.trans (hsound.wired.vertex_id hbefore)
      rcases Vertex.announcements_cases hsent with ⟨-, hlaunch⟩ | ⟨-, hkill⟩ | ⟨hterminal, hend⟩
      · rcases Vertex.mem_launchEvents hlaunch with heq | ⟨_, -, heq⟩ <;> cases heq
      · cases (Vertex.mem_killRequest hkill).2
      · rcases Vertex.mem_endEvents hend with heq | ⟨_, -, heq⟩
        · cases heq
          have hafter := Attempt.vertex?_set hbefore (before.handle signal).machine place
          rw [if_pos rfl] at hafter
          refine ⟨hterminal, (before.handle signal).machine, ?_, rfl⟩
          rw [hplace]
          exact hafter
        · cases heq
  | tasks hlayer place request =>
      obtain ⟨task, -, outcome, heq⟩ := TaskLayer.mem_reports hsent
      cases heq
  | finished | stray => cases hsent

include hsound hqueue hturn

theorem Truthful.take (htruthful : situation.Truthful setting) :
    (situation.take event.entity rest step).Truthful setting where
  news id phase hwaits := by
    rcases waits_of_take hqueue hwaits with hold | hsent
    · exact (htruthful.news id phase hold).take hturn
    · exact ended_of_sent hsound hturn hsent
  counted id phase hending := by
    rcases hturn.dag_cases with hsame | ⟨signal, hevent, hdag, -⟩
    · have hbefore : situation.attempt.dag.ending? id = some phase := by
        rw [← hsame]
        exact hending
      exact (htruthful.counted id phase hbefore).take hturn
    · have hafter : (situation.attempt.dag.handle signal).machine.ending? id = some phase := by
        rw [← hdag]
        exact hending
      have hchange := situation.attempt.dag.change_handle signal
      by_cases hnews : ∃ place news, signal = .vertexCompleted place news
      · obtain ⟨place, news, hsignal⟩ := hnews
        rcases hchange.ending?_cases hsignal with hkept | ⟨-, hentered⟩
        · rw [hkept] at hafter
          exact (htruthful.counted id phase hafter).take hturn
        · rw [hentered] at hafter
          split at hafter
          next heq =>
            cases hafter
            have hwaited := waits_of_cons hqueue
            rw [hevent, hsignal, hsound.wired.id, ← heq] at hwaited
            exact (htruthful.news id _ hwaited).take hturn
          next => exact (htruthful.counted id phase hafter).take hturn
      · have hcommand : ∀ place news, signal ≠ .vertexCompleted place news :=
          fun place news heq => hnews ⟨place, news, heq⟩
        rw [hchange.ending?_of_command hcommand] at hafter
        exact (htruthful.counted id phase hafter).take hturn

end Take

theorem truthful_create (setting : Setting) (layer : Option TaskLayer) : Truthful setting
    ⟨{ Attempt.create setting.id setting.plan setting.graph setting.gating with layer := layer },
      fun _ => []⟩ where
  news id phase hwaits := by cases hwaits
  counted id phase hending := by
    have hvalid : (Dag.create setting.id setting.plan.name setting.graph).Valid :=
      Dag.valid_create setting.sound.nonempty
    have hmem := List.mem_of_getElem? (Dag.ending?_eq_some_iff.mp hending)
    cases (hvalid.fresh (Or.inl rfl)).2 _ hmem

end Situation

namespace Coordinator

/-- In the course of a run a vertex was handed a report of one of its tasks, of which it had no report
yet, and filed it. -/
def Filed (start : Coordinator) (operations : List Operation) (task : TaskId)
    (outcome : TaskOutcome) : Prop :=
  ∃ earlier later, operations = earlier ++ .deliver (.vertex task.vertex) :: later ∧
    (start.through earlier).served (.deliver (.vertex task.vertex)) = [.taskCompleted task outcome] ∧
    (∃ before, (start.through earlier).attempt.vertex? task.vertex = some before ∧
      before.slots[task.index]? = some none) ∧
    ∃ after, (start.through (earlier ++ [.deliver (.vertex task.vertex)])).attempt.vertex?
      task.vertex = some after ∧ after.slots[task.index]? = some (some outcome)

theorem Filed.append {start : Coordinator} {operations : List Operation} {task : TaskId}
    {outcome : TaskOutcome} (hfiled : start.Filed operations task outcome) (more : List Operation) :
    start.Filed (operations ++ more) task outcome := by
  obtain ⟨earlier, later, rfl, hserved, hbefore, hafter⟩ := hfiled
  refine ⟨earlier, later ++ more, ?_, hserved, hbefore, hafter⟩
  rw [List.append_assoc, List.cons_append]

/-- The slots of all vertices hold nothing but what was filed in the course of a run. -/
def Documented (start : Coordinator) (operations : List Operation) (situation : Situation) : Prop :=
  ∀ task vertex, situation.attempt.vertex? task.vertex = some vertex →
    ∀ outcome, vertex.slots[task.index]? = some (some outcome) → start.Filed operations task outcome

/-- What a vertex files in a turn was filed in the run to which the turn belongs. -/
theorem Documented.take {setting : Setting} {start : Coordinator} {earlier : List Operation}
    {event : Event} {rest : List Event} {step : Step Attempt}
    (hdocumented : start.Documented earlier (start.through earlier).situation)
    (hsound : (start.through earlier).situation.Sound setting)
    (hqueue : (start.through earlier).situation.queue event.entity = event :: rest)
    (hturn : (start.through earlier).situation.attempt.Turn event step)
    (hreached : (start.through (earlier ++ [.deliver event.entity])).attempt = step.machine) :
    start.Documented (earlier ++ [.deliver event.entity])
      ((start.through earlier).situation.take event.entity rest step) := by
  intro task vertex hvertex outcome hslot
  rcases hturn.vertex_cases hvertex with hsame | ⟨before, signal, rfl, hbefore, rfl, -⟩
  · exact (hdocumented task vertex hsame outcome hslot).append _
  · have hchange := Vertex.change_handle (hsound.wired.valid _ before hbefore) signal
    rcases hchange.slots with hkept | ⟨filed, result, rfl, howns, hempty, hset⟩
    · rw [hkept] at hslot
      exact (hdocumented task before hbefore outcome hslot).append _
    · by_cases htask : filed = task
      · subst htask
        have hresult := hslot
        rw [hset, List.getElem?_set_self howns.2] at hresult
        cases hresult
        have hafter := (congrArg (·.vertex? filed.vertex) hreached).trans hvertex
        exact ⟨earlier, [], rfl, served_of_queue hqueue, ⟨before, hbefore, hempty⟩, _, hafter, hslot⟩
      · have hindex : filed.index ≠ task.index := by
          intro heq
          have hid := howns.1.trans (hsound.wired.vertex_id hbefore)
          apply htask
          calc filed = ⟨filed.vertex, filed.index⟩ := rfl
            _ = ⟨task.vertex, task.index⟩ := by rw [hid, heq]
            _ = task := rfl
        rw [hset, List.getElem?_set_ne hindex] at hslot
        exact (hdocumented task before hbefore outcome hslot).append _

section Run

variable {setting : Setting} {layer : Option TaskLayer} {start : Coordinator}
  (hfresh : start.Fresh setting layer)

include hfresh

theorem Fresh.documented (operations : List Operation) :
    start.Documented operations (start.through operations).situation := by
  refine hfresh.manned.induction (motive := start.Documented) ?_ ?_ ?_ ?_ ?_ operations
  · rw [hfresh.situation]
    intro task vertex hvertex outcome hslot
    obtain ⟨spec, -, rfl⟩ := Attempt.vertex?_create hvertex
    cases List.eq_of_mem_replicate (List.mem_of_getElem? hslot)
  · intro earlier last hearlier task vertex hvertex outcome hslot
    exact (hearlier task vertex hvertex outcome hslot).append [last]
  · intro earlier event outside hearlier task vertex hvertex outcome hslot
    exact (hearlier task vertex hvertex outcome hslot).append _
  · intro earlier event rest step hsound hqueue hturn hreached hearlier
    exact hearlier.take hsound hqueue hturn hreached
  · intro operations before after hfades hbefore task vertex hvertex
    rw [hfades.attempt] at hvertex
    exact hbefore task vertex hvertex

/-- What a job has counted is true as long as nobody else sends news in its name. -/
theorem Fresh.truthful (operations : List Operation)
    (hsends : ∀ vertex phase outside,
      Operation.send (.dag setting.id (.vertexCompleted vertex phase)) outside ∉ operations) :
    (start.through operations).situation.Truthful setting := by
  refine hfresh.manned.invariant
    (fun event => ∀ vertex phase, event ≠ .dag setting.id (.vertexCompleted vertex phase)) ?_ ?_ ?_ ?_ ?_
  · rw [hfresh.situation]
    exact Situation.truthful_create setting layer
  · exact fun situation event hallowed htruthful => htruthful.send hallowed
  · exact fun situation event rest step hsound hqueue hturn htruthful =>
      htruthful.take hsound hqueue hturn
  · exact fun before after hfades htruthful => htruthful.fades hfades
  · rintro event outside hmem vertex phase rfl
    exact hsends vertex phase outside hmem

end Run

/-- There is no false success. Whatever is sent from outside, short of news in the name of this job, in
whatever order lanes are served and whether or not the coordinator is shut down on the way: a job that
says that it succeeded has no cause to be torn down, all of its vertices have succeeded, each task of the
plan was first reported as a success, and the counters show all tasks as succeeded. -/
theorem success_is_true {id : DagId} {plan : Plan} {config : Config} {coordinator : Coordinator}
    (hsubmit : Coordinator.submit id plan config = .ok coordinator) (layer : Option TaskLayer)
    (operations : List Operation)
    (hsends : ∀ vertex phase outside,
      Operation.send (.dag id (.vertexCompleted vertex phase)) outside ∉ operations) :
    let start := coordinator.equip layer
    let reached := start.through operations
    reached.attempt.dag.phase = .succeeded →
      reached.attempt.dag.cause = .none ∧
      reached.attempt.vertices.length = plan.vertices.length ∧
      (∀ vertex ∈ reached.attempt.vertices, vertex.phase = .succeeded) ∧
      (∀ task, plan.HasTask task → start.Filed operations task .succeeded ∧
        ∃ vertex, reached.attempt.vertex? task.vertex = some vertex ∧
          vertex.slots[task.index]? = some (some .succeeded)) ∧
      reached.attempt.progress = .complete plan.taskTotal := by
  obtain ⟨setting, rfl, rfl, -, hfresh⟩ := fresh_of_submit hsubmit layer
  intro start reached hphase
  have hwired := (hfresh.manned.through operations).sound.wired
  have htruthful := hfresh.truthful operations hsends
  have hall : ∀ vertexId vertex, reached.attempt.vertex? vertexId = some vertex →
      vertex.phase = .succeeded := by
    intro vertexId vertex hvertex
    have hending := hwired.dag.ending?_of_succeeded hphase (hwired.index_lt_vertexCount hvertex)
    obtain ⟨-, ended, hended, hsucceeded⟩ := htruthful.counted vertexId .succeeded hending
    cases hvertex.symm.trans hended
    exact hsucceeded
  refine ⟨hwired.dag.cause_of_succeeded hphase, hwired.length.trans setting.size, ?_, ?_,
    hwired.progress_of_succeeded hall⟩
  · intro vertex hmem
    obtain ⟨vertexId, hvertex⟩ := Attempt.exists_id_of_mem hmem
    exact hall vertexId vertex hvertex
  · rintro task ⟨spec, hspec, hindex⟩
    have hlt : task.vertex.index < setting.graph.size := by
      rw [setting.size]
      exact (List.getElem?_eq_some_iff.mp hspec).1
    obtain ⟨vertex, hvertex⟩ := hwired.exists_vertex task.vertex hlt
    obtain ⟨_, hsame, hlength, -⟩ := hwired.vertex_length hvertex
    cases hspec.symm.trans hsame
    have hslots := ((hwired.valid _ vertex hvertex).allSucceeded (hall _ vertex hvertex)).2
    rw [← hlength] at hindex
    have hslot : vertex.slots[task.index]? = some (some .succeeded) := by
      rw [List.getElem?_eq_getElem hindex, hslots _ (List.getElem_mem hindex)]
    exact ⟨hfresh.documented operations task vertex hvertex .succeeded hslot, vertex, hvertex, hslot⟩

/-- A run of the job of two vertices, whose first task is reported twice more as a failure and whose
coordinator is shut down in the end. -/
def lineRumour : List Operation :=
  let failure := Operation.send (.taskCompleted ⟨⟨0⟩, 0⟩ .failed) none
  (lineRun 3).map Move.operation ++ [failure, failure] ++
    (List.replicate 3 lineLanes).flatten.map Operation.deliver ++ [.refuse, .close]

/-- The rumour changes nothing: both tasks were first reported as successes. -/
theorem success_is_true_line :
    ((line.equip (some { completes := true })).through lineRumour).attempt.dag.phase = .succeeded ∧
      (line.equip (some { completes := true })).Filed lineRumour ⟨⟨0⟩, 0⟩ .succeeded ∧
      (line.equip (some { completes := true })).Filed lineRumour ⟨⟨1⟩, 0⟩ .succeeded ∧
      ((line.equip (some { completes := true })).through lineRumour).attempt.progress =
        .complete 2 := by
  have hsends : ∀ vertex phase outside,
      Operation.send (.dag ⟨1⟩ (.vertexCompleted vertex phase)) outside ∉ lineRumour := by
    simp [lineRumour, lineRun, Move.operation, Event.taskCompleted]
  have hphase : ((line.equip (some { completes := true })).through lineRumour).attempt.dag.phase =
      .succeeded := by decide +kernel
  have hsuccess :=
    success_is_true submit_line (some { completes := true }) lineRumour hsends hphase
  have htasks := hsuccess.2.2.2.1
  exact ⟨hphase, (htasks ⟨⟨0⟩, 0⟩ (by decide)).1, (htasks ⟨⟨1⟩, 0⟩ (by decide)).1,
    hsuccess.2.2.2.2⟩

end Coordinator

end JobFlow
