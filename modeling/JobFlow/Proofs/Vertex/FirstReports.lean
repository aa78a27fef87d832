import JobFlow.Proofs.Run
import JobFlow.Proofs.Vertex.Correspondence
import JobFlow.Proofs.Vertex.TaskReports

/-!
The first reports decide. A vertex that runs and is told of kills and of the ends of its tasks counts the
first report of each task, and the first of a kill, a failure and the last report to reach it while it runs
decides how it ends. Main statement: the ending of the vertex and its counters, in closed form.
-/

namespace JobFlow

namespace TaskReports

variable {tasks : List TaskId} {signals : List VertexSignal} {task : TaskId}

/-- A further report of a task changes no first report. -/
theorem first?_of_repeated (hrepeated : first? signals task ≠ none) (outcome : TaskOutcome)
    (other : TaskId) : first? (signals ++ [.taskCompleted task outcome]) other = first? signals other := by
  rw [first?_concat, VertexSignal.reports]
  by_cases hother : task = other
  · obtain ⟨first, hfirst⟩ := Option.ne_none_iff_exists'.mp hrepeated
    rw [if_pos hother, ← hother, hfirst, Option.some_or]
  · rw [if_neg hother, Option.or_none]

/-- The first report of a task settles this task and no other. -/
theorem first?_of_fresh (hfresh : first? signals task = none) (outcome : TaskOutcome) (other : TaskId) :
    first? (signals ++ [.taskCompleted task outcome]) other =
      if task = other then some outcome else first? signals other := by
  rw [first?_concat, VertexSignal.reports]
  by_cases hother : task = other
  · rw [if_pos hother, if_pos hother, ← hother, hfresh, Option.none_or]
  · rw [if_neg hother, if_neg hother, Option.or_none]

theorem standing_of_eq {other : List VertexSignal} (hfirst : ∀ task, first? other task = first? signals task) :
    standing tasks other = standing tasks signals := by
  unfold standing
  simp only [hfirst]

theorem standing_cases (tasks : List TaskId) (signals : List VertexSignal) :
    standing tasks signals = .running ∨ (standing tasks signals).isTerminal = true := by
  unfold standing
  split
  · exact Or.inr rfl
  · split
    · exact Or.inl rfl
    · split <;> exact Or.inr rfl

theorem tally_of_eq {other : List VertexSignal} (hfirst : ∀ task, first? other task = first? signals task) :
    tally tasks other = tally tasks signals := by
  unfold tally
  simp only [hfirst]

end TaskReports

namespace Vertex

open TaskReports

/-- A vertex that has launched some tasks, and been told so much of them since. -/
structure Informed (tasks : List TaskId) (signals : List VertexSignal) (vertex : Vertex) : Prop where
  valid : vertex.Valid
  known : vertex.tasks = tasks
  launched : vertex.launched = true
  unerred : vertex.phase ≠ .error
  slots : ∀ task ∈ tasks, vertex.slots[task.index]? = some (first? signals task)

namespace Informed

variable {tasks : List TaskId} {signals : List VertexSignal} {vertex : Vertex} {task : TaskId}
  (h : vertex.Informed tasks signals)

include h

theorem owns (htask : task ∈ tasks) : vertex.Owns task :=
  (mem_tasks h.valid.total task).mp (h.known ▸ htask)

/-! ### What it has counted -/

theorem slots_eq_map : vertex.slots = tasks.map (first? signals) := by
  have hlength : vertex.slots.length = tasks.length := by
    rw [← h.known, Vertex.tasks, List.length_map, List.length_range, h.valid.total]
  apply List.ext_getElem
  · rw [List.length_map, hlength]
  · intro index hleft hright
    have hindex : index < tasks.length := hlength ▸ hleft
    have hget : tasks[index].index = index := by
      simp [← h.known, Vertex.tasks]
    have hslot := h.slots tasks[index] (List.getElem_mem hindex)
    rw [hget, List.getElem?_eq_getElem hleft] at hslot
    rw [List.getElem_map]
    exact Option.some.inj hslot

theorem count_slots (slot : Option TaskOutcome) :
    vertex.slots.count slot = tasks.countP (fun task => first? signals task = slot) := by
  rw [h.slots_eq_map, List.count, List.countP_map]
  apply List.countP_congr
  intro task htask
  simp

/-- What a vertex counts are the first reports. -/
theorem progress_eq : vertex.progress = tally tasks signals := by
  have htotal : vertex.progress.total = tasks.length := by
    rw [h.valid.total, h.slots_eq_map, List.length_map]
  have hrunning := h.valid.running
  rw [h.launched, if_pos rfl] at hrunning
  calc vertex.progress
      = ⟨vertex.progress.total, vertex.progress.succeeded, vertex.progress.running,
          vertex.progress.failed, vertex.progress.killed⟩ := rfl
    _ = tally tasks signals := by
        rw [htotal, h.valid.succeeded, hrunning, h.valid.failed, h.valid.killed]
        simp only [h.count_slots]
        rfl

theorem running_eq_zero_iff :
    vertex.progress.running = 0 ↔ ∀ task ∈ tasks, first? signals task ≠ none := by
  rw [h.progress_eq, tally]
  simp

theorem succeeded_eq_total_iff : vertex.progress.succeeded = vertex.progress.total ↔
    ∀ task ∈ tasks, first? signals task = some .succeeded := by
  rw [h.progress_eq, tally]
  simp [List.countP_eq_length]

/-- Where no task has failed, the counters tell how the vertex stands. -/
theorem standing_of_unfailed (hunfailed : ¬ ∃ task ∈ tasks, first? signals task = some .failed) :
    standing tasks signals = if vertex.progress.succeeded = vertex.progress.total then .succeeded
      else if vertex.progress.running = 0 then .killed else .running := by
  rw [standing, if_neg hunfailed]
  simp only [h.succeeded_eq_total_iff, h.running_eq_zero_iff]
  by_cases hpending : ∃ task ∈ tasks, first? signals task = none
  · obtain ⟨task, htask, hnone⟩ := hpending
    rw [if_pos ⟨task, htask, hnone⟩, if_neg, if_neg]
    · exact fun hall => hall task htask hnone
    · intro hall
      cases hnone.symm.trans (hall task htask)
  · have hall : ∀ task ∈ tasks, first? signals task ≠ none :=
      fun task htask hnone => hpending ⟨task, htask, hnone⟩
    rw [if_neg hpending, if_pos hall]
    by_cases hkilled : ∃ task ∈ tasks, first? signals task = some .killed
    · obtain ⟨task, htask, hfirst⟩ := hkilled
      rw [if_pos ⟨task, htask, hfirst⟩, if_neg]
      intro hall
      cases hfirst.symm.trans (hall task htask)
    · rw [if_neg hkilled, if_pos]
      intro task htask
      cases hfirst : first? signals task with
      | none => exact absurd hfirst (hall task htask)
      | some outcome =>
          cases outcome with
          | succeeded => rfl
          | failed => exact absurd ⟨task, htask, hfirst⟩ hunfailed
          | killed => exact absurd ⟨task, htask, hfirst⟩ hkilled

/-! ### What it makes of the next signal -/

theorem expects {signal : VertexSignal} (htells : signal.Tells tasks) : vertex.Expects signal := by
  cases signal with
  | kill => trivial
  | taskCompleted task outcome => exact ⟨h.owns htells, h.launched⟩
  | init | start | sourceStarted | sourceSucceeded => cases htells

/-- The first report of a task is filed, and any other is left alone. -/
theorem report_cases (htask : task ∈ tasks) {outcome : TaskOutcome} {after : Vertex}
    (hchange : vertex.Change (.taskCompleted task outcome) after) :
    (first? signals task ≠ none ∧ after = vertex) ∨
      (first? signals task = none ∧ ∃ diagnostics, after = { vertex.file task outcome with
        phase := (vertex.file task outcome).phaseAfter outcome
        diagnostics := diagnostics }) := by
  have hslot := h.slots task htask
  cases hchange with
  | kept hfirst =>
      obtain ⟨first, hfiled⟩ := hfirst task outcome rfl h.unerred (h.owns htask) h.launched
      refine Or.inl ⟨?_, rfl⟩
      rw [Option.some.inj (hslot.symm.trans hfiled)]
      simp
  | inited hsignal => cases hsignal
  | noted hsignal => exact absurd rfl (hsignal task outcome)
  | launched hsignal => exact absurd rfl (hsignal task outcome)
  | stopped hsignal => cases hsignal
  | rejected hunexpected => exact absurd ⟨h.owns htask, h.launched⟩ hunexpected
  | filed _ _ hsignal _ _ hempty diagnostics =>
      cases hsignal
      exact Or.inr ⟨Option.some.inj (hslot.symm.trans hempty), diagnostics, rfl⟩

theorem slots_kill : (vertex.handle .kill).machine.slots = vertex.slots := by
  rcases (change_handle h.valid .kill).slots with hsame | ⟨_, _, hsignal, -⟩
  · exact hsame
  · cases hsignal

theorem slots_handle {signal : VertexSignal} (htells : signal.Tells tasks) : ∀ task ∈ tasks,
    (vertex.handle signal).machine.slots[task.index]? = some (first? (signals ++ [signal]) task) := by
  intro task htask
  cases signal with
  | init | start | sourceStarted | sourceSucceeded => cases htells
  | kill =>
      rw [h.slots_kill, h.slots task htask, first?_concat, VertexSignal.reports, Option.or_none]
  | taskCompleted place outcome =>
      rcases h.report_cases htells (change_handle h.valid _) with ⟨hrepeated, hafter⟩ | ⟨hfresh, _, hafter⟩
      · rw [hafter, h.slots task htask, first?_of_repeated hrepeated]
      · rw [hafter, first?_of_fresh hfresh]
        show (vertex.slots.set place.index (some outcome))[task.index]? = _
        by_cases hplace : place = task
        · rw [if_pos hplace, hplace, List.getElem?_set_self (h.owns htask).2]
        · have hindex : place.index ≠ task.index := by
            intro hindex
            have hvertex := (h.owns htells).1.trans (h.owns htask).1.symm
            exact hplace (by cases place; cases task; simp_all)
          rw [if_neg hplace, List.getElem?_set_ne hindex, h.slots task htask]

theorem next {signal : VertexSignal} (htells : signal.Tells tasks) :
    (vertex.handle signal).machine.Informed tasks (signals ++ [signal]) := by
  have hlawful := lawful_handle h.valid signal
  constructor
  · exact hlawful.valid
  · rw [Vertex.tasks, hlawful.follows.total, hlawful.follows.id]
    exact h.known
  · exact hlawful.follows.launched h.launched
  · exact (change_handle h.valid signal).phase_ne_error h.unerred (h.expects htells)
  · exact h.slots_handle htells

theorem run {later : List VertexSignal} (htells : ∀ signal ∈ later, signal.Tells tasks) :
    (Step.run handle vertex later).machine.Informed tasks (signals ++ later) := by
  induction later generalizing vertex signals with
  | nil => simpa using h
  | cons signal later ih =>
      have hrest := ih (h.next (htells signal List.mem_cons_self))
        (fun other hother => htells other (List.mem_cons_of_mem signal hother))
      rw [List.append_assoc, List.singleton_append] at hrest
      exact hrest

/-! ### Before the first kill -/

/-- A report moves a vertex that has not been killed as the first reports say. -/
theorem standing_report (hphase : vertex.phase = standing tasks signals) (htask : task ∈ tasks)
    (outcome : TaskOutcome) : (vertex.handle (.taskCompleted task outcome)).machine.phase =
      standing tasks (signals ++ [.taskCompleted task outcome]) := by
  have hnext : (vertex.handle (.taskCompleted task outcome)).machine.Informed tasks
      (signals ++ [.taskCompleted task outcome]) := h.next htask
  rcases h.report_cases htask (change_handle h.valid _) with
    ⟨hrepeated, hafter⟩ | ⟨hfresh, diagnostics, hafter⟩
  · rw [hafter, hphase, standing_of_eq (first?_of_repeated hrepeated outcome)]
  · have hself : first? (signals ++ [.taskCompleted task outcome]) task = some outcome := by
      rw [first?_of_fresh hfresh, if_pos rfl]
    rw [hafter] at hnext ⊢
    show (vertex.file task outcome).phaseAfter outcome = _
    by_cases hfailed : ∃ other ∈ tasks, first? signals other = some .failed
    · -- A vertex with a failure on file is over.
      obtain ⟨other, hother, hfirst⟩ := hfailed
      rw [standing, if_pos ⟨other, hother, hfirst⟩] at hphase
      rw [standing, if_pos ⟨other, hother, first?_append hfirst _⟩, phaseAfter.eq_def, phase_file, hphase]
    · rw [standing, if_neg hfailed, if_pos ⟨task, htask, hfresh⟩] at hphase
      have hunfailed : outcome ≠ .failed →
          ¬ ∃ other ∈ tasks, first? (signals ++ [.taskCompleted task outcome]) other = some .failed := by
        rintro houtcome ⟨other, hother, hfirst⟩
        rw [first?_of_fresh hfresh] at hfirst
        split at hfirst
        · exact houtcome (Option.some.inj hfirst)
        · exact hfailed ⟨other, hother, hfirst⟩
      rw [phaseAfter.eq_def, phase_file, hphase]
      cases outcome with
      | failed =>
          have hstanding : standing tasks _ = .failed := if_pos ⟨task, htask, hself⟩
          exact hstanding.symm
      | succeeded => exact (hnext.standing_of_unfailed (hunfailed (by decide))).symm
      | killed =>
          have hmissing := mt hnext.succeeded_eq_total_iff.mp
            (fun hall => by cases hself.symm.trans (hall task htask))
          have hstanding := hnext.standing_of_unfailed (hunfailed (by decide))
          rw [if_neg hmissing] at hstanding
          exact hstanding.symm

theorem standing_run {later : List VertexSignal} (hphase : vertex.phase = standing tasks signals)
    (htells : ∀ signal ∈ later, signal.Tells tasks) (hkill : .kill ∉ later) :
    (Step.run handle vertex later).machine.phase = standing tasks (signals ++ later) := by
  induction later generalizing vertex signals with
  | nil => simpa using hphase
  | cons signal later ih =>
      obtain ⟨hsignal, hrest⟩ := List.forall_mem_cons.mp htells
      have hstep : (vertex.handle signal).machine.phase = standing tasks (signals ++ [signal]) := by
        cases signal with
        | taskCompleted task outcome => exact h.standing_report hphase hsignal outcome
        | kill => exact absurd List.mem_cons_self hkill
        | init | start | sourceStarted | sourceSucceeded => cases hsignal
      have hlast := ih (h.next hsignal) hstep hrest (fun hmem => hkill (List.mem_cons_of_mem signal hmem))
      rw [List.append_assoc, List.singleton_append] at hlast
      exact hlast

/-! ### From the first kill on -/

theorem dying_handle (hdying : vertex.phase = .killWait ∨ vertex.phase = .killed) {signal : VertexSignal}
    (htells : signal.Tells tasks) : (vertex.handle signal).machine.phase = .killWait ∨
      (vertex.handle signal).machine.phase = .killed := by
  cases signal with
  | init | start | sourceStarted | sourceSucceeded => cases htells
  | kill => rcases hdying with hphase | hphase <;> simp [handle, handleKill, hphase]
  | taskCompleted task outcome =>
      rcases h.report_cases htells (change_handle h.valid _) with ⟨-, hafter⟩ | ⟨-, _, hafter⟩
      · rw [hafter]
        exact hdying
      · rw [hafter]
        dsimp only
        rw [phaseAfter.eq_def, phase_file]
        rcases hdying with hphase | hphase
        · rw [hphase]
          dsimp only
          split
          · exact Or.inr rfl
          · exact Or.inl rfl
        · rw [hphase]
          exact Or.inr rfl

theorem dying_run {later : List VertexSignal} (hdying : vertex.phase = .killWait ∨ vertex.phase = .killed)
    (htells : ∀ signal ∈ later, signal.Tells tasks) :
    (Step.run handle vertex later).machine.phase = .killWait ∨
      (Step.run handle vertex later).machine.phase = .killed := by
  induction later generalizing vertex signals with
  | nil => exact hdying
  | cons signal later ih =>
      obtain ⟨hsignal, hrest⟩ := List.forall_mem_cons.mp htells
      exact ih (h.next hsignal) (h.dying_handle hdying hsignal) hrest

/-- When the last task of a vertex that is being killed has been reported, the vertex is killed. -/
theorem phase_of_dying (hdying : vertex.phase = .killWait ∨ vertex.phase = .killed)
    (hall : ∀ task ∈ tasks, first? signals task ≠ none) : vertex.phase = .killed := by
  refine hdying.resolve_left (fun hwaits => ?_)
  have hrunning := (h.valid.live (Or.inr hwaits)).2
  rw [h.running_eq_zero_iff.mpr hall] at hrunning
  exact Nat.lt_irrefl 0 hrunning

end Informed

/-! ### The ending -/

/-- A kill that finds a vertex at work stops it. -/
theorem dying_kill {vertex : Vertex} (hrunning : vertex.phase = .running) :
    (vertex.handle .kill).machine.phase = .killWait ∨ (vertex.handle .kill).machine.phase = .killed := by
  rw [handle, handleKill, hrunning]
  dsimp only
  rw [machine_startDying]
  dsimp only
  split
  · exact Or.inr rfl
  · exact Or.inl rfl


/-- A vertex that has just come to run has been told nothing of its tasks. -/
theorem informed_of_launched {before : Vertex} (hvalid : before.Valid) {signal : VertexSignal}
    (hbefore : before.phase ≠ .running) (hafter : (before.handle signal).machine.phase = .running) :
    (before.handle signal).machine.Informed (before.handle signal).machine.tasks [] := by
  have hlawful := lawful_handle hvalid signal
  have hempty : ∀ slot ∈ (before.handle signal).machine.slots, slot = none := by
    have hchange := change_handle hvalid signal
    generalize (before.handle signal).machine = after at hchange hafter
    cases hchange with
    | kept | noted => exact absurd hafter hbefore
    | inited => cases hafter
    | launched _ hinited =>
        rw [machine_launch]
        exact hvalid.unlaunched (hvalid.waiting (Or.inr hinited))
    | stopped _ _ hphase => rcases hphase with rfl | rfl <;> cases hafter
    | rejected => cases hafter
    | filed task outcome =>
        refine absurd ?_ hbefore
        dsimp only at hafter
        rw [phaseAfter.eq_def, phase_file] at hafter
        cases hphase : before.phase with
        | running => rfl
        | killWait =>
            rw [hphase] at hafter
            dsimp only at hafter
            split at hafter <;> cases hafter
        | new | inited | succeeded | failed | killed | error =>
            rw [hphase] at hafter
            cases hafter
  refine ⟨hlawful.valid, rfl, (hlawful.valid.live (Or.inl hafter)).1, by simp [hafter], ?_⟩
  intro task htask
  have hindex := ((mem_tasks hlawful.valid.total task).mp htask).2
  rw [List.getElem?_eq_getElem hindex, hempty _ (List.getElem_mem hindex)]
  rfl

/-- A running vertex ends, when all of its tasks have been reported, as the rule on positions says. -/
theorem phase_eq_outcome {start : Vertex} (hstart : start.Informed start.tasks [])
    (hrunning : start.phase = .running) {signals : List VertexSignal}
    (htells : ∀ signal ∈ signals, signal.Tells start.tasks)
    (hall : ∀ task ∈ start.tasks, first? signals task ≠ none) :
    (Step.run handle start signals).machine.phase = outcome start.tasks signals := by
  have hphase : start.phase = standing start.tasks [] := by
    have hpending := mt hstart.running_eq_zero_iff.mpr
      (Nat.pos_iff_ne_zero.mp (hstart.valid.live (Or.inl hrunning)).2)
    rw [hrunning, standing]
    simp_all [first?]
  by_cases hkill : .kill ∈ signals
  · obtain ⟨earlier, later, rfl, hearlier⟩ := List.eq_append_cons_of_mem hkill
    obtain ⟨htellsEarlier, hrest⟩ := List.forall_mem_append.mp htells
    have htellsLater := (List.forall_mem_cons.mp hrest).2
    have hmiddle := hstart.run htellsEarlier
    have hstanding := hstart.standing_run hphase htellsEarlier hearlier
    have hfinal := hstart.run htells
    rw [List.nil_append] at hmiddle hstanding hfinal
    rw [outcome_of_killed hearlier hall, ← hstanding]
    rw [Step.machine_run_append] at hfinal ⊢
    split
    next hlive =>
      have hnext := hmiddle.next (show VertexSignal.kill.Tells start.tasks from trivial)
      exact hfinal.phase_of_dying (hnext.dying_run (dying_kill hlive) htellsLater) hall
    next hlive =>
      have hover := (standing_cases start.tasks earlier).resolve_left (hstanding ▸ hlive)
      rw [← hstanding] at hover
      exact (follows_run hmiddle.valid (.kill :: later)).2.1.ended hover
  · rw [outcome_of_unkilled hkill hall]
    exact hstart.standing_run hphase htells hkill

theorem tally_of_reported {signals : List VertexSignal} {tasks : List TaskId}
    (hall : ∀ task ∈ tasks, first? signals task ≠ none) : tally tasks signals =
      { total := tasks.length
        succeeded := tasks.countP (fun task => first? signals task = some .succeeded)
        running := 0
        failed := tasks.countP (fun task => first? signals task = some .failed)
        killed := tasks.countP (fun task => first? signals task = some .killed) } := by
  have hrunning : tasks.countP (fun task => first? signals task = none) = 0 := by simpa using hall
  rw [tally, hrunning]

/-- The first reports decide. A vertex of any kind that, after whatever it was sent, has just come to run is
told of kills and of the ends of its tasks, of each at least once, in any order and with any repetitions. It
ends as the rule on the positions of the first kill and the first reports says, and its counters are those
of the first reports. Without a kill, and if the reports of a task agree, as they do when there is one for
each task, their order does not matter. -/
theorem first_reports_decide (dag : DagId) (id : VertexId) (spec : VertexSpec) (graph : Graph)
    (gating : Gating) (earlier : List VertexSignal) (signal : VertexSignal) :
    let before := (Step.run handle (create dag id spec graph gating) earlier).machine
    let start := (before.handle signal).machine
    before.phase ≠ .running → start.phase = .running →
    let tasks := (List.range spec.taskCount).map (TaskId.mk id)
    ∀ signals, (∀ signal ∈ signals, signal.Tells tasks) →
      (∀ task ∈ tasks, ∃ outcome, .taskCompleted task outcome ∈ signals) →
      let after := fun signals => (Step.run handle start signals).machine
      let reported := fun outcome => tasks.countP (fun task => first? signals task = some outcome)
      (after signals).phase = outcome tasks signals ∧
      (after signals).progress =
        { total := spec.taskCount
          succeeded := reported .succeeded
          running := 0
          failed := reported .failed
          killed := reported .killed } ∧
      (.kill ∉ signals → (∀ task left right, .taskCompleted task left ∈ signals →
          .taskCompleted task right ∈ signals → left = right) →
        ∀ other, signals.Perm other → (after other).phase = (after signals).phase ∧
          (after other).progress = (after signals).progress) := by
  intro before start hbefore hrunning tasks signals htells hreports after reported
  obtain ⟨hvalid, hfollows, -⟩ := follows_run (valid_create dag id spec graph gating) earlier
  have hstart : start.Informed start.tasks [] := informed_of_launched hvalid hbefore hrunning
  have hlawful := lawful_handle hvalid signal
  have htasks : start.tasks = tasks := by
    rw [Vertex.tasks, hlawful.follows.total, hfollows.total, hlawful.follows.id, hfollows.id]
    rfl
  rw [← htasks] at htells hreports
  have hlength : start.tasks.length = spec.taskCount := by simp [htasks, tasks]
  -- Any other order of the reports is such a list of signals too.
  have hends : ∀ signals, (∀ signal ∈ signals, signal.Tells start.tasks) →
      (∀ task ∈ start.tasks, first? signals task ≠ none) →
      (after signals).phase = outcome start.tasks signals ∧
        (after signals).progress = tally start.tasks signals :=
    fun signals htells hall =>
      ⟨phase_eq_outcome hstart hrunning htells hall, (hstart.run htells).progress_eq⟩
  have hall : ∀ task ∈ start.tasks, first? signals task ≠ none := by
    intro task htask
    obtain ⟨outcome, hmem⟩ := hreports task htask
    exact first?_ne_none_of_mem hmem
  obtain ⟨hphase, hprogress⟩ := hends signals htells hall
  refine ⟨htasks ▸ hphase, ?_, fun hkill hagree other hperm => ?_⟩
  · rw [hprogress, tally_of_reported hall, hlength, htasks]
  · have hfirst : ∀ task, first? other task = first? signals task :=
      fun task => first?_of_perm hperm (hagree task)
    have hother : ∀ task ∈ start.tasks, first? other task ≠ none :=
      fun task htask => (hfirst task).symm ▸ hall task htask
    obtain ⟨hphase', hprogress'⟩ := hends other
      (fun signal hsignal => htells signal (hperm.mem_iff.mpr hsignal)) hother
    have hunkilled : .kill ∉ other := fun hmem => hkill (hperm.mem_iff.mpr hmem)
    rw [hphase, hphase', hprogress, hprogress', outcome_of_unkilled hkill hall,
      outcome_of_unkilled hunkilled hother, standing_of_eq hfirst, tally_of_eq hfirst]
    exact ⟨rfl, rfl⟩

/-- A vertex of two tasks: a kill between their first reports counts, and the failure reported after it only
in the counters. Without the kill it is all the same which of the two is reported first. -/
theorem first_reports_decide_line :
    let start := (Step.run handle (create ⟨1⟩ ⟨0⟩ ⟨"v0", 2, {}⟩ Coordinator.lineGraph .sourceSucceeded)
      [.init, .start]).machine
    let after := fun signals => (Step.run handle start signals).machine
    let killed := after [.taskCompleted ⟨⟨0⟩, 0⟩ .succeeded, .kill, .taskCompleted ⟨⟨0⟩, 1⟩ .failed,
      .taskCompleted ⟨⟨0⟩, 0⟩ .failed]
    killed.phase = .killed ∧ killed.progress = ⟨2, 1, 0, 1, 0⟩ ∧
      (after [.taskCompleted ⟨⟨0⟩, 1⟩ .failed, .taskCompleted ⟨⟨0⟩, 0⟩ .succeeded]).progress =
        (after [.taskCompleted ⟨⟨0⟩, 0⟩ .succeeded, .taskCompleted ⟨⟨0⟩, 1⟩ .failed]).progress := by
  intro start after killed
  have hdecide := first_reports_decide ⟨1⟩ ⟨0⟩ ⟨"v0", 2, {}⟩ Coordinator.lineGraph .sourceSucceeded [.init]
    .start (by decide) (by decide)
  obtain ⟨hphase, hprogress, -⟩ := hdecide
    [.taskCompleted ⟨⟨0⟩, 0⟩ .succeeded, .kill, .taskCompleted ⟨⟨0⟩, 1⟩ .failed,
      .taskCompleted ⟨⟨0⟩, 0⟩ .failed]
    (by simp [VertexSignal.Tells, List.range_succ]) (by simp [List.range_succ])
  obtain ⟨-, -, horder⟩ := hdecide
    [.taskCompleted ⟨⟨0⟩, 0⟩ .succeeded, .taskCompleted ⟨⟨0⟩, 1⟩ .failed]
    (by simp [VertexSignal.Tells, List.range_succ]) (by simp [List.range_succ])
  refine ⟨hphase.trans (by decide), hprogress.trans (by decide), ?_⟩
  refine (horder (by decide) ?_ _ (List.Perm.swap _ _ _)).2
  intro task left right hleft hright
  simp only [List.mem_cons, VertexSignal.taskCompleted.injEq, List.not_mem_nil, or_false] at hleft hright
  rcases hleft with ⟨rfl, rfl⟩ | ⟨rfl, rfl⟩
  · exact Eq.symm (by simpa using hright)
  · exact Eq.symm (by simpa using hright)

end Vertex

end JobFlow
