import JobFlow.Vertex
import JobFlow.Proofs.Positions

/-!
What a vertex is told of its tasks. Of the reports of a task the first one counts, and with kills between
the reports the outcome of the vertex is a rule on three positions: the first kill, the first report of
each task, and the last report that is the first of its task. Main statement: by this rule what comes
after the first kill does not matter.
-/

namespace JobFlow

/-- The outcome of a task that a signal reports. -/
def VertexSignal.reports (task : TaskId) : VertexSignal → Option TaskOutcome
  | .taskCompleted other outcome => if other = task then some outcome else none
  | .init | .start | .kill | .sourceStarted _ | .sourceSucceeded _ => none

/-- A kill, or a report of one of some tasks. -/
def VertexSignal.Tells (tasks : List TaskId) : VertexSignal → Prop
  | .kill => True
  | .taskCompleted task _ => task ∈ tasks
  | .init | .start | .sourceStarted _ | .sourceSucceeded _ => False

namespace TaskReports

/-- The outcome of a task by its first report. -/
def first? (signals : List VertexSignal) (task : TaskId) : Option TaskOutcome :=
  signals.findSome? (·.reports task)

/-- The position of the first report of a task. -/
def firstAt? (signals : List VertexSignal) (task : TaskId) : Option Nat :=
  signals.findIdx? (fun signal => (signal.reports task).isSome)

/-- The position of the first kill. -/
def killAt? (signals : List VertexSignal) : Option Nat := signals.findIdx? (· = .kill)

/-- The position of the last report that is the first of its task. -/
def lastAt? (tasks : List TaskId) (signals : List VertexSignal) : Option Nat :=
  (tasks.filterMap (firstAt? signals)).max?

/-- By its first report a task failed, and no kill comes before that report. -/
def FailsFirst (signals : List VertexSignal) (task : TaskId) : Prop :=
  first? signals task = some .failed ∧
    ∀ kill ∈ killAt? signals, ∃ place ∈ firstAt? signals task, place < kill

/-- There is a kill before the last task has been reported. -/
def KilledEarly (tasks : List TaskId) (signals : List VertexSignal) : Prop :=
  ∃ kill ∈ killAt? signals, ∃ last ∈ lastAt? tasks signals, kill < last

instance (signals : List VertexSignal) (task : TaskId) : Decidable (FailsFirst signals task) :=
  inferInstanceAs (Decidable (_ ∧ _))

instance (tasks : List TaskId) (signals : List VertexSignal) : Decidable (KilledEarly tasks signals) :=
  inferInstanceAs (Decidable (∃ kill ∈ killAt? signals, _))

/-- How a vertex ends that has been told so much since its start, all of its tasks included. -/
def outcome (tasks : List TaskId) (signals : List VertexSignal) : Phase :=
  if ∃ task ∈ tasks, FailsFirst signals task then .failed
  else if KilledEarly tasks signals then .killed
  else if ∃ task ∈ tasks, first? signals task = some .killed then .killed
  else .succeeded

/-- How a vertex stands that has been told so much since its start, no kill included. -/
def standing (tasks : List TaskId) (signals : List VertexSignal) : Phase :=
  if ∃ task ∈ tasks, first? signals task = some .failed then .failed
  else if ∃ task ∈ tasks, first? signals task = none then .running
  else if ∃ task ∈ tasks, first? signals task = some .killed then .killed
  else .succeeded

variable {tasks : List TaskId} {signals : List VertexSignal} {task : TaskId}

/-! ### First reports -/

theorem reports_eq_some_iff {signal : VertexSignal} {outcome : TaskOutcome} :
    signal.reports task = some outcome ↔ signal = .taskCompleted task outcome := by
  cases signal with
  | taskCompleted other result =>
      rw [VertexSignal.reports]
      by_cases h : other = task <;> simp [h]
  | init | start | kill | sourceStarted | sourceSucceeded => simp [VertexSignal.reports]

theorem first?_concat (signal : VertexSignal) :
    first? (signals ++ [signal]) task = (first? signals task).or (signal.reports task) :=
  Positions.findSome?_concat _ signals signal

/-- The first report stays the first one. -/
theorem first?_append {earlier : List VertexSignal} {outcome : TaskOutcome}
    (hfirst : first? earlier task = some outcome) (later : List VertexSignal) :
    first? (earlier ++ later) task = some outcome := by
  rw [first?] at hfirst ⊢
  rw [List.findSome?_append, hfirst, Option.some_or]

theorem first?_ne_none_of_mem {outcome : TaskOutcome} (hmem : .taskCompleted task outcome ∈ signals) :
    first? signals task ≠ none := by
  intro hnone
  have hreads := List.findSome?_eq_none_iff.mp hnone _ hmem
  rw [reports_eq_some_iff.mpr rfl] at hreads
  cases hreads

theorem first?_of_perm {other : List VertexSignal} (hperm : signals.Perm other)
    (hagree : ∀ left right, .taskCompleted task left ∈ signals →
      .taskCompleted task right ∈ signals → left = right) :
    first? other task = first? signals task :=
  Positions.findSome?_of_perm (fun _ _ => reports_eq_some_iff) hperm hagree

/-! ### The rule -/

section Killed

variable {earlier later : List VertexSignal} (hearlier : .kill ∉ earlier)

include hearlier

theorem killAt?_append : killAt? (earlier ++ .kill :: later) = some earlier.length := by
  have hnone : earlier.findIdx? (· = .kill) = none := by
    rw [List.findIdx?_eq_none_iff]
    intro signal hsignal
    exact decide_eq_false (fun heq => hearlier (heq ▸ hsignal))
  rw [killAt?, List.findIdx?_append, hnone]
  simp [List.findIdx?_cons]

/-- A task fails first if and only if it has failed when the first kill comes. -/
theorem failsFirst_append (hreported : first? (earlier ++ .kill :: later) task ≠ none) :
    FailsFirst (earlier ++ .kill :: later) task ↔ first? earlier task = some .failed := by
  obtain ⟨place, hplace⟩ := Positions.exists_findIdx? hreported
  have hbefore : first? earlier task ≠ none ↔ place < earlier.length :=
    Positions.findSome?_ne_none_iff_lt rfl hplace
  constructor
  · rintro ⟨hfailed, hkill⟩
    obtain ⟨_, hsame, hlt⟩ := hkill earlier.length (killAt?_append hearlier)
    cases hplace.symm.trans hsame
    obtain ⟨outcome, hfirst⟩ := Option.ne_none_iff_exists'.mp (hbefore.mpr hlt)
    rw [hfirst, ← hfailed, first?_append hfirst]
  · intro hfailed
    refine ⟨first?_append hfailed _, fun kill hkill => ⟨place, hplace, ?_⟩⟩
    cases (killAt?_append hearlier).symm.trans hkill
    exact hbefore.mp (by simp [hfailed])

/-- When all tasks are reported, a kill came early if and only if a report was missing at the first one. -/
theorem killedEarly_append (hall : ∀ task ∈ tasks, first? (earlier ++ .kill :: later) task ≠ none) :
    KilledEarly tasks (earlier ++ .kill :: later) ↔ ∃ task ∈ tasks, first? earlier task = none := by
  calc KilledEarly tasks (earlier ++ .kill :: later)
      ↔ ∃ last ∈ lastAt? tasks (earlier ++ .kill :: later), earlier.length < last := by
        rw [KilledEarly, killAt?_append hearlier]
        simp
    _ ↔ ∃ task ∈ tasks, ∃ place, firstAt? (earlier ++ .kill :: later) task = some place ∧
          earlier.length < place := Positions.lt_max?_iff
    _ ↔ ∃ task ∈ tasks, first? earlier task = none := by
        refine exists_congr (fun task => and_congr_right (fun htask => ?_))
        obtain ⟨place, hplace⟩ := Positions.exists_findIdx? (hall task htask)
        have hafter : first? earlier task = none ↔ earlier.length < place :=
          Positions.findSome?_eq_none_iff_lt rfl hplace
        rw [hafter]
        constructor
        · rintro ⟨_, hsame, hlt⟩
          cases hplace.symm.trans hsame
          exact hlt
        · exact fun hlt => ⟨place, hplace, hlt⟩

/-- The first kill decides if the vertex still runs, and changes nothing otherwise. -/
theorem outcome_of_killed (hall : ∀ task ∈ tasks, first? (earlier ++ .kill :: later) task ≠ none) :
    outcome tasks (earlier ++ .kill :: later) =
      if standing tasks earlier = .running then .killed else standing tasks earlier := by
  have hfails : (∃ task ∈ tasks, FailsFirst (earlier ++ .kill :: later) task) ↔
      ∃ task ∈ tasks, first? earlier task = some .failed :=
    exists_congr (fun task => and_congr_right (fun htask => failsFirst_append hearlier (hall task htask)))
  rw [outcome, standing]
  simp only [hfails, killedEarly_append hearlier hall]
  by_cases hfailed : ∃ task ∈ tasks, first? earlier task = some .failed
  · simp [hfailed]
  by_cases hpending : ∃ task ∈ tasks, first? earlier task = none
  · simp [hfailed, hpending]
  -- Every task was reported before the kill, so the reports after it are not the first ones.
  have hkilled : (∃ task ∈ tasks, first? (earlier ++ .kill :: later) task = some .killed) ↔
      ∃ task ∈ tasks, first? earlier task = some .killed := by
    refine exists_congr (fun task => and_congr_right (fun htask => ?_))
    obtain ⟨outcome, hfirst⟩ :=
      Option.ne_none_iff_exists'.mp (fun hnone => hpending ⟨task, htask, hnone⟩)
    rw [hfirst, first?_append hfirst]
  simp only [hkilled, hfailed, hpending, if_false]
  split <;> rfl

end Killed

/-- Without a kill the outcome depends on nothing but the first reports. -/
theorem outcome_of_unkilled (hkill : .kill ∉ signals)
    (hall : ∀ task ∈ tasks, first? signals task ≠ none) :
    outcome tasks signals = standing tasks signals := by
  have hnone : killAt? signals = none := by
    rw [killAt?, List.findIdx?_eq_none_iff]
    intro signal hsignal
    exact decide_eq_false (fun heq => hkill (heq ▸ hsignal))
  have hpending : ¬ ∃ task ∈ tasks, first? signals task = none := by simpa using hall
  unfold outcome standing FailsFirst KilledEarly
  simp [hnone, hpending]

/-- What all of some tasks have reported, counted by outcome. -/
def tally (tasks : List TaskId) (signals : List VertexSignal) : Progress where
  total := tasks.length
  succeeded := tasks.countP (fun task => first? signals task = some .succeeded)
  running := tasks.countP (fun task => first? signals task = none)
  failed := tasks.countP (fun task => first? signals task = some .failed)
  killed := tasks.countP (fun task => first? signals task = some .killed)

end TaskReports

end JobFlow
