import Mathlib.Logic.Relation
import JobFlow.Proofs.Operation

/-!
The start gate along whole paths. A vertex starts only with all of its sources let in, a source is let in
only by news of its own, and such news are sent only by a vertex that has passed the gate. Main statement:
once a vertex has started, everyone from whom it can be reached has passed the gate.
-/

namespace JobFlow

/-! ### The gate of one vertex -/

namespace Vertex

/-- What a signal can do to the gate of a vertex: it lets in the source that it speaks of and nobody
else, and if it launches the vertex then all sources are in. -/
structure Guarded (before : Vertex) (signal : VertexSignal) (after : Vertex) : Prop where
  ready : ∀ source ∈ after.ready, source ∈ before.ready ∨ signal = before.gating.signal source
  launched : after.launched = true →
    before.launched = true ∨ ∀ source ∈ before.sources, source ∈ after.ready

variable {vertex : Vertex} {signal : VertexSignal}

theorem guarded_of_same {after : Vertex} (hready : after.ready = vertex.ready)
    (hlaunched : after.launched = vertex.launched) : vertex.Guarded signal after where
  ready source hsource := by
    rw [hready] at hsource
    exact Or.inl hsource
  launched h := by
    rw [hlaunched] at h
    exact Or.inl h

theorem guarded_startIfReady {told : Bool} {ready : List VertexId}
    (hready : ∀ source ∈ ready, source ∈ vertex.ready ∨ signal = vertex.gating.signal source) :
    vertex.Guarded signal
      (startIfReady { vertex with toldToStart := told, ready := ready }).machine := by
  rw [startIfReady]
  split
  next hstart =>
    rw [machine_launch]
    exact ⟨hready, fun _ => Or.inr hstart.2.2⟩
  next => exact ⟨hready, Or.inl⟩

theorem guarded_handleSource (source : VertexId) (gate : Gating) :
    vertex.Guarded (gate.signal source) (vertex.handleSource source gate).machine := by
  rw [handleSource]
  split
  next => exact guarded_of_same rfl rfl
  next =>
    rw [sourcePassed]
    split
    next =>
      split
      next hgate =>
        apply guarded_startIfReady
        intro other hother
        rcases List.mem_insert_iff.mp hother with rfl | hold
        · exact Or.inr (by rw [hgate])
        · exact Or.inl hold
      next => exact guarded_startIfReady (fun other hother => Or.inl hother)
    next => exact guarded_of_same rfl rfl

/-- A report leaves the gate alone, whatever else becomes of it. -/
theorem Change.guarded_of_report {task : TaskId} {outcome : TaskOutcome} {after : Vertex}
    (hchange : vertex.Change (.taskCompleted task outcome) after) :
    vertex.Guarded (.taskCompleted task outcome) after := by
  cases hchange with
  | kept | rejected | filed => exact guarded_of_same rfl rfl
  | inited hsignal | stopped hsignal => cases hsignal
  | noted hsignal | launched hsignal => exact absurd rfl (hsignal task outcome)

/-- Every signal respects the gate. -/
theorem guarded_handle (hvalid : vertex.Valid) (signal : VertexSignal) :
    vertex.Guarded signal (vertex.handle signal).machine := by
  cases signal with
  | init =>
      show vertex.Guarded .init vertex.handleInit.machine
      rw [handleInit]
      split
      · exact guarded_of_same rfl rfl
      · split <;> exact guarded_of_same rfl rfl
  | start =>
      show vertex.Guarded .start vertex.handleStart.machine
      rw [handleStart]
      split
      · exact guarded_startIfReady (fun other hother => Or.inl hother)
      · split <;> exact guarded_of_same rfl rfl
  | kill =>
      show vertex.Guarded .kill vertex.handleKill.machine
      rw [handleKill]
      cases vertex.phase with
      | new | inited | running =>
          dsimp only
          rw [machine_startDying]
          exact guarded_of_same rfl rfl
      | killWait | succeeded | failed | killed | error => exact guarded_of_same rfl rfl
  | sourceStarted source => exact guarded_handleSource source .sourceStarted
  | sourceSucceeded source => exact guarded_handleSource source .sourceSucceeded
  | taskCompleted task outcome => exact (change_handle hvalid _).guarded_of_report

/-- A vertex runs from its launch on, or has succeeded at once if it has no tasks. -/
theorem Change.phase_of_launched {after : Vertex} (hchange : vertex.Change signal after)
    (hbefore : vertex.launched = false) (hafter : after.launched = true) :
    after.phase = .running ∨ after.progress.total = 0 ∧ after.phase = .succeeded := by
  cases hchange with
  | kept | inited | noted | stopped | rejected => exact absurd (hbefore.symm.trans hafter) (by decide)
  | filed _ _ _ _ hlaunched => exact absurd (hbefore.symm.trans hlaunched) (by decide)
  | launched =>
      rw [machine_launch]
      by_cases htotal : vertex.progress.total = 0
      · exact Or.inr ⟨htotal, if_pos htotal⟩
      · exact Or.inl (if_neg htotal)

theorem Passed.follows {gate : Gating} {before after : Vertex} (hpassed : before.Passed gate)
    (hfollows : before.Follows after) : after.Passed gate := by
  cases gate with
  | sourceStarted => exact hfollows.launched hpassed
  | sourceSucceeded =>
      have hsucceeded : before.phase = .succeeded := hpassed
      have hafter := hfollows.ended (by rw [hsucceeded]; rfl)
      exact hafter.trans hsucceeded

theorem Passed.launched {gate : Gating} (hpassed : vertex.Passed gate) (hvalid : vertex.Valid) :
    vertex.launched = true := by
  cases gate with
  | sourceStarted => exact hpassed
  | sourceSucceeded => exact (hvalid.allSucceeded hpassed).1

end Vertex

/-! ### Turns -/

/-- The events by which a vertex shows that it has started: the request for its tasks, and the news for
its targets. -/
def Event.TellsOfStart (id : VertexId) : Event → Prop
  | .tasks asking (.schedule _ _) => asking = id
  | .vertex _ (.sourceStarted source) => source = id
  | _ => False

namespace Attempt

/-- A vertex has passed a gate. -/
def Open (attempt : Attempt) (id : VertexId) (gate : Gating) : Prop :=
  ∃ vertex, attempt.vertex? id = some vertex ∧ vertex.Passed gate

variable {setting : Setting} {attempt : Attempt} {event : Event} {step : Step Attempt}
  (hturn : attempt.Turn event step)

include hturn

theorem Open.turn {id : VertexId} {gate : Gating} (hopen : attempt.Open id gate) :
    step.machine.Open id gate := by
  obtain ⟨before, hbefore, hpassed⟩ := hopen
  obtain ⟨after, hafter, hfollows⟩ := hturn.follows hbefore
  exact ⟨after, hafter, hpassed.follows hfollows⟩

variable (hwired : attempt.Wired setting)

include hwired

/-- News of a source are sent by that source, once it has passed the gate. -/
theorem Turn.open_of_signal {gate : Gating} {target source : VertexId}
    (hsent : .vertex target (gate.signal source) ∈ step.outbound) : step.machine.Open source gate := by
  cases hturn with
  | dag signal published hlawful =>
      rcases Dag.mem_announcements hsent with ⟨_, _, heq, hcommand⟩ | heq
      · cases gate <;> cases heq <;> cases hcommand
      · cases heq
  | @vertex place before hbefore signal hlawful =>
      obtain ⟨hsource, hpassed⟩ := Vertex.passed_of_signal_mem hsent
      rw [hlawful.follows.id, hwired.vertex_id hbefore] at hsource
      subst hsource
      exact ⟨_, (vertex?_set hbefore _ source).trans (if_pos rfl), hpassed⟩
  | tasks hlayer place request =>
      obtain ⟨task, -, outcome, heq⟩ := TaskLayer.mem_reports hsent
      cases gate <;> cases heq
  | finished | stray => cases hsent

/-- A vertex shows that it has started only when it has. -/
theorem Turn.open_of_tellsOfStart {id : VertexId} {sent : Event} (hsent : sent ∈ step.outbound)
    (htells : sent.TellsOfStart id) : step.machine.Open id .sourceStarted := by
  unfold Event.TellsOfStart at htells
  split at htells
  next place tasks resource =>
    subst htells
    cases hturn with
    | dag signal published hlawful =>
        rcases Dag.mem_announcements hsent with ⟨_, _, heq, -⟩ | heq <;> cases heq
    | @vertex place before hbefore signal hlawful =>
        obtain ⟨hid, hlaunched⟩ := Vertex.launched_of_schedule_mem hsent
        rw [hlawful.follows.id, hwired.vertex_id hbefore] at hid
        subst hid
        exact ⟨_, (vertex?_set hbefore _ _).trans (if_pos rfl), hlaunched⟩
    | tasks hlayer place request =>
        obtain ⟨task, -, outcome, heq⟩ := TaskLayer.mem_reports hsent
        cases heq
    | finished | stray => cases hsent
  next target source =>
    subst htells
    have hnews : .vertex target (Gating.sourceStarted.signal source) ∈ step.outbound := hsent
    exact hturn.open_of_signal hwired hnews
  next => exact htells.elim

end Attempt

/-! ### Runs -/

namespace Situation

/-- The gates are kept: news of a source are true, everyone let in has passed the gate, and whoever has
launched has let everyone in. -/
structure Gated (setting : Setting) (situation : Situation) : Prop where
  news : ∀ (gate : Gating) target source, situation.Waits (.vertex target (gate.signal source)) →
    situation.attempt.Open source gate
  ready : ∀ id vertex, situation.attempt.vertex? id = some vertex → ∀ source ∈ vertex.ready,
    situation.attempt.Open source setting.gating
  opened : ∀ id vertex, situation.attempt.vertex? id = some vertex → vertex.launched = true →
    ∀ source ∈ vertex.sources, source ∈ vertex.ready

theorem gated_create (setting : Setting) (layer : Option TaskLayer) : Gated setting
    ⟨{ Attempt.create setting.id setting.plan setting.graph setting.gating with layer := layer },
      fun _ => []⟩ where
  news _ _ _ hwaits := by cases hwaits
  ready id vertex hvertex source hsource := by
    obtain ⟨spec, -, rfl⟩ := Attempt.vertex?_create hvertex
    cases hsource
  opened id vertex hvertex hlaunched := by
    obtain ⟨spec, -, rfl⟩ := Attempt.vertex?_create hvertex
    cases hlaunched

variable {setting : Setting} {situation : Situation}

theorem Gated.send (hgated : situation.Gated setting) {event : Event}
    (hevent : ∀ (gate : Gating) target source, event ≠ .vertex target (gate.signal source)) :
    (situation.send [event]).Gated setting where
  news gate target source hwaits := by
    rcases waits_send.mp hwaits with hold | hsent
    · exact hgated.news gate target source hold
    · exact absurd (List.mem_singleton.mp hsent).symm (hevent gate target source)
  ready := hgated.ready
  opened := hgated.opened

theorem Gated.fades {after : Situation} (hgated : situation.Gated setting)
    (hfades : situation.Fades after) : after.Gated setting where
  news gate target source hwaits := by
    rw [hfades.attempt]
    exact hgated.news gate target source (hfades.waits hwaits)
  ready := by
    rw [hfades.attempt]
    exact hgated.ready
  opened := by
    rw [hfades.attempt]
    exact hgated.opened

/-- Every turn keeps the gates. -/
theorem Gated.take (hgated : situation.Gated setting) (hsound : situation.Sound setting)
    {event : Event} {rest : List Event} {step : Step Attempt}
    (hqueue : situation.queue event.entity = event :: rest)
    (hturn : situation.attempt.Turn event step) :
    (situation.take event.entity rest step).Gated setting where
  news gate target source hwaits := by
    rcases waits_of_take hqueue hwaits with hold | hsent
    · exact (hgated.news gate target source hold).turn hturn
    · exact hturn.open_of_signal hsound.wired hsent
  ready id after hafter source hsource := by
    rcases hturn.vertex_cases hafter with hsame | ⟨before, signal, hevent, hbefore, rfl, -⟩
    · exact (hgated.ready id after hsame source hsource).turn hturn
    · have hguarded := Vertex.guarded_handle (hsound.wired.valid id before hbefore) signal
      rcases hguarded.ready source hsource with hold | hsignal
      · exact (hgated.ready id before hbefore source hold).turn hturn
      · rw [hsignal, hsound.wired.vertex_gating hbefore] at hevent
        have hwaited := waits_of_cons hqueue
        rw [hevent] at hwaited
        exact (hgated.news setting.gating id source hwaited).turn hturn
  opened id after hafter hlaunched source hsource := by
    rcases hturn.vertex_cases hafter with hsame | ⟨before, signal, -, hbefore, rfl, hlawful, -⟩
    · exact hgated.opened id after hsame hlaunched source hsource
    · have hguarded := Vertex.guarded_handle (hsound.wired.valid id before hbefore) signal
      rw [hlawful.follows.sources] at hsource
      rcases hguarded.launched hlaunched with hfirst | hall
      · exact hlawful.follows.ready source (hgated.opened id before hbefore hfirst source hsource)
      · exact hall source hsource

/-- Once a vertex has launched, all from whom it can be reached have passed the gate. -/
theorem Gated.open_of_path (hgated : situation.Gated setting) (hsound : situation.Sound setting)
    {source target : VertexId} (hpath : Relation.TransGen setting.plan.Links source target)
    {vertex : Vertex} (hvertex : situation.attempt.vertex? target = some vertex)
    (hlaunched : vertex.launched = true) : situation.attempt.Open source setting.gating := by
  have hlink : ∀ {first second : VertexId} {machine : Vertex}, setting.plan.Links first second →
      situation.attempt.vertex? second = some machine → machine.launched = true →
      situation.attempt.Open first setting.gating := by
    intro first second machine hlinks hmachine hstarted
    have hsource := (Graph.mem_sources_ofPlan setting.built).mpr hlinks
    rw [← hsound.wired.vertex_sources hmachine] at hsource
    have hready := hgated.opened second machine hmachine hstarted first hsource
    exact hgated.ready second machine hmachine first hready
  induction hpath using Relation.TransGen.head_induction_on with
  | single hlinks => exact hlink hlinks hvertex hlaunched
  | head hlinks _ ih =>
      obtain ⟨middle, hmiddle, hpassed⟩ := ih
      exact hlink hlinks hmiddle (hpassed.launched (hsound.wired.valid _ middle hmiddle))

end Situation

namespace Coordinator

/-- A vertex has been running in the course of a run: it was seen to, or it has no tasks and was over as
soon as it ran. -/
def HasRun (start : Coordinator) (operations : List Operation) (id : VertexId) : Prop :=
  ∃ earlier vertex, earlier <+: operations ∧
    (start.through earlier).attempt.vertex? id = some vertex ∧
    (vertex.phase = .running ∨ vertex.progress.total = 0 ∧ vertex.phase = .succeeded)

theorem HasRun.append {start : Coordinator} {operations : List Operation} {id : VertexId}
    (hrun : start.HasRun operations id) (more : List Operation) :
    start.HasRun (operations ++ more) id := by
  obtain ⟨earlier, vertex, hprefix, hvertex, hphase⟩ := hrun
  exact ⟨earlier, vertex, hprefix.trans (List.prefix_append _ _), hvertex, hphase⟩

section Run

variable {setting : Setting} {layer : Option TaskLayer} {start : Coordinator}
  (hfresh : start.Fresh setting layer) {operations : List Operation} {id : VertexId}

include hfresh

/-- What a vertex passed in the course of a run it has passed in the end. -/
theorem Fresh.open_through {earlier : List Operation} {gate : Gating}
    (hopen : (start.through earlier).attempt.Open id gate) (later : List Operation) :
    (start.through (earlier ++ later)).attempt.Open id gate := by
  obtain ⟨before, hbefore, hpassed⟩ := hopen
  obtain ⟨after, hafter, hfollows⟩ := (hfresh.manned.through earlier).follows hbefore later
  rw [through_append]
  exact ⟨after, hafter, hpassed.follows hfollows⟩

theorem Fresh.open_of_hasRun (hrun : start.HasRun operations id) :
    (start.through operations).attempt.Open id .sourceStarted := by
  obtain ⟨earlier, vertex, ⟨later, rfl⟩, hvertex, hphase⟩ := hrun
  have hvalid := (hfresh.manned.through earlier).sound.wired.valid id vertex hvertex
  refine hfresh.open_through ⟨vertex, hvertex, ?_⟩ later
  rcases hphase with hrunning | ⟨-, hsucceeded⟩
  · exact (hvalid.live (Or.inl hrunning)).1
  · exact (hvalid.allSucceeded hsucceeded).1

theorem Fresh.open_of_emitted {event : Event} (hemitted : event ∈ start.along emitted operations)
    (htells : event.TellsOfStart id) :
    (start.through operations).attempt.Open id .sourceStarted := by
  obtain ⟨earlier, operation, later, rfl, hsent⟩ := exists_of_mem_along hemitted
  have hearlier := hfresh.manned.through earlier
  obtain ⟨handled, hturn, hsent, hafter⟩ := hearlier.of_emitted hsent
  have hopen := hturn.open_of_tellsOfStart hearlier.sound.wired hsent htells
  rw [← hafter, ← through_concat] at hopen
  have hlater := hfresh.open_through hopen later
  rwa [List.append_assoc] at hlater

/-- A vertex that has launched has been running. -/
theorem Fresh.hasRun_of_open
    (hopen : (start.through operations).attempt.Open id .sourceStarted) :
    start.HasRun operations id := by
  refine hfresh.manned.induction (motive := fun operations situation =>
    situation.attempt.Open id .sourceStarted → start.HasRun operations id) ?_ ?_ ?_ ?_ ?_ operations hopen
  · rw [hfresh.situation]
    rintro ⟨vertex, hvertex, hlaunched⟩
    obtain ⟨spec, -, rfl⟩ := Attempt.vertex?_create hvertex
    cases hlaunched
  · exact fun earlier last hearlier hopen => (hearlier hopen).append [last]
  · exact fun earlier event caller hearlier hopen => (hearlier hopen).append _
  · rintro earlier event rest step hsound - hturn hreached hearlier ⟨after, hafter, hlaunched⟩
    rcases hturn.vertex_cases hafter with hsame | ⟨before, signal, -, hbefore, rfl, -⟩
    · exact (hearlier ⟨after, hsame, hlaunched⟩).append _
    · cases hfirst : before.launched with
      | true => exact (hearlier ⟨before, hbefore, hfirst⟩).append _
      | false =>
          have hchange := Vertex.change_handle (hsound.wired.valid id before hbefore) signal
          have hfound := (congrArg (·.vertex? id) hreached).trans hafter
          exact ⟨_, _, List.prefix_refl _, hfound, hchange.phase_of_launched hfirst hlaunched⟩
  · rintro operations before after hfades hbefore hopen
    rw [hfades.attempt] at hopen
    exact hbefore hopen

/-- The gates are kept as long as nobody else sends news of sources. -/
theorem Fresh.gated
    (hsends : ∀ (gate : Gating) target source caller,
      Operation.send (.vertex target (gate.signal source)) caller ∉ operations) :
    (start.through operations).situation.Gated setting := by
  refine hfresh.manned.invariant
    (fun event => ∀ (gate : Gating) target source, event ≠ .vertex target (gate.signal source))
    ?_ ?_ ?_ ?_ ?_
  · rw [hfresh.situation]
    exact Situation.gated_create setting layer
  · exact fun situation event hallowed hgated => hgated.send hallowed
  · exact fun situation event rest step hsound hqueue hturn hgated => hgated.take hsound hqueue hturn
  · exact fun before after hfades hgated => hgated.fades hfades
  · rintro event caller hmem gate target source rfl
    exact hsends gate target source caller hmem

end Run

/-- Start gating is safe along whole paths. Nobody sends news of sources from caller; anything else may
be sent, in whatever order lanes are served and whether or not the coordinator is shut down on the way.
Then as soon as a vertex has shown that it started, every vertex from which it can be reached has been
running, and if sources have to succeed, it has succeeded with every task that the plan gives it. -/
theorem paths_are_gated {id : DagId} {plan : Plan} {config : Config} {coordinator : Coordinator}
    (hsubmit : Coordinator.submit id plan config = .ok coordinator) (layer : Option TaskLayer)
    (operations : List Operation)
    (hsends : ∀ (gate : Gating) target source caller,
      Operation.send (.vertex target (gate.signal source)) caller ∉ operations)
    {source target : VertexId} (hpath : Relation.TransGen plan.Links source target) :
    let start := coordinator.equip layer
    let reached := start.through operations
    (start.HasRun operations target ∨
      ∃ event ∈ start.along emitted operations, event.TellsOfStart target) →
    start.HasRun operations source ∧
      (config.settings.gating = .sourceSucceeded → ∃ vertex spec,
        reached.attempt.vertex? source = some vertex ∧
        plan.vertices[source.index]? = some spec ∧ vertex.phase = .succeeded ∧
        vertex.slots = List.replicate spec.taskCount (some .succeeded)) := by
  obtain ⟨setting, rfl, rfl, hgating, hfresh⟩ := fresh_of_submit hsubmit layer
  intro start reached hstarted
  have hsound := (hfresh.manned.through operations).sound
  have hopen : reached.attempt.Open target .sourceStarted := by
    rcases hstarted with hrun | ⟨event, hemitted, htells⟩
    · exact hfresh.open_of_hasRun hrun
    · exact hfresh.open_of_emitted hemitted htells
  obtain ⟨machine, hmachine, hlaunched⟩ := hopen
  obtain ⟨vertex, hvertex, hpassed⟩ :=
    (hfresh.gated hsends).open_of_path hsound hpath hmachine hlaunched
  have hvalid := hsound.wired.valid source vertex hvertex
  refine ⟨hfresh.hasRun_of_open ⟨vertex, hvertex, hpassed.launched hvalid⟩, fun hsucceeding => ?_⟩
  rw [hgating, hsucceeding] at hpassed
  obtain ⟨spec, hspec, hlength, -⟩ := hsound.wired.vertex_length hvertex
  have hslots := (hvalid.allSucceeded hpassed).2
  exact ⟨vertex, spec, hvertex, hspec, hpassed, List.eq_replicate_iff.mpr ⟨hlength, hslots⟩⟩

/-- Of the job of two vertices, the second has asked for its tasks after six rounds; the first had run and
succeeded by then. -/
theorem paths_are_gated_line :
    let start := line.equip (some { completes := true })
    let operations := (lineRun 6).map Move.operation
    (∃ event ∈ start.along emitted operations, event.TellsOfStart ⟨1⟩) ∧
      start.HasRun operations ⟨0⟩ ∧
      ∃ vertex, (start.through operations).attempt.vertex? ⟨0⟩ = some vertex ∧
        vertex.phase = .succeeded := by
  intro start operations
  have hsends : ∀ (gate : Gating) target source caller,
      Operation.send (.vertex target (gate.signal source)) caller ∉ operations := by
    simp [operations, lineRun, Move.operation]
  have hlinks : (Plan.chain 2 1).Links ⟨0⟩ ⟨1⟩ :=
    ⟨⟨"e1", "v0", "v1", .bipartite, .stable⟩, by decide, by decide, by decide⟩
  have hrequest : Event.tasks ⟨1⟩ (.schedule [⟨⟨1⟩, 0⟩] {}) ∈ start.along emitted operations := by
    decide
  have hstarted : ∃ event ∈ start.along emitted operations, event.TellsOfStart ⟨1⟩ :=
    ⟨_, hrequest, rfl⟩
  obtain ⟨hrun, hsucceeded⟩ := paths_are_gated submit_line (some { completes := true }) operations
    hsends (.single hlinks) (Or.inr hstarted)
  obtain ⟨vertex, spec, hvertex, -, hphase, -⟩ := hsucceeded rfl
  exact ⟨hstarted, hrun, vertex, hvertex, hphase⟩

end Coordinator

end JobFlow
