import JobFlow.Proofs.Vertex.Repetition

/-!
How a vertex comes to its start. It is told once to initialise and later once to start, and it hears of its
sources before, in between and afterwards. What it then is and what it has sent depend on nothing but the
sources that it has heard to have passed its gate: all of this comes to one attempt to start, with these sources
ready. Main statement: the outcome of an opening, whatever the order of its signals.
-/

namespace JobFlow

/-- News of one of some sources. -/
def VertexSignal.IsNews (sources : List VertexId) : VertexSignal → Prop
  | .sourceStarted source | .sourceSucceeded source => source ∈ sources
  | .init | .start | .kill | .taskCompleted _ _ => False

instance (sources : List VertexId) : DecidablePred (VertexSignal.IsNews sources)
  | .sourceStarted source => inferInstanceAs (Decidable (source ∈ sources))
  | .sourceSucceeded source => inferInstanceAs (Decidable (source ∈ sources))
  | .init | .start | .kill | .taskCompleted _ _ => inferInstanceAs (Decidable False)

theorem VertexSignal.isNews_iff {sources : List VertexId} {signal : VertexSignal} :
    signal.IsNews sources ↔ ∃ gate : Gating, ∃ source ∈ sources, signal = gate.signal source := by
  constructor
  · intro hnews
    cases signal with
    | sourceStarted source => exact ⟨.sourceStarted, source, hnews, rfl⟩
    | sourceSucceeded source => exact ⟨.sourceSucceeded, source, hnews, rfl⟩
    | init | start | kill | taskCompleted => exact hnews.elim
  · rintro ⟨gate, source, hsource, rfl⟩
    cases gate <;> exact hsource

theorem Gating.signal_inj {gate other : Gating} {source place : VertexId} :
    gate.signal source = other.signal place ↔ gate = other ∧ source = place := by
  cases gate <;> cases other <;> simp [Gating.signal]

/-- Signals that bring a vertex to its start: one to initialise and later one to start it, and news of its
sources around them. -/
def Opening (sources : List VertexId) (signals : List VertexSignal) : Prop :=
  ∃ before between later, signals = before ++ .init :: (between ++ .start :: later) ∧
    ∀ signal ∈ before ++ between ++ later, signal.IsNews sources

namespace Vertex

variable {vertex : Vertex}

/-! ### News -/

/-- The sources that are ready once a vertex has heard of one of them. -/
def readyAfter (vertex : Vertex) (source : VertexId) (gate : Gating) : List VertexId :=
  if gate = vertex.gating then vertex.ready.insert source else vertex.ready

theorem mem_readyAfter {source other : VertexId} {gate : Gating} :
    other ∈ vertex.readyAfter source gate ↔
      other ∈ vertex.ready ∨ vertex.gating.signal other = gate.signal source := by
  rw [readyAfter, Gating.signal_inj]
  split
  next hgate =>
    rw [List.mem_insert_iff, hgate]
    simp [or_comm]
  next hgate => simp [Ne.symm hgate]

/-- A vertex that waits makes an attempt to start with every news of a source. -/
theorem handle_news (hwaits : vertex.phase = .new ∨ vertex.phase = .inited) {source : VertexId}
    (hsource : source ∈ vertex.sources) (gate : Gating) : vertex.handle (gate.signal source) =
      startIfReady { vertex with ready := vertex.readyAfter source gate } := by
  have hlive : ¬ vertex.phase.isTerminal = true := by
    rcases hwaits with hphase | hphase <;> simp [hphase, Phase.isTerminal]
  rw [handle_signal, handleSource, if_neg hlive, sourcePassed, if_pos hsource, readyAfter]
  split <;> rfl

/-- A vertex that has just launched knows all there is to know of its sources. -/
theorem handle_news_of_launch (hready : ∀ source ∈ vertex.sources, source ∈ vertex.ready)
    {source : VertexId} (hsource : source ∈ vertex.sources) (gate : Gating) :
    vertex.launch.machine.handle (gate.signal source) = .rest vertex.launch.machine := by
  rw [handle_signal]
  refine handleSource_of_startIfReady ?_ (Or.inr ?_)
  · rw [startIfReady, if_neg]
    rintro ⟨hinited, -⟩
    rw [machine_launch] at hinited
    dsimp only at hinited
    split at hinited <;> cases hinited
  · rw [machine_launch]
    exact ⟨hsource, fun _ => hready source hsource⟩

/-- An attempt to start and the news that come after it are one attempt with all of the news. -/
theorem startIfReady_andThen_run (vertex : Vertex) (hwaits : vertex.phase = .new ∨ vertex.phase = .inited)
    {news : List VertexSignal} (hnews : ∀ signal ∈ news, signal.IsNews vertex.sources) :
    ∃ ready, (∀ source, source ∈ ready ↔ source ∈ vertex.ready ∨ vertex.gating.signal source ∈ news) ∧
      vertex.startIfReady.andThen (Step.run handle · news) = startIfReady { vertex with ready := ready } := by
  induction news generalizing vertex with
  | nil => exact ⟨vertex.ready, by simp, Step.andThen_rest _⟩
  | cons signal news ih =>
      obtain ⟨hfirst, hrest⟩ := List.forall_mem_cons.mp hnews
      obtain ⟨gate, source, hsource, rfl⟩ := VertexSignal.isNews_iff.mp hfirst
      by_cases hstart : vertex.phase = .inited ∧ vertex.toldToStart = true ∧
          ∀ source ∈ vertex.sources, source ∈ vertex.ready
      · -- The vertex launches, and everything else is no news to it.
        obtain ⟨ready, hready, heq⟩ := ih vertex hwaits hrest
        have hlaunch : vertex.startIfReady = vertex.launch := by rw [startIfReady, if_pos hstart]
        refine ⟨ready, fun other => ?_, ?_⟩
        · rw [hready, List.mem_cons, Gating.signal_inj]
          constructor
          · exact fun h => h.imp_right Or.inr
          · rintro (hold | ⟨-, rfl⟩ | hlater)
            · exact Or.inl hold
            · exact Or.inl (hstart.2.2 other hsource)
            · exact Or.inr hlater
        · rw [← heq, hlaunch]
          apply Step.andThen_congr
          rw [Step.run_cons, handle_news_of_launch hstart.2.2 hsource gate, Step.rest_andThen]
      · -- It still waits, and the next news makes the next attempt.
        have hwaiting : vertex.startIfReady = .rest vertex := by rw [startIfReady, if_neg hstart]
        obtain ⟨ready, hready, heq⟩ := ih { vertex with ready := vertex.readyAfter source gate } hwaits hrest
        refine ⟨ready, fun other => ?_, ?_⟩
        · rw [hready, mem_readyAfter, List.mem_cons, or_assoc]
        · rw [hwaiting, Step.rest_andThen, Step.run_cons, handle_news hwaits hsource gate]
          exact heq

/-- News that come before the command to start are only remembered. -/
theorem run_news_of_untold (vertex : Vertex) (hwaits : vertex.phase = .new ∨ vertex.phase = .inited)
    (huntold : vertex.toldToStart = false) {news : List VertexSignal}
    (hnews : ∀ signal ∈ news, signal.IsNews vertex.sources) :
    ∃ ready, (∀ source, source ∈ ready ↔ source ∈ vertex.ready ∨ vertex.gating.signal source ∈ news) ∧
      Step.run handle vertex news = .rest { vertex with ready := ready } := by
  obtain ⟨ready, hready, heq⟩ := startIfReady_andThen_run vertex hwaits hnews
  rw [startIfReady_of_untold huntold, Step.rest_andThen] at heq
  exact ⟨ready, hready, heq.trans (startIfReady_of_untold huntold)⟩

/-! ### Openings -/

/-- A whole opening is one attempt to start, with the sources ready that were heard to have passed the gate. -/
theorem run_opening (vertex : Vertex) (hnew : vertex.phase = .new) (huntold : vertex.toldToStart = false)
    (hunheard : vertex.ready = []) {signals : List VertexSignal} (hopening : Opening vertex.sources signals) :
    ∃ ready, (∀ source, source ∈ ready ↔ vertex.gating.signal source ∈ signals) ∧
      Step.run handle vertex signals =
        startIfReady { vertex with phase := .inited, toldToStart := true, ready := ready } := by
  obtain ⟨before, between, later, rfl, hnews⟩ := hopening
  obtain ⟨hearlier, hlater⟩ := List.forall_mem_append.mp hnews
  obtain ⟨hbefore, hbetween⟩ := List.forall_mem_append.mp hearlier
  obtain ⟨first, hfirst, heqFirst⟩ := run_news_of_untold vertex (Or.inl hnew) huntold hbefore
  obtain ⟨second, hsecond, heqSecond⟩ :=
    run_news_of_untold { vertex with phase := .inited, ready := first } (Or.inr rfl) huntold hbetween
  obtain ⟨ready, hready, heq⟩ := startIfReady_andThen_run
    { vertex with phase := .inited, toldToStart := true, ready := second } (Or.inr rfl) hlater
  have hinit : handle { vertex with ready := first } .init =
      .rest { vertex with phase := .inited, ready := first } := by
    simp [handle, handleInit, hnew]
  refine ⟨ready, fun source => ?_, ?_⟩
  · have hcommands : vertex.gating.signal source ≠ .init ∧ vertex.gating.signal source ≠ .start := by
      cases vertex.gating <;> simp [Gating.signal]
    rw [hready, hsecond, hfirst, hunheard]
    simp [hcommands, or_assoc]
  · rw [Step.run_append, heqFirst, Step.rest_andThen, Step.run_cons, hinit, Step.rest_andThen, Step.run_append,
      heqSecond, Step.rest_andThen, Step.run_cons]
    exact heq

/-! ### What an attempt to start depends on -/

theorem launch_of_ready (vertex : Vertex) (ready : List VertexId) : launch { vertex with ready := ready } =
    { vertex.launch with machine := { vertex.launch.machine with ready := ready } } := by
  rw [launch, launch]
  by_cases htotal : vertex.progress.total = 0
  · simp [Step.andThen, conclude, htotal]
  · simp [Step.andThen, tasks, htotal]

/-- Which sources are ready decides what an attempt to start does, and not the order in which they came. -/
theorem startIfReady_of_same (vertex : Vertex) {ready other : List VertexId}
    (hsame : ∀ source, source ∈ other ↔ source ∈ ready) : startIfReady { vertex with ready := other } =
      let attempt := startIfReady { vertex with ready := ready }
      { attempt with machine := { attempt.machine with ready := other } } := by
  simp only [startIfReady, hsame]
  split
  next => rw [launch_of_ready vertex other, launch_of_ready vertex ready]
  next => rfl

theorem ready_startIfReady (vertex : Vertex) : vertex.startIfReady.machine.ready = vertex.ready := by
  rcases vertex.startIfReady_cases with ⟨hwait, -⟩ | ⟨-, -, hlaunch⟩
  · rw [hwait]
  · rw [hlaunch, machine_launch]

/-- A vertex that may start runs, or has succeeded if it has no tasks. -/
theorem phase_startIfReady (hinited : vertex.phase = .inited) (htold : vertex.toldToStart = true) :
    vertex.startIfReady.machine.phase =
      if ∃ source ∈ vertex.sources, source ∉ vertex.ready then .inited
      else if vertex.progress.total = 0 then .succeeded else .running := by
  rw [startIfReady]
  by_cases hall : ∀ source ∈ vertex.sources, source ∈ vertex.ready
  · have hcomplete : ¬ ∃ source ∈ vertex.sources, source ∉ vertex.ready := by simpa using hall
    rw [if_pos ⟨hinited, htold, hall⟩, if_neg hcomplete, machine_launch]
  · have hmissing : ∃ source ∈ vertex.sources, source ∉ vertex.ready := by simpa using hall
    rw [if_neg (fun hstart => hall hstart.2.2), if_pos hmissing]
    exact hinited

/-- The start gate. Whatever the order in which a new vertex is told to initialise and later to start and hears
of its sources, it has every source on its list in the end that was heard to have passed its gate. It still waits
if one of its sources is missing, and otherwise runs or has succeeded, for want of tasks. Any other order of the
commands, with news of the same sources at this gate, leaves the same vertex, but for the order on its list, and
has sent the same. -/
theorem gate_opens_in_any_order (dag : DagId) (id : VertexId) (spec : VertexSpec) (graph : Graph)
    (gating : Gating) {signals : List VertexSignal} (hopening : Opening (graph.sources id) signals) :
    let after := Step.run handle (create dag id spec graph gating)
    (after signals).machine.phase =
        (if ∃ source ∈ graph.sources id, gating.signal source ∉ signals then .inited
          else if spec.taskCount = 0 then .succeeded else .running) ∧
      (∀ source, source ∈ (after signals).machine.ready ↔ gating.signal source ∈ signals) ∧
      ∀ other, Opening (graph.sources id) other →
        (∀ source, gating.signal source ∈ other ↔ gating.signal source ∈ signals) →
        (∀ source, source ∈ (after other).machine.ready ↔ source ∈ (after signals).machine.ready) ∧
        { (after other).machine with ready := (after signals).machine.ready } = (after signals).machine ∧
        (after other).outbound = (after signals).outbound ∧
        (after other).notices = (after signals).notices := by
  intro after
  let told : Vertex := { create dag id spec graph gating with phase := .inited, toldToStart := true }
  have hattempt : ∀ {signals}, Opening (graph.sources id) signals →
      ∃ ready, (∀ source, source ∈ ready ↔ gating.signal source ∈ signals) ∧
        after signals = startIfReady { told with ready := ready } :=
    run_opening (create dag id spec graph gating) rfl rfl rfl
  obtain ⟨ready, hheard, hafter⟩ := hattempt hopening
  have hready : (after signals).machine.ready = ready := by rw [hafter, ready_startIfReady]
  refine ⟨?_, fun source => ?_, fun other hother hsame => ?_⟩
  · rw [hafter, phase_startIfReady rfl rfl]
    simp only [hheard]
    rfl
  · rw [hready]
    exact hheard source
  · obtain ⟨ready', hheard', hafter'⟩ := hattempt hother
    have hset : ∀ source, source ∈ ready' ↔ source ∈ ready := fun source =>
      (hheard' source).trans ((hsame source).trans (hheard source).symm)
    rw [startIfReady_of_same told hset, ← hafter] at hafter'
    rw [hafter']
    refine ⟨fun source => ?_, rfl, rfl, rfl⟩
    rw [hready]
    exact hset source

/-- The second vertex of a line starts once the first has succeeded, whether it hears of that before it is told to
start or twice afterwards. That the first has started does not open this gate. -/
theorem gate_opens_in_any_order_line :
    let after := Step.run handle (create ⟨1⟩ ⟨1⟩ ⟨"v1", 1, {}⟩ Coordinator.lineGraph .sourceSucceeded)
    let early := after [.sourceStarted ⟨0⟩, .init, .sourceSucceeded ⟨0⟩, .start]
    let late := after [.init, .start, .sourceSucceeded ⟨0⟩, .sourceStarted ⟨0⟩, .sourceSucceeded ⟨0⟩]
    early.machine.phase = .running ∧
      { late.machine with ready := early.machine.ready } = early.machine ∧
      late.outbound = early.outbound ∧
      (after [.init, .start, .sourceStarted ⟨0⟩]).machine.phase = .inited := by
  intro after early late
  have hearly : Opening (Coordinator.lineGraph.sources ⟨1⟩)
      [.sourceStarted ⟨0⟩, .init, .sourceSucceeded ⟨0⟩, .start] :=
    ⟨[.sourceStarted ⟨0⟩], [.sourceSucceeded ⟨0⟩], [], rfl, by decide⟩
  have hlate : Opening (Coordinator.lineGraph.sources ⟨1⟩)
      [.init, .start, .sourceSucceeded ⟨0⟩, .sourceStarted ⟨0⟩, .sourceSucceeded ⟨0⟩] :=
    ⟨[], [], [.sourceSucceeded ⟨0⟩, .sourceStarted ⟨0⟩, .sourceSucceeded ⟨0⟩], rfl, by decide⟩
  have hwaiting : Opening (Coordinator.lineGraph.sources ⟨1⟩) [.init, .start, .sourceStarted ⟨0⟩] :=
    ⟨[], [], [.sourceStarted ⟨0⟩], rfl, by decide⟩
  obtain ⟨hphase, -, hany⟩ :=
    gate_opens_in_any_order ⟨1⟩ ⟨1⟩ ⟨"v1", 1, {}⟩ Coordinator.lineGraph .sourceSucceeded hearly
  obtain ⟨-, hmachine, houtbound, -⟩ := hany _ hlate (by simp [Gating.signal])
  obtain ⟨hwait, -⟩ :=
    gate_opens_in_any_order ⟨1⟩ ⟨1⟩ ⟨"v1", 1, {}⟩ Coordinator.lineGraph .sourceSucceeded hwaiting
  exact ⟨hphase.trans (by decide), hmachine, houtbound, hwait.trans (by decide)⟩

end Vertex

end JobFlow
