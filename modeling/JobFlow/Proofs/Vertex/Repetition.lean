import JobFlow.Proofs.Vertex.Correspondence

/-!
Signals that a vertex is sent twice. The first kill leaves a vertex that is dying or over, the first news of a
source leaves it on the list of those that are ready, and the first report of a task leaves it on file, unless
it was the undoing of the vertex. None of this is lost again. Main statement: the second copy of a kill, of
the news of a source or of a report does nothing, however late it comes.
-/

namespace JobFlow.Vertex

/-- What the news that a source passed a gate leaves behind. -/
def Knows (vertex : Vertex) (source : VertexId) (gate : Gating) : Prop :=
  vertex.phase.isTerminal = true ∨
    source ∈ vertex.sources ∧ (gate = vertex.gating → source ∈ vertex.ready)

/-- What a report of a task leaves behind: an error, the first report on file, or nothing at all in a vertex
that is over and never launched such a task. -/
def Settled (vertex : Vertex) (task : TaskId) : Prop :=
  vertex.phase = .error ∨
    vertex.Owns task ∧ vertex.launched = true ∧ (∃ first, vertex.slots[task.index]? = some (some first)) ∨
    vertex.phase.isTerminal = true ∧ ¬ (vertex.Owns task ∧ vertex.launched = true)

variable {vertex : Vertex}

/-! ### The first copy -/

theorem Knows.startIfReady {source : VertexId} {gate : Gating} (hknows : vertex.Knows source gate) :
    vertex.startIfReady.machine.Knows source gate := by
  rcases vertex.startIfReady_cases with ⟨hwait, -⟩ | ⟨hinited, -, hlaunch⟩
  · rw [hwait]
    exact hknows
  · rw [hlaunch, machine_launch]
    exact Or.inr (hknows.resolve_left (by simp [hinited, Phase.isTerminal]))

theorem knows_handleSource (vertex : Vertex) (source : VertexId) (gate : Gating) :
    (vertex.handleSource source gate).machine.Knows source gate := by
  rw [handleSource]
  split
  next hover => exact Or.inl hover
  next =>
    rw [sourcePassed]
    split
    next hsource =>
      apply Knows.startIfReady
      split
      next => exact Or.inr ⟨hsource, fun _ => List.mem_insert_self⟩
      next hgate => exact Or.inr ⟨hsource, fun heq => absurd heq hgate⟩
    next => exact Or.inl rfl

theorem report_of_foreign {task : TaskId} (hforeign : ¬ (vertex.Owns task ∧ vertex.launched = true))
    (outcome : TaskOutcome) : ∃ reason, vertex.report task outcome = .invalid reason := by
  rw [report]
  split
  next => exact ⟨_, rfl⟩
  next hown =>
    obtain ⟨hvertex, hindex⟩ := not_or.mp hown
    have howns : vertex.Owns task := ⟨Decidable.of_not_not hvertex, Nat.lt_of_not_le hindex⟩
    rw [if_pos (fun hlaunched => hforeign ⟨howns, hlaunched⟩)]
    exact ⟨_, rfl⟩

/-- A report of what is no task of a vertex, or not yet one, is only borne by a vertex that is over. -/
theorem isTerminal_handleTask {task : TaskId} (hforeign : ¬ (vertex.Owns task ∧ vertex.launched = true))
    (outcome : TaskOutcome) : (vertex.handleTask task outcome).machine.phase.isTerminal = true := by
  obtain ⟨reason, hreport⟩ := report_of_foreign hforeign outcome
  rw [handleTask]
  cases hphase : vertex.phase with
  | new | inited => rfl
  | running =>
      dsimp only
      rw [reportRunning, hreport]
      rfl
  | killWait =>
      dsimp only
      rw [reportDying, hreport]
      rfl
  | succeeded | failed | killed =>
      dsimp only
      rw [reportLate, hreport, Step.machine_rest, hphase]
      rfl
  | error =>
      rw [Step.machine_rest, hphase]
      rfl

theorem settled_handleTask (hvalid : vertex.Valid) (task : TaskId) (outcome : TaskOutcome) :
    (vertex.handleTask task outcome).machine.Settled task := by
  have hforeign : ¬ (vertex.Owns task ∧ vertex.launched = true) →
      (vertex.handleTask task outcome).machine.phase.isTerminal = true :=
    fun hforeign => isTerminal_handleTask hforeign outcome
  have hchange := change_handleTask hvalid task outcome
  generalize (vertex.handleTask task outcome).machine = after at hforeign hchange
  cases hchange with
  | kept hfirst =>
      by_cases herror : vertex.phase = .error
      · exact Or.inl herror
      · by_cases howns : vertex.Owns task ∧ vertex.launched = true
        · exact Or.inr (Or.inl ⟨howns.1, howns.2, hfirst task outcome rfl herror howns.1 howns.2⟩)
        · exact Or.inr (Or.inr ⟨hforeign howns, howns⟩)
  | inited hsignal => cases hsignal
  | noted hsignal => exact absurd rfl (hsignal task outcome)
  | launched hsignal => exact absurd rfl (hsignal task outcome)
  | stopped hsignal => cases hsignal
  | rejected => exact Or.inl rfl
  | filed _ _ hsignal howns hlaunched hslot =>
      cases hsignal
      have hindex : task.index < (vertex.file task outcome).slots.length := by
        rw [file, List.length_set]
        exact howns.2
      refine Or.inr (Or.inl ⟨⟨howns.1, hindex⟩, hlaunched, outcome, ?_⟩)
      exact List.getElem?_set_self howns.2

/-! ### What comes between -/

theorem Knows.of_follows {after : Vertex} {source : VertexId} {gate : Gating}
    (hknows : vertex.Knows source gate) (hfollows : vertex.Follows after) : after.Knows source gate := by
  rcases hknows with hover | ⟨hsource, hready⟩
  · exact Or.inl (by rw [hfollows.ended hover]; exact hover)
  · refine Or.inr ⟨hfollows.sources ▸ hsource, fun hgate => ?_⟩
    exact hfollows.ready source (hready (hgate.trans hfollows.gating))

/-- A vertex that is over is not launched any more. -/
theorem launched_run (hvalid : vertex.Valid) (hover : vertex.phase.isTerminal = true)
    (signals : List VertexSignal) : (Step.run handle vertex signals).machine.launched = vertex.launched := by
  refine (Step.run_keeps (motive := fun machine : Vertex => machine.Valid ∧
    machine.phase.isTerminal = true ∧ machine.launched = vertex.launched) ⟨hvalid, hover, rfl⟩ ?_ signals).2.2
  rintro machine signal ⟨hmachine, hover, hlaunched⟩
  have hlawful := lawful_handle hmachine signal
  refine ⟨hlawful.valid, by rw [hlawful.follows.ended hover]; exact hover, Eq.trans ?_ hlaunched⟩
  cases hbefore : machine.launched with
  | true => exact hlawful.follows.launched hbefore
  | false =>
      refine Bool.eq_false_iff.mpr (fun hafter => ?_)
      have hinited := ((change_handle hmachine signal).of_launched (by simp [hbefore]) hafter).1
      rw [hinited] at hover
      cases hover

theorem Settled.run (hvalid : vertex.Valid) {task : TaskId} (hsettled : vertex.Settled task)
    (signals : List VertexSignal) : (Step.run handle vertex signals).machine.Settled task := by
  obtain ⟨-, hfollows, -⟩ := follows_run hvalid signals
  have howns : (Step.run handle vertex signals).machine.Owns task ↔ vertex.Owns task := by
    rw [Owns, Owns, hfollows.id, hfollows.length]
  rcases hsettled with herror | ⟨hown, hlaunched, first, hfirst⟩ | ⟨hover, hforeign⟩
  · exact Or.inl ((hfollows.ended (by rw [herror]; rfl)).trans herror)
  · exact Or.inr (Or.inl
      ⟨howns.mpr hown, hfollows.launched hlaunched, first, hfollows.filed task.index first hfirst⟩)
  · refine Or.inr (Or.inr ⟨by rw [hfollows.ended hover]; exact hover, ?_⟩)
    rw [howns, launched_run hvalid hover]
    exact hforeign

/-! ### The second copy -/

theorem handleKill_of_rank (hrank : 3 ≤ vertex.phase.rank) :
    vertex.handleKill = .rest vertex := by
  rw [handleKill]
  cases hphase : vertex.phase with
  | killWait | succeeded | failed | killed | error => rfl
  | new | inited | running =>
      rw [hphase] at hrank
      exact absurd hrank (by decide)

/-- A vertex whose books are in order would have launched by now. -/
theorem Valid.startIfReady_eq (hvalid : vertex.Valid) : vertex.startIfReady = .rest vertex := by
  rw [startIfReady, if_neg]
  rintro ⟨hinited, htold, hready⟩
  obtain ⟨source, hsource, hmissing⟩ := hvalid.gated hinited htold
  exact hmissing (hready source hsource)

/-- News that a vertex knows make no difference unless it can start without them. -/
theorem handleSource_of_startIfReady (hrest : vertex.startIfReady = .rest vertex) {source : VertexId}
    {gate : Gating} (hknows : vertex.Knows source gate) : vertex.handleSource source gate = .rest vertex := by
  rw [handleSource]
  split
  next => rfl
  next hlive =>
    obtain ⟨hsource, hready⟩ := hknows.resolve_left hlive
    have hsame : (if gate = vertex.gating then { vertex with ready := vertex.ready.insert source } else vertex) =
        vertex := by
      split
      next hgate => rw [List.insert_of_mem (hready hgate)]
      next => rfl
    rw [sourcePassed, if_pos hsource, hsame, hrest]

theorem handleSource_of_knows (hvalid : vertex.Valid) {source : VertexId} {gate : Gating}
    (hknows : vertex.Knows source gate) : vertex.handleSource source gate = .rest vertex :=
  handleSource_of_startIfReady hvalid.startIfReady_eq hknows

theorem report_of_filed {task : TaskId} (howns : vertex.Owns task) (hlaunched : vertex.launched = true)
    {first : TaskOutcome} (hfirst : vertex.slots[task.index]? = some (some first)) (outcome : TaskOutcome) :
    vertex.report task outcome = .repeated := by
  rcases vertex.report_cases task outcome with ⟨-, hforeign⟩ | ⟨heq, -⟩ | ⟨-, -, -, hslot⟩
  · exact absurd ⟨howns, hlaunched⟩ hforeign
  · exact heq
  · cases hfirst.symm.trans hslot

theorem handleTask_of_settled (hvalid : vertex.Valid) {task : TaskId} (hsettled : vertex.Settled task)
    (outcome : TaskOutcome) : vertex.handleTask task outcome = .rest vertex := by
  rw [handleTask]
  rcases hsettled with herror | ⟨howns, hlaunched, first, hfirst⟩ | ⟨hover, hforeign⟩
  · rw [herror]
  · have hrepeated := report_of_filed howns hlaunched hfirst outcome
    cases hphase : vertex.phase with
    | new | inited =>
        have hunlaunched := hvalid.waiting (by simp [hphase])
        cases hunlaunched.symm.trans hlaunched
    | running =>
        dsimp only
        rw [reportRunning, hrepeated]
    | killWait =>
        dsimp only
        rw [reportDying, hrepeated]
    | succeeded | failed | killed =>
        dsimp only
        rw [reportLate, hrepeated]
    | error => rfl
  · obtain ⟨reason, hinvalid⟩ := report_of_foreign hforeign outcome
    cases hphase : vertex.phase with
    | new | inited | running | killWait =>
        rw [hphase] at hover
        cases hover
    | succeeded | failed | killed =>
        dsimp only
        rw [reportLate, hinvalid]
    | error => rfl

/-- The second copy of a signal, after whatever a vertex was sent before the first one and in between. A kill,
the news that a source passed a gate, of a real source or not, and a report of a task, valid or not, then make
no difference; nor does a report of the same task with another outcome. -/
theorem late_copy_rests (dag : DagId) (id : VertexId) (spec : VertexSpec) (graph : Graph) (gating : Gating)
    (before between : List VertexSignal) :
    let after := fun signal =>
      (Step.run handle (create dag id spec graph gating) (before ++ [signal] ++ between)).machine
    (after .kill).handle .kill = .rest (after .kill) ∧
    (∀ (gate : Gating) source,
      let vertex := after (gate.signal source)
      vertex.handle (gate.signal source) = .rest vertex) ∧
    ∀ task outcome,
      let vertex := after (.taskCompleted task outcome)
      ∀ other, vertex.handle (.taskCompleted task other) = .rest vertex := by
  intro after
  have hcreate := valid_create dag id spec graph gating
  have hbefore := (follows_run hcreate before).1
  have hfirst := fun signal => (lawful_handle hbefore signal).valid
  have hafter : ∀ signal, after signal = (Step.run handle
      ((Step.run handle (create dag id spec graph gating) before).machine.handle signal).machine
      between).machine := by
    intro signal
    simp only [after, Step.machine_run_append, Step.machine_run_cons, Step.run_nil, Step.machine_rest]
  have hvalid : ∀ signal, (after signal).Valid := fun signal => (follows_run hcreate _).1
  have hfollows := fun signal => (follows_run (hfirst signal) between).2.1
  refine ⟨handleKill_of_rank ?_, fun gate source => ?_, fun task outcome => handleTask_of_settled (hvalid _) ?_⟩
  · rw [hafter]
    exact Nat.le_trans (rank_handleKill _) (hfollows .kill).rank
  · dsimp only
    rw [handle_signal]
    refine handleSource_of_knows (hvalid _) (Knows.of_follows ?_ (hafter _ ▸ hfollows (gate.signal source)))
    rw [handle_signal]
    exact knows_handleSource _ source gate
  · rw [hafter]
    exact Settled.run (hfirst (.taskCompleted task outcome)) (settled_handleTask hbefore task outcome) between

end JobFlow.Vertex
