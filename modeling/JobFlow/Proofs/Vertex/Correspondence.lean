import JobFlow.Proofs.Graph.Soundness
import JobFlow.Proofs.History
import JobFlow.Proofs.Run
import JobFlow.Proofs.Vertex.Responses

/-!
The correspondence of a vertex. What it sends in a whole history falls into three parts: the requests and
the news of its launch, the orders to kill what still runs, and the news of its end. Main statement: the
parts, written out for the vertex of any plan.
-/

namespace JobFlow.Vertex

/-! ### What a step contributes to the parts -/

def launchPart : Vertex → VertexSignal → Vertex → List Event :=
  Step.upon (·.launched = true) launchEvents

/-- The order to kill what still runs, from a vertex that comes to stop. -/
def stopPart (before after : Vertex) : List Event :=
  if before.phase ≠ after.phase ∧ after.phase.isStopping then after.killRequest else []

def firstKillPart (before : Vertex) (_ : VertexSignal) (after : Vertex) : List Event :=
  if before.phase ≠ .killWait then stopPart before after else []

/-- The order from a vertex that was waiting already for what it had ordered to be killed. -/
def secondKillPart (before : Vertex) (_ : VertexSignal) (after : Vertex) : List Event :=
  if before.phase = .killWait then stopPart before after else []

def endPart : Vertex → VertexSignal → Vertex → List Event := Step.upon (·.phase.isTerminal) endEvents

section Step

variable {vertex after : Vertex} {signal : VertexSignal}

/-- Only a launch makes a vertex launched, and it takes place in `inited`. -/
theorem Change.of_launched (hchange : vertex.Change signal after) (hbefore : ¬ vertex.launched = true)
    (hafter : after.launched = true) : vertex.phase = .inited ∧
      after.phase = if vertex.progress.total = 0 then .succeeded else .running := by
  cases hchange with
  | launched _ hinited told ready =>
      rw [machine_launch]
      exact ⟨hinited, rfl⟩
  | kept | inited | noted | stopped | rejected | filed => exact absurd hafter hbefore

theorem Change.resource (hchange : vertex.Change signal after) : after.resource = vertex.resource := by
  cases hchange with
  | launched _ _ told ready => rw [machine_launch]
  | kept | inited | noted | stopped | rejected | filed => rfl

section KillWait

variable (hphase : vertex.phase = .killWait)

include hphase

theorem handleSource_of_killWait (source : VertexId) (gate : Gating) :
    (vertex.handleSource source gate).machine.phase = .killWait ∨
      ∃ reason, vertex.handleSource source gate = vertex.violate reason := by
  have hlive : ¬ vertex.phase.isTerminal := by simp [hphase, Phase.isTerminal]
  have hwaits : ∀ ready, (startIfReady { vertex with ready := ready }).machine.phase = .killWait := by
    intro ready
    rcases startIfReady_cases { vertex with ready := ready } with ⟨hwait, -⟩ | ⟨hinited, -⟩
    · rw [hwait]
      exact hphase
    · cases hphase.symm.trans hinited
  rw [handleSource, if_neg hlive, sourcePassed]
  split
  next =>
    left
    split
    · exact hwaits _
    · exact hwaits _
  next => exact Or.inr ⟨_, rfl⟩

theorem reportDying_of_killWait (hvalid : vertex.Valid) (task : TaskId) (outcome : TaskOutcome) :
    (vertex.reportDying task outcome).machine.phase = .killWait ∨
      (vertex.reportDying task outcome).machine.killRequest = [] ∨
      ∃ reason, vertex.reportDying task outcome = vertex.violate reason := by
  have hlawful := lawful_reportDying hvalid hphase task outcome
  rw [reportDying] at hlawful ⊢
  rcases vertex.report_cases task outcome with ⟨⟨reason, heq⟩, -⟩ | ⟨heq, -⟩ | ⟨heq, -⟩
  · rw [heq]
    exact Or.inr (Or.inr ⟨reason, rfl⟩)
  · rw [heq]
    exact Or.inl hphase
  · rw [heq] at hlawful ⊢
    dsimp only at hlawful ⊢
    split at hlawful
    next hrunning =>
      rw [if_pos hrunning]
      exact Or.inr (Or.inl (killRequest_eq_nil hlawful.valid.toTallied hrunning))
    next hrunning =>
      rw [if_neg hrunning]
      exact Or.inl hphase

/-- A vertex that is being killed goes on waiting, or is over with everything reported, or has met with a
violation of the protocol. -/
theorem handle_of_killWait (hvalid : vertex.Valid) (signal : VertexSignal) :
    (vertex.handle signal).machine.phase = .killWait ∨
      (vertex.handle signal).machine.killRequest = [] ∨
      ∃ reason, vertex.handle signal = vertex.violate reason := by
  cases signal with
  | init =>
      refine Or.inr (Or.inr ⟨.unexpected .init vertex.phase, ?_⟩)
      simp [handle, handleInit, hphase, Phase.isTerminal]
  | start =>
      refine Or.inr (Or.inr ⟨.unexpected .start vertex.phase, ?_⟩)
      simp [handle, handleStart, hphase, Phase.isTerminal]
  | kill => exact Or.inl (by simp [handle, handleKill, hphase])
  | sourceStarted source =>
      exact (handleSource_of_killWait hphase source .sourceStarted).imp_right Or.inr
  | sourceSucceeded source =>
      exact (handleSource_of_killWait hphase source .sourceSucceeded).imp_right Or.inr
  | taskCompleted task outcome =>
      have hdying := reportDying_of_killWait hphase hvalid task outcome
      simpa [handle, handleTask, hphase] using hdying

end KillWait

variable (hvalid : vertex.Valid) (signal : VertexSignal)

include hvalid

/-- What a step sends is its contribution to the parts. -/
theorem outbound_handle : (vertex.handle signal).outbound =
    launchPart vertex signal (vertex.handle signal).machine ++
      (firstKillPart vertex signal (vertex.handle signal).machine ++
        (secondKillPart vertex signal (vertex.handle signal).machine ++
          endPart vertex signal (vertex.handle signal).machine)) := by
  rw [(lawful_handle hvalid signal).outbound, announcements, firstKillPart, secondKillPart]
  simp only [launchPart, endPart, Step.upon, Bool.not_eq_true, stopPart, List.append_assoc]
  by_cases hphase : vertex.phase = .killWait
  · rw [if_neg (not_not_intro hphase), if_pos hphase, List.nil_append]
  · rw [if_pos hphase, if_neg hphase, List.nil_append]

end Step

/-! ### Each part is sent once -/

section Once

theorem of_stopPart {before after : Vertex} (hpart : stopPart before after ≠ []) :
    before.phase ≠ after.phase ∧ after.phase.isStopping ∧ after.launched = true ∧
      stopPart before after = [.tasks after.id (.kill after.unreported)] := by
  obtain ⟨⟨hmoves, hstopping⟩, hstop⟩ := Step.of_ite_ne_nil hpart
  have hstop : stopPart before after = after.killRequest := hstop
  rw [hstop] at hpart ⊢
  obtain ⟨hruns, hkill⟩ := Step.of_ite_ne_nil hpart
  exact ⟨hmoves, hstopping, hruns.1, hkill⟩

theorem of_firstKillPart {before after : Vertex} {signal : VertexSignal}
    (hpart : firstKillPart before signal after ≠ []) :
    before.phase ≠ .killWait ∧ firstKillPart before signal after = stopPart before after :=
  Step.of_ite_ne_nil hpart

theorem of_secondKillPart {before after : Vertex} {signal : VertexSignal}
    (hpart : secondKillPart before signal after ≠ []) :
    before.phase = .killWait ∧ secondKillPart before signal after = stopPart before after :=
  Step.of_ite_ne_nil hpart

theorem rank_of_isStopping {phase : Phase} (hstopping : phase.isStopping) :
    Phase.killWait.rank ≤ phase.rank := by
  cases phase with
  | killWait | failed | killed | error => decide
  | new | inited | running | succeeded => cases hstopping

theorem isTerminal_of_isStopping {phase : Phase} (hstopping : phase.isStopping)
    (hwaits : phase ≠ .killWait) : phase.isTerminal = true := by
  cases phase with
  | killWait => exact absurd rfl hwaits
  | failed | killed | error => rfl
  | new | inited | running | succeeded => cases hstopping

theorem rank_lt_killWait {phase : Phase} (hwaits : phase ≠ .killWait) (hlive : ¬ phase.isTerminal) :
    phase.rank < Phase.killWait.rank := by
  cases phase with
  | new | inited | running => decide
  | killWait => exact absurd rfl hwaits
  | succeeded | failed | killed | error => exact absurd rfl hlive

/-- A part that takes a vertex from below a rank to it is sent once. -/
theorem once_of_rank {rank : Nat} {piece : Vertex → VertexSignal → Vertex → List Event}
    (hrank : ∀ (vertex : Vertex) signal, vertex.Valid →
      piece vertex signal (vertex.handle signal).machine ≠ [] →
        vertex.phase.rank < rank ∧ rank ≤ (vertex.handle signal).machine.phase.rank) :
    Step.Once handle Valid (fun vertex => rank ≤ vertex.phase.rank) piece where
  keeps _ signal hvalid := (lawful_handle hvalid signal).valid
  stays _ signal hvalid hdoor := Nat.le_trans hdoor (lawful_handle hvalid signal).follows.rank
  opened vertex signal hvalid hpart := Nat.not_le.mpr (hrank vertex signal hvalid hpart).1
  closes vertex signal hvalid hpart := (hrank vertex signal hvalid hpart).2

theorem once_launch :
    Step.Once handle Valid (fun vertex => Phase.running.rank ≤ vertex.phase.rank) launchPart := by
  refine once_of_rank (fun vertex signal hvalid hpart => ?_)
  obtain ⟨hbefore, hafter⟩ := Step.of_upon hpart
  obtain ⟨hinited, hphase⟩ := (change_handle hvalid signal).of_launched hbefore hafter
  rw [hinited, hphase]
  refine ⟨by decide, ?_⟩
  split <;> decide

theorem once_firstKill :
    Step.Once handle Valid (fun vertex => Phase.killWait.rank ≤ vertex.phase.rank) firstKillPart := by
  refine once_of_rank (fun vertex signal hvalid hpart => ?_)
  obtain ⟨hwaits, hstop⟩ := of_firstKillPart hpart
  rw [hstop] at hpart
  obtain ⟨hmoves, hstopping, -⟩ := of_stopPart hpart
  have hlive := mt (lawful_handle hvalid signal).follows.ended (fun h => hmoves h.symm)
  exact ⟨rank_lt_killWait hwaits hlive, rank_of_isStopping hstopping⟩

/-- The step with which a vertex leaves `killWait` ends it. -/
theorem isTerminal_of_secondKillPart {vertex : Vertex} {signal : VertexSignal}
    (hpart : secondKillPart vertex signal (vertex.handle signal).machine ≠ []) :
    (vertex.handle signal).machine.phase.isTerminal = true := by
  obtain ⟨hphase, hstop⟩ := of_secondKillPart hpart
  rw [hstop] at hpart
  obtain ⟨hmoves, hstopping, -⟩ := of_stopPart hpart
  exact isTerminal_of_isStopping hstopping (fun hwaits => hmoves (hphase.trans hwaits.symm))

theorem once_secondKill :
    Step.Once handle Valid (fun vertex => 4 ≤ vertex.phase.rank) secondKillPart := by
  refine once_of_rank (fun vertex signal hvalid hpart => ?_)
  rw [(of_secondKillPart hpart).1, Phase.rank_eq_four.mpr (isTerminal_of_secondKillPart hpart)]
  decide

theorem once_end : Step.Once handle Valid (fun vertex => vertex.phase.isTerminal) endPart := by
  refine Step.once_upon (fun vertex signal hvalid => ?_)
  have hlawful := lawful_handle hvalid signal
  exact ⟨hlawful.valid, fun hover => by rwa [hlawful.follows.ended hover]⟩

end Once

/-! ### Histories -/

section History

variable {vertex : Vertex} (hvalid : vertex.Valid) (signals : List VertexSignal)

include hvalid

/-- What is sent in a history falls into the parts. -/
theorem outbound_run : (Step.run handle vertex signals).outbound =
    Step.gather handle launchPart vertex signals ++
      (Step.gather handle firstKillPart vertex signals ++
        (Step.gather handle secondKillPart vertex signals ++
          Step.gather handle endPart vertex signals)) := by
  refine Step.outbound_run_of_parts once_launch once_firstKill once_secondKill endPart ?_ ?_
    (fun _ signal h => outbound_handle h signal) hvalid signals
  · intro machine _
    exact ⟨fun hrank => Nat.le_trans (by decide) hrank, fun hrank => Nat.le_trans (by decide) hrank⟩
  · intro machine signal _ hpart
    exact rank_of_isTerminal (Step.of_upon hpart).2 4 (Nat.le_refl 4)

/-- What never changes about a vertex in a history. -/
theorem follows_run : (Step.run handle vertex signals).machine.Valid ∧
    vertex.Follows (Step.run handle vertex signals).machine ∧
    (Step.run handle vertex signals).machine.resource = vertex.resource := by
  refine Step.run_keeps (motive := fun machine : Vertex => machine.Valid ∧ vertex.Follows machine ∧
    machine.resource = vertex.resource) ⟨hvalid, Follows.refl vertex, rfl⟩ ?_ signals
  rintro before signal ⟨hbefore, hfollows, hresource⟩
  have hlawful := lawful_handle hbefore signal
  exact ⟨hlawful.valid, hfollows.trans hlawful.follows,
    ((change_handle hbefore signal).resource).trans hresource⟩

omit hvalid in
theorem launchEvents_of_follows {before after : Vertex} (hfollows : before.Follows after)
    (hresource : after.resource = before.resource) : after.launchEvents = before.launchEvents := by
  unfold launchEvents tasks
  rw [hfollows.id, hfollows.total, hfollows.targets, hresource]

omit hvalid in
theorem endEvents_of_follows {before after : Vertex} (hfollows : before.Follows after)
    (hphase : after.phase = before.phase) : after.endEvents = before.endEvents := by
  unfold endEvents
  rw [hfollows.dag, hfollows.id, hfollows.targets, hphase]

/-- What a vertex sends when it launches is settled from the start. -/
theorem gather_launchPart (hunlaunched : vertex.launched = false) :
    Step.gather handle launchPart vertex signals =
      if (Step.run handle vertex signals).machine.launched = true then vertex.launchEvents else [] := by
  obtain ⟨-, hfollows, hresource⟩ := follows_run hvalid signals
  rw [← launchEvents_of_follows hfollows hresource]
  refine Step.gather_upon (fun machine signal hmachine => ?_) hvalid (by simp [hunlaunched]) signals
  have hlawful := lawful_handle hmachine signal
  exact ⟨hlawful.valid, fun hlaunched => ⟨hlawful.follows.launched hlaunched,
    launchEvents_of_follows hlawful.follows (change_handle hmachine signal).resource⟩⟩

/-- What a vertex sends when it ends can be read off it afterwards. -/
theorem gather_endPart (hlive : ¬ vertex.phase.isTerminal) :
    Step.gather handle endPart vertex signals =
      if (Step.run handle vertex signals).machine.phase.isTerminal then
        (Step.run handle vertex signals).machine.endEvents
      else [] := by
  refine Step.gather_upon (fun machine signal hmachine => ?_) hvalid hlive signals
  have hlawful := lawful_handle hmachine signal
  refine ⟨hlawful.valid, fun hover => ?_⟩
  have hphase := hlawful.follows.ended hover
  exact ⟨by rw [hphase]; exact hover, endEvents_of_follows hlawful.follows hphase⟩

/-- A vertex orders tasks to be killed for the first time when it stops or starts to wait. -/
theorem gather_firstKillPart : Step.gather handle firstKillPart vertex signals = [] ∨
    ∃ tasks, Step.gather handle firstKillPart vertex signals = [.tasks vertex.id (.kill tasks)] := by
  refine (once_firstKill.gather_cases hvalid signals).imp_right ?_
  rintro ⟨earlier, signal, -, hpart, hgather⟩
  have hstop := (of_firstKillPart hpart).2
  rw [hstop] at hpart hgather
  have hid := (follows_run hvalid (earlier ++ [signal])).2.1.id
  exact ⟨_, by rw [hgather, (of_stopPart hpart).2.2.2, hid]⟩

/-- It does so again if the protocol is violated while it waits. -/
theorem gather_secondKillPart : Step.gather handle secondKillPart vertex signals = [] ∨
    ∃ tasks, Step.gather handle secondKillPart vertex signals = [.tasks vertex.id (.kill tasks)] ∧
      Step.Occurs handle vertex signals (fun before signal _ => before.phase = .killWait ∧
        tasks = before.unreported ∧ ∃ reason, before.handle signal = before.violate reason) := by
  refine (once_secondKill.gather_cases hvalid signals).imp_right ?_
  rintro ⟨earlier, signal, hpre, hpart, hgather⟩
  obtain ⟨hphase, hstop⟩ := of_secondKillPart hpart
  rw [hstop] at hpart hgather
  obtain ⟨hmoves, -, -, hkill⟩ := of_stopPart hpart
  have hbefore := (follows_run hvalid earlier).1
  have hid := (follows_run hvalid (earlier ++ [signal])).2.1.id
  refine ⟨_, by rw [hgather, hkill, hid], earlier, signal, hpre, hphase, ?_⟩
  rw [Step.machine_run_concat] at hmoves hpart ⊢
  rcases handle_of_killWait hphase hbefore signal with hwaits | hnothing | ⟨reason, hviolate⟩
  · exact absurd (hphase.trans hwaits.symm) hmoves
  · rw [stopPart, hnothing, ite_self] at hpart
    exact absurd rfl hpart
  · exact ⟨by rw [hviolate]; rfl, reason, hviolate⟩

/-- A vertex that waits for its tasks has ordered them to be killed. -/
theorem secondKill_of_firstKill (hrank : vertex.phase.rank < Phase.killWait.rank)
    (hfirst : Step.gather handle firstKillPart vertex signals = []) :
    Step.gather handle secondKillPart vertex signals = [] := by
  induction signals generalizing vertex with
  | nil => rfl
  | cons signal signals ih =>
      have hnext := (lawful_handle hvalid signal).valid
      have hphase : vertex.phase ≠ .killWait := by
        intro heq
        rw [heq] at hrank
        exact Nat.lt_irrefl _ hrank
      rw [Step.gather, List.append_eq_nil_iff] at hfirst ⊢
      refine ⟨if_neg hphase, ?_⟩
      have hwaits : (vertex.handle signal).machine.phase ≠ .killWait := by
        intro hwaits
        obtain ⟨hlaunched, hrunning⟩ := hnext.live (Or.inr hwaits)
        have hunreported := hnext.unreported_ne_nil hlaunched hrunning
        have hstops : vertex.phase ≠ (vertex.handle signal).machine.phase := by
          rw [hwaits]
          exact hphase
        have hkill := hfirst.1
        rw [firstKillPart, if_pos hphase, stopPart, if_pos ⟨hstops, by rw [hwaits]; rfl⟩, killRequest,
          if_pos ⟨hlaunched, hunreported⟩] at hkill
        cases hkill
      by_cases hover : (vertex.handle signal).machine.phase.isTerminal = true
      · exact once_secondKill.gather_eq_nil hnext (rank_of_isTerminal hover 4 (Nat.le_refl 4)) signals
      · exact ih hnext (rank_lt_killWait hwaits hover) hfirst.2

/-- Only a vertex that has launched orders tasks to be killed. -/
theorem launched_of_firstKill (hfirst : Step.gather handle firstKillPart vertex signals ≠ []) :
    (Step.run handle vertex signals).machine.launched = true := by
  refine (Step.gather_ne_nil_iff.mp hfirst).kept (motive := fun machine => machine.launched = true) hvalid
    (fun machine signal hmachine => ?_) (fun machine signal hmachine hpart => ?_)
  · have hlawful := lawful_handle hmachine signal
    exact ⟨hlawful.valid, hlawful.follows.launched⟩
  · rw [(of_firstKillPart hpart).2] at hpart
    exact (of_stopPart hpart).2.2.1

/-- A vertex is launched by running, or by a success for which it had nothing to run. -/
theorem launched_iff (hunlaunched : vertex.launched = false) :
    (Step.run handle vertex signals).machine.launched = true ↔
      Step.Occurs handle vertex signals (fun _ _ after => after.phase = .running) ∨
        vertex.progress.total = 0 ∧ (Step.run handle vertex signals).machine.phase = .succeeded := by
  have hsteps : ∀ (machine : Vertex) signal, machine.Valid → (machine.handle signal).machine.Valid ∧
      (machine.launched = true → (machine.handle signal).machine.launched = true) :=
    fun machine signal hmachine =>
      ⟨(lawful_handle hmachine signal).valid, (lawful_handle hmachine signal).follows.launched⟩
  constructor
  · intro hlaunched
    obtain ⟨earlier, signal, hpre, hbefore, hafter⟩ :=
      (Step.occurs_change_iff hvalid (by simp [hunlaunched]) hsteps signals).mpr hlaunched
    obtain ⟨hmachine, hfollows, -⟩ := follows_run hvalid earlier
    rw [Step.machine_run_concat] at hafter
    have hphase := ((change_handle hmachine signal).of_launched hbefore hafter).2
    rw [hfollows.total, ← Step.machine_run_concat] at hphase
    by_cases htotal : vertex.progress.total = 0
    · rw [if_pos htotal] at hphase
      obtain ⟨later, rfl⟩ := hpre
      have hover := (follows_run (follows_run hvalid (earlier ++ [signal])).1 later).2.1.ended
        (by rw [hphase]; rfl)
      rw [← Step.machine_run_append, hphase] at hover
      exact Or.inr ⟨htotal, hover⟩
    · rw [if_neg htotal] at hphase
      exact Or.inl ⟨earlier, signal, hpre, hphase⟩
  · rintro (hruns | ⟨-, hsucceeded⟩)
    · refine hruns.kept (motive := fun machine => machine.launched = true) hvalid hsteps ?_
      exact fun machine signal hmachine hphase =>
        ((lawful_handle hmachine signal).valid.live (Or.inl hphase)).1
    · exact ((follows_run hvalid signals).1.allSucceeded hsucceeded).1

/-- A vertex that is over stays as it ended and says nothing more. -/
theorem silent_run (hover : vertex.phase.isTerminal = true) :
    (Step.run handle vertex signals).machine.phase = vertex.phase ∧
      (Step.run handle vertex signals).outbound = [] := by
  refine ⟨(follows_run hvalid signals).2.1.ended hover, ?_⟩
  rw [outbound_run hvalid,
    once_launch.gather_eq_nil hvalid (rank_of_isTerminal hover _ (by decide)),
    once_firstKill.gather_eq_nil hvalid (rank_of_isTerminal hover _ (by decide)),
    once_secondKill.gather_eq_nil hvalid (rank_of_isTerminal hover _ (by decide)),
    once_end.gather_eq_nil hvalid hover]
  rfl

/-- The orders to kill that a vertex gives in a history: a vertex that was not launched gives none, and the
second one is due to a violation of the protocol while the vertex waits for what it ordered to be killed. -/
inductive KillOrders (start : Vertex) (signals : List VertexSignal) : List Event → Prop where
  | none : KillOrders start signals []
  | once (hlaunched : (Step.run handle start signals).machine.launched = true) (tasks : List TaskId) :
    KillOrders start signals [.tasks start.id (.kill tasks)]
  | twice (hlaunched : (Step.run handle start signals).machine.launched = true)
      (first second : List TaskId)
      (hviolated : Step.Occurs handle start signals (fun before signal _ => before.phase = .killWait ∧
        second = before.unreported ∧ ∃ reason, before.handle signal = before.violate reason)) :
    KillOrders start signals [.tasks start.id (.kill first), .tasks start.id (.kill second)]

theorem killOrders (hrank : vertex.phase.rank < Phase.killWait.rank) : KillOrders vertex signals
    (Step.gather handle firstKillPart vertex signals ++
      Step.gather handle secondKillPart vertex signals) := by
  rcases gather_firstKillPart hvalid signals with hfirst | ⟨first, hfirst⟩
  · rw [secondKill_of_firstKill hvalid signals hrank hfirst, hfirst]
    exact .none
  · have hlaunched := launched_of_firstKill hvalid signals (by simp [hfirst])
    rcases gather_secondKillPart hvalid signals with hsecond | ⟨second, hsecond, hviolated⟩
    · rw [hfirst, hsecond]
      exact .once hlaunched first
    · rw [hfirst, hsecond]
      exact .twice hlaunched first second hviolated

end History

/-- Everything that the vertex of a plan ever sends, whatever it is sent in whatever order. If it comes to
run it asks for all of its tasks, of which there may be none, and tells its targets; it orders tasks to be
killed at most twice; and once it is over it has told the job how it ended, and the targets if it has
succeeded. After its end it stays as it is and says nothing more. -/
theorem sends_three_parts {plan : Plan} {graph : Graph} (hgraph : Graph.ofPlan plan = .ok graph)
    (dag : DagId) (id : VertexId) (spec : VertexSpec) (gating : Gating) (signals : List VertexSignal) :
    let start := create dag id spec graph gating
    let history := Step.run handle start signals
    let vertex := history.machine
    (∃ kills, KillOrders start signals kills ∧ history.outbound =
      (if vertex.launched = true then
        (if spec.taskCount = 0 then []
          else [.tasks id (.schedule ((List.range spec.taskCount).map (⟨id, ·⟩)) spec.resource)]) ++
        (graph.targets id).map (fun target => .vertex target (.sourceStarted id))
      else []) ++ kills ++
      (if vertex.phase.isTerminal then
        .dag dag (.vertexCompleted id vertex.phase) ::
          (if vertex.phase = .succeeded then
            (graph.targets id).map (fun target => .vertex target (.sourceSucceeded id))
          else [])
      else [])) ∧
    (graph.targets id).Nodup ∧
    (vertex.launched = true ↔ Step.Occurs handle start signals (fun _ _ after => after.phase = .running) ∨
      spec.taskCount = 0 ∧ vertex.phase = .succeeded) ∧
    (vertex.phase.isTerminal → ∀ later, (Step.run handle vertex later).machine.phase = vertex.phase ∧
      (Step.run handle vertex later).outbound = []) := by
  intro start history vertex
  have hstart : start.Valid := valid_create dag id spec graph gating
  obtain ⟨hvalid, hfollows, -⟩ := follows_run hstart signals
  have hend : vertex.endEvents = .dag dag (.vertexCompleted id vertex.phase) ::
      (if vertex.phase = .succeeded then
        (graph.targets id).map (fun target => .vertex target (.sourceSucceeded id))
      else []) := by
    rw [endEvents, hfollows.dag, hfollows.id, hfollows.targets]
    rfl
  have hrank : start.phase.rank < Phase.killWait.rank := Nat.zero_lt_succ 2
  refine ⟨⟨_, killOrders hstart signals hrank, ?_⟩, ?_, ?_, ?_⟩
  · rw [outbound_run hstart, gather_launchPart hstart signals rfl,
      gather_endPart hstart signals (by simp [start, create, Phase.isTerminal]), ← hend]
    simp only [List.append_assoc]
    rfl
  · exact Graph.nodup_targets_ofPlan hgraph id
  · exact launched_iff hstart signals rfl
  · exact fun hover later => silent_run hvalid later hover

/-- The first of two vertices, killed while its task runs and then initialised again: it orders its task to
be killed twice, ends in `error` and leaves the late report alone. -/
theorem sends_three_parts_line :
    let history := Step.run handle
      (create ⟨1⟩ ⟨0⟩ ⟨"v0", 1, {}⟩ Coordinator.lineGraph .sourceSucceeded) [.init, .start, .kill, .init]
    history.outbound = [.tasks ⟨0⟩ (.schedule [⟨⟨0⟩, 0⟩] {}), .vertex ⟨1⟩ (.sourceStarted ⟨0⟩),
        .tasks ⟨0⟩ (.kill [⟨⟨0⟩, 0⟩]), .tasks ⟨0⟩ (.kill [⟨⟨0⟩, 0⟩]),
        .dag ⟨1⟩ (.vertexCompleted ⟨0⟩ .error)] ∧
      (Step.run handle history.machine [.taskCompleted ⟨⟨0⟩, 0⟩ .succeeded]).outbound = [] := by
  intro history
  obtain ⟨-, -, -, hsilent⟩ := sends_three_parts Coordinator.ofPlan_line ⟨1⟩ ⟨0⟩ ⟨"v0", 1, {}⟩
    .sourceSucceeded [.init, .start, .kill, .init]
  exact ⟨by decide, (hsilent (by decide) _).2⟩

end JobFlow.Vertex
