import Mathlib.Data.List.Nodup
import JobFlow.Proofs.Dag.Coherence
import JobFlow.Proofs.Dag.Kills

/-!
The correspondence of a job. What it sends in a whole history falls into four parts: the initialisation
of its vertices, their start, the order to die for those that are left, and the news of its end. Each
part is sent in one step or never, and never before an earlier one. Main statement: the parts, and what
they rule out, for the job of any plan.
-/

namespace JobFlow.Dag

/-! ### What a step contributes to the parts -/

/-- The command for all vertices that a job gives when it is told to in the right phase. -/
def commandPart (phase : Phase) (told : DagSignal) (command : VertexSignal) (before : Dag)
    (signal : DagSignal) (_ : Dag) : List Event :=
  if before.phase = phase ∧ signal = told then before.broadcast command else []

def initPart : Dag → DagSignal → Dag → List Event := commandPart .new .init .init

def startPart : Dag → DagSignal → Dag → List Event := commandPart .inited .start .start

def killPart (before : Dag) (_ : DagSignal) (after : Dag) : List Event :=
  (before.newlyAsked after).map (.vertex · .kill)

def endPart : Dag → DagSignal → Dag → List Event :=
  Step.upon (·.phase.isTerminal) (fun dag => [.finished dag.id dag.phase])

section Parts

variable {before after : Dag} {signal : DagSignal}

variable {phase : Phase} {told : DagSignal} {command : VertexSignal}

theorem of_commandPart (hpart : commandPart phase told command before signal after ≠ []) :
    before.phase = phase ∧ signal = told := (Step.of_ite_ne_nil hpart).1

theorem of_endPart (hpart : endPart before signal after ≠ []) :
    ¬ before.phase.isTerminal ∧ after.phase.isTerminal := Step.of_upon hpart

theorem broadcast_ne_nil (hvalid : before.Valid) (command : VertexSignal) :
    before.broadcast command ≠ [] := by
  rw [broadcast, vertexCount, Ne, List.map_eq_nil_iff, List.range_eq_nil, List.length_eq_zero_iff]
  exact hvalid.nonempty

theorem of_mem_broadcast {event : Event}
    (hevent : event ∈ before.broadcast command) : ∃ vertex, event = .vertex vertex command := by
  obtain ⟨index, -, rfl⟩ := List.mem_map.mp hevent
  exact ⟨⟨index⟩, rfl⟩

theorem commandPart_ne_nil_iff (hvalid : before.Valid) :
    commandPart phase told command before signal after ≠ [] ↔ before.phase = phase ∧ signal = told := by
  refine ⟨of_commandPart, fun h => ?_⟩
  rw [commandPart, if_pos h]
  exact broadcast_ne_nil hvalid command

theorem endPart_ne_nil_iff :
    endPart before signal after ≠ [] ↔ ¬ before.phase.isTerminal ∧ after.phase.isTerminal := by
  refine ⟨of_endPart, fun h => ?_⟩
  rw [endPart, Step.upon, if_pos h]
  exact List.cons_ne_nil _ _

end Parts

section Step

variable {dag : Dag}

/-- The job is initialised when it is told to in `new`. -/
theorem initialised_iff (signal : DagSignal) :
    dag.phase = .new ∧ (dag.handle signal).machine.phase = .inited ↔
      dag.phase = .new ∧ signal = .init := by
  refine and_congr_right (fun hnew => ?_)
  cases signal with
  | init => simp [handle, handleInit, hnew]
  | start => simp [handle, handleStart, hnew, phase_violate]
  | kill => simp [handle, handleKill, hnew, phase_violate]
  | vertexCompleted vertex phase => simp [handle, handleVertexCompleted, hnew, phase_violate]

theorem phase_killByUser_ne_running (dag : Dag) : dag.killByUser.machine.phase ≠ .running := by
  have hfinal : ∀ cause : Cause, cause.finalPhase ≠ .running := by
    intro cause
    cases cause <;> decide
  rw [killByUser]
  rcases phase_windUp _ _ with h | h
  · rw [h]
    simp
  · rw [h]
    exact hfinal _

/-- The job is started when it is told to in `inited`. -/
theorem started_iff (signal : DagSignal) :
    dag.phase = .inited ∧ (dag.handle signal).machine.phase = .running ↔
      dag.phase = .inited ∧ signal = .start := by
  refine and_congr_right (fun hinited => ?_)
  cases signal with
  | init => simp [handle, handleInit, hinited, phase_violate]
  | start => simp [handle, handleStart, hinited]
  | kill =>
      have hphase := phase_killByUser_ne_running dag
      simpa [handle, handleKill, hinited] using hphase
  | vertexCompleted vertex phase => simp [handle, handleVertexCompleted, hinited, phase_violate]

variable (hvalid : dag.Valid) (signal : DagSignal)

include hvalid

/-- What a step sends is its contribution to the four parts. -/
theorem outbound_handle : (dag.handle signal).outbound =
    initPart dag signal (dag.handle signal).machine ++
      (startPart dag signal (dag.handle signal).machine ++
        (killPart dag signal (dag.handle signal).machine ++
          endPart dag signal (dag.handle signal).machine)) := by
  have hlawful := lawful_handle hvalid signal
  rw [hlawful.outbound, announcements, hvalid.ownerTold, hlawful.valid.ownerTold]
  simp only [initialised_iff, started_iff, initPart, startPart, commandPart, killPart, endPart,
    Step.upon, List.append_assoc, Bool.not_eq_true]

/-- A step that tears the job down tells those that are left to die. -/
theorem killPart_of_tearsDown (htears : dag.TearsDown (dag.handle signal).machine) :
    killPart dag signal (dag.handle signal).machine =
      (dag.handle signal).machine.uncounted.map (.vertex · .kill) := by
  rw [killPart, newlyAsked_of_tearsDown hvalid (lawful_handle hvalid signal) htears]

theorem tearsDown_of_killPart (hpart : killPart dag signal (dag.handle signal).machine ≠ []) :
    dag.TearsDown (dag.handle signal).machine := by
  by_contra htears
  rw [killPart, newlyAsked_of_not_tearsDown hvalid (lawful_handle hvalid signal) htears] at hpart
  exact hpart rfl

theorem killPart_ne_nil_iff : killPart dag signal (dag.handle signal).machine ≠ [] ↔
    dag.TearsDown (dag.handle signal).machine ∧ (dag.handle signal).machine.uncounted ≠ [] := by
  constructor
  · intro hpart
    have htears := tearsDown_of_killPart hvalid signal hpart
    rw [killPart_of_tearsDown hvalid signal htears, Ne, List.map_eq_nil_iff] at hpart
    exact ⟨htears, hpart⟩
  · rintro ⟨htears, hleft⟩
    rw [killPart_of_tearsDown hvalid signal htears, Ne, List.map_eq_nil_iff]
    exact hleft

/-- A step tells nobody to die who is counted after it. -/
theorem spared_handle {vertex : VertexId} {phase : Phase}
    (hending : (dag.handle signal).machine.ending? vertex = some phase) :
    .vertex vertex .kill ∉ (dag.handle signal).outbound := by
  intro hmem
  have hkill : .vertex vertex .kill ∈ killPart dag signal (dag.handle signal).machine := by
    rw [outbound_handle hvalid signal] at hmem
    simpa [initPart, startPart, commandPart, endPart, Step.upon, broadcast, List.mem_ite_nil_right] using hmem
  have htears := tearsDown_of_killPart hvalid signal (List.ne_nil_of_mem hkill)
  rw [killPart_of_tearsDown hvalid signal htears] at hkill
  obtain ⟨other, hleft, heq⟩ := List.mem_map.mp hkill
  cases heq
  rw [(mem_uncounted.mp hleft).2] at hending
  cases hending

end Step

/-! ### Each part is sent once -/

/-- What tears a job down gives it a cause or ends it. -/
def Settled (dag : Dag) : Prop := dag.cause ≠ .none ∨ dag.phase.isTerminal = true

section Settled

variable {before after : Dag} {signal : DagSignal}

theorem TearsDown.settled (htears : before.TearsDown after) : after.Settled := by
  rcases htears.2 with hset | ⟨-, herror⟩
  · exact Or.inl hset
  · refine Or.inr ?_
    rw [herror]
    rfl

theorem Change.unsettled (hchange : before.Change signal after) (htears : before.TearsDown after) :
    ¬ before.Settled := by
  rintro (hset | hterminal)
  · exact hset htears.1
  · rcases hchange.phase_of_tearsDown htears with h | h | h
    all_goals
      rw [h] at hterminal
      cases hterminal

/-- A job that is settled is not waiting for its start any more. -/
theorem Settled.begun (hsettled : after.Settled) (hvalid : after.Valid) :
    ¬ (after.phase = .new ∨ after.phase = .inited) := by
  intro hfresh
  rcases hsettled with hset | hterminal
  · exact hset (hvalid.fresh hfresh).1
  · rcases hfresh with h | h
    all_goals
      rw [h] at hterminal
      cases hterminal

theorem Settled.handle (hsettled : before.Settled) (signal : DagSignal) :
    (before.handle signal).machine.Settled := by
  have hchange := before.change_handle signal
  rcases hsettled with hset | hterminal
  · exact Or.inl (by rwa [hchange.cause_of_set hset])
  · exact Or.inr (hchange.isTerminal hterminal)

end Settled

section Once

theorem once_init : Step.Once handle Valid (fun dag => dag.phase ≠ .new) initPart where
  keeps _ signal hvalid := (lawful_handle hvalid signal).valid
  stays _ signal hvalid hdoor hnew := hdoor ((lawful_handle hvalid signal).follows.new hnew)
  opened _ _ _ hpart hdoor := hdoor (of_commandPart hpart).1
  closes _ signal _ hpart hnew := by
    have hinited := ((initialised_iff signal).mpr (of_commandPart hpart)).2
    rw [hinited] at hnew
    cases hnew

theorem once_start :
    Step.Once handle Valid (fun dag => ¬ (dag.phase = .new ∨ dag.phase = .inited)) startPart where
  keeps _ signal hvalid := (lawful_handle hvalid signal).valid
  stays _ signal hvalid hdoor hfresh := by
    have hfollows := (lawful_handle hvalid signal).follows
    rcases hfresh with hnew | hinited
    · exact hdoor (Or.inl (hfollows.new hnew))
    · exact hdoor (hfollows.inited hinited)
  opened _ _ _ hpart hdoor := hdoor (Or.inr (of_commandPart hpart).1)
  closes _ signal _ hpart := by
    have hrunning := ((started_iff signal).mpr (of_commandPart hpart)).2
    simp [hrunning]

theorem once_kill : Step.Once handle Valid Settled killPart where
  keeps _ signal hvalid := (lawful_handle hvalid signal).valid
  stays _ signal _ hsettled := hsettled.handle signal
  opened dag signal hvalid hpart :=
    (dag.change_handle signal).unsettled (tearsDown_of_killPart hvalid signal hpart)
  closes _ signal hvalid hpart := (tearsDown_of_killPart hvalid signal hpart).settled

theorem once_end : Step.Once handle Valid (fun dag => dag.phase.isTerminal) endPart :=
  Step.once_upon (fun _ signal hvalid =>
    ⟨(lawful_handle hvalid signal).valid, (Dag.change_handle _ signal).isTerminal⟩)

variable {dag : Dag} (hvalid : dag.Valid) (signals : List DagSignal)

include hvalid

/-- What is sent in a history falls into the four parts. -/
theorem outbound_run : (Step.run handle dag signals).outbound =
    Step.gather handle initPart dag signals ++ (Step.gather handle startPart dag signals ++
      (Step.gather handle killPart dag signals ++ Step.gather handle endPart dag signals)) := by
  refine Step.outbound_run_of_parts once_init once_start once_kill endPart ?_ ?_
    (fun _ signal h => outbound_handle h signal) hvalid signals
  · intro machine hmachine
    exact ⟨fun hsettled => hsettled.begun hmachine, fun hbegun hnew => hbegun (Or.inl hnew)⟩
  · intro machine signal _ hpart
    exact Or.inr (of_endPart hpart).2

end Once

/-! ### The correspondence -/

/-- The four parts of what is sent in a history, and the steps that send them. -/
structure Correspondence (start : Dag) (signals : List DagSignal)
    (inits starts kills ends : List Event) : Prop where
  sent : (Step.run handle start signals).outbound = inits ++ starts ++ kills ++ ends
  inits_cases : inits = [] ∨ inits = start.broadcast .init
  inits_iff : inits ≠ [] ↔ Step.Occurs handle start signals
    (fun before signal _ => before.phase = .new ∧ signal = .init)
  starts_cases : starts = [] ∨ starts = start.broadcast .start
  starts_iff : starts ≠ [] ↔ Step.Occurs handle start signals
    (fun before signal _ => before.phase = .inited ∧ signal = .start)
  order : inits = [] → starts = []
  kills_cases : kills = [] ∨ Step.Occurs handle start signals
    (fun before _ after => before.TearsDown after ∧ kills = after.uncounted.map (.vertex · .kill))
  kills_iff : kills ≠ [] ↔ Step.Occurs handle start signals
    (fun before _ after => before.TearsDown after ∧ after.uncounted ≠ [])
  ends_cases : ends = [] ∨ Step.Occurs handle start signals (fun before _ after =>
    ¬ before.phase.isTerminal ∧ after.phase.isTerminal ∧ ends = [.finished start.id after.phase])
  ends_iff : ends ≠ [] ↔ (Step.run handle start signals).machine.phase.isTerminal

section Correspondence

variable {dag : Dag} (hvalid : dag.Valid) (signals : List DagSignal)

include hvalid

theorem commands_cases {door : Dag → Prop} {phase : Phase} {told : DagSignal} {command : VertexSignal}
    (honce : Step.Once handle Valid door (commandPart phase told command)) :
    Step.gather handle (commandPart phase told command) dag signals = [] ∨
      Step.gather handle (commandPart phase told command) dag signals = dag.broadcast command := by
  refine (honce.gather_cases hvalid signals).imp_right ?_
  rintro ⟨earlier, signal, -, hpart, hgather⟩
  rw [hgather, commandPart, if_pos (of_commandPart hpart)]
  exact broadcast_eq (hvalid.vertexCount_run earlier) command

/-- A job that was not initialised is not started. -/
theorem starts_of_inits (hnew : dag.phase = .new)
    (hinits : Step.gather handle initPart dag signals = []) :
    Step.gather handle startPart dag signals = [] := by
  induction signals generalizing dag with
  | nil => rfl
  | cons signal signals ih =>
      have hlawful := lawful_handle hvalid signal
      rw [Step.gather, List.append_eq_nil_iff] at hinits ⊢
      refine ⟨if_neg (by simp [hnew]), ?_⟩
      have hidle : (dag.handle signal).machine.phase ≠ .inited := by
        intro hinited
        have hinit := (initialised_iff signal).mp ⟨hnew, hinited⟩
        exact (commandPart_ne_nil_iff hvalid).mpr hinit hinits.1
      rcases hlawful.follows.started hnew with h | h | h
      · exact ih hlawful.valid h hinits.2
      · exact absurd h hidle
      · exact once_start.gather_eq_nil hlawful.valid (by simp [h]) signals

theorem kills_cases : Step.gather handle killPart dag signals = [] ∨
    Step.Occurs handle dag signals (fun before _ after => before.TearsDown after ∧
      Step.gather handle killPart dag signals = after.uncounted.map (.vertex · .kill)) := by
  refine (once_kill.gather_cases hvalid signals).imp_right (fun hoccurs => ?_)
  refine hoccurs.imp hvalid once_kill.keeps ?_
  rintro before signal hbefore ⟨hpart, hgather⟩
  have htears := tearsDown_of_killPart hbefore signal hpart
  exact ⟨htears, hgather.trans (killPart_of_tearsDown hbefore signal htears)⟩

theorem ends_cases : Step.gather handle endPart dag signals = [] ∨
    Step.Occurs handle dag signals (fun before _ after => ¬ before.phase.isTerminal ∧
      after.phase.isTerminal ∧ Step.gather handle endPart dag signals = [.finished dag.id after.phase]) := by
  refine (once_end.gather_cases hvalid signals).imp_right ?_
  rintro ⟨earlier, signal, hpre, hpart, hgather⟩
  obtain ⟨hlive, hover⟩ := of_endPart hpart
  refine ⟨earlier, signal, hpre, hlive, hover, ?_⟩
  rw [hgather, endPart, Step.upon, if_pos ⟨hlive, hover⟩, hvalid.id_run]

theorem ends_iff (hlive : ¬ dag.phase.isTerminal) : Step.gather handle endPart dag signals ≠ [] ↔
    (Step.run handle dag signals).machine.phase.isTerminal := by
  have hchange : Step.Occurs handle dag signals
      (fun before signal after => endPart before signal after ≠ []) ↔
        Step.Occurs handle dag signals
          (fun before _ after => ¬ before.phase.isTerminal ∧ after.phase.isTerminal) :=
    Step.occurs_congr hvalid once_end.keeps (fun _ _ _ => endPart_ne_nil_iff)
  rw [Step.gather_ne_nil_iff, hchange]
  exact Step.occurs_change_iff hvalid hlive (fun dag signal h =>
    ⟨once_end.keeps dag signal h, (Dag.change_handle _ signal).isTerminal⟩) signals

/-- The four parts that a job which is new sends in a history. -/
theorem correspondence (hnew : dag.phase = .new) : dag.Correspondence signals
    (Step.gather handle initPart dag signals) (Step.gather handle startPart dag signals)
    (Step.gather handle killPart dag signals) (Step.gather handle endPart dag signals) where
  sent := by rw [outbound_run hvalid, List.append_assoc, List.append_assoc]
  inits_cases := commands_cases hvalid signals once_init
  inits_iff := Step.gather_ne_nil_iff.trans
    (Step.occurs_congr hvalid once_init.keeps (fun _ _ h => commandPart_ne_nil_iff h))
  starts_cases := commands_cases hvalid signals once_start
  starts_iff := Step.gather_ne_nil_iff.trans
    (Step.occurs_congr hvalid once_start.keeps (fun _ _ h => commandPart_ne_nil_iff h))
  order := starts_of_inits hvalid signals hnew
  kills_cases := kills_cases hvalid signals
  kills_iff := Step.gather_ne_nil_iff.trans
    (Step.occurs_congr hvalid once_kill.keeps (fun _ signal h => killPart_ne_nil_iff h signal))
  ends_cases := ends_cases hvalid signals
  ends_iff := ends_iff hvalid signals (by simp [hnew, Phase.isTerminal])

/-- A job that is over says nothing more, also when it errs afterwards. -/
theorem silent_run (hover : dag.phase.isTerminal = true) :
    (Step.run handle dag signals).outbound = [] := by
  have hsettled : dag.Settled := Or.inr hover
  have hbegun := hsettled.begun hvalid
  rw [outbound_run hvalid, once_init.gather_eq_nil hvalid (fun hnew => hbegun (Or.inl hnew)),
    once_start.gather_eq_nil hvalid hbegun, once_kill.gather_eq_nil hvalid hsettled,
    once_end.gather_eq_nil hvalid hover]
  rfl

/-- Nobody whose ending is counted is told to die. -/
theorem spared_run {vertex : VertexId} {phase : Phase} (hending : dag.ending? vertex = some phase) :
    .vertex vertex .kill ∉ (Step.run handle dag signals).outbound := by
  have hspared : ∀ event ∈ (Step.run handle dag signals).outbound, event ≠ .vertex vertex .kill := by
    refine Step.outbound_run_forall
      (motive := fun machine : Dag => machine.Valid ∧ machine.ending? vertex = some phase)
      ⟨hvalid, hending⟩ ?_ signals
    rintro before signal ⟨hbefore, hcounted⟩
    have hlawful := lawful_handle hbefore signal
    have hkept := hlawful.follows.ending vertex phase hcounted
    refine ⟨⟨hlawful.valid, hkept⟩, ?_⟩
    rintro event hevent rfl
    exact spared_handle hbefore signal hkept hevent
  exact fun hmem => hspared _ hmem rfl

end Correspondence

namespace Correspondence

variable {start : Dag} {signals : List DagSignal} {inits starts kills ends : List Event}
  (h : start.Correspondence signals inits starts kills ends)

include h

theorem of_mem_inits : ∀ event ∈ inits, ∃ vertex, event = .vertex vertex .init := by
  intro event hevent
  rcases h.inits_cases with rfl | rfl
  · cases hevent
  · exact of_mem_broadcast hevent

theorem of_mem_starts : ∀ event ∈ starts, ∃ vertex, event = .vertex vertex .start := by
  intro event hevent
  rcases h.starts_cases with rfl | rfl
  · cases hevent
  · exact of_mem_broadcast hevent

theorem of_mem_kills : ∀ event ∈ kills, ∃ vertex, event = .vertex vertex .kill := by
  intro event hevent
  rcases h.kills_cases with rfl | ⟨_, _, -, -, rfl⟩
  · cases hevent
  · obtain ⟨vertex, -, rfl⟩ := List.mem_map.mp hevent
    exact ⟨vertex, rfl⟩

theorem of_mem_ends : ∀ event ∈ ends, ∃ phase, event = .finished start.id phase := by
  intro event hevent
  rcases h.ends_cases with rfl | ⟨_, _, -, -, -, rfl⟩
  · cases hevent
  · exact ⟨_, List.mem_singleton.mp hevent⟩

theorem nodup_kills : kills.Nodup := by
  rcases h.kills_cases with rfl | ⟨_, _, -, -, rfl⟩
  · exact List.nodup_nil
  · refine List.Pairwise.map _ ?_ (nodup_uncounted _)
    intro left right hne heq
    cases heq
    exact hne rfl

/-- A job whose owner has heard of its end is over. -/
theorem isTerminal_of_finished_mem {owner : DagId} {phase : Phase}
    (hmem : .finished owner phase ∈ (Step.run handle start signals).outbound) :
    (Step.run handle start signals).machine.phase.isTerminal := by
  rw [h.sent, List.mem_append, List.mem_append, List.mem_append] at hmem
  rcases hmem with ((hinits | hstarts) | hkills) | hends
  · obtain ⟨_, heq⟩ := h.of_mem_inits _ hinits
    cases heq
  · obtain ⟨_, heq⟩ := h.of_mem_starts _ hstarts
    cases heq
  · obtain ⟨_, heq⟩ := h.of_mem_kills _ hkills
    cases heq
  · exact h.ends_iff.mp (List.ne_nil_of_mem hends)

/-- No vertex is told to die twice. -/
theorem count_kill_le_one (vertex : VertexId) :
    (Step.run handle start signals).outbound.count (.vertex vertex .kill) ≤ 1 := by
  have hinits : inits.count (.vertex vertex .kill) = 0 := by
    refine List.count_eq_zero.mpr (fun hmem => ?_)
    obtain ⟨_, heq⟩ := h.of_mem_inits _ hmem
    cases heq
  have hstarts : starts.count (.vertex vertex .kill) = 0 := by
    refine List.count_eq_zero.mpr (fun hmem => ?_)
    obtain ⟨_, heq⟩ := h.of_mem_starts _ hmem
    cases heq
  have hends : ends.count (.vertex vertex .kill) = 0 := by
    refine List.count_eq_zero.mpr (fun hmem => ?_)
    obtain ⟨_, heq⟩ := h.of_mem_ends _ hmem
    cases heq
  have hkills := List.nodup_iff_count_le_one.mp h.nodup_kills (.vertex vertex .kill)
  rw [h.sent, List.count_append, List.count_append, List.count_append, hinits, hstarts, hends]
  omega

end Correspondence

/-- Everything that the job of a plan ever sends, whatever it is sent in whatever order. Its vertices
hear of their initialisation and of their start, then those that are left hear that they have to die, and
then its owner hears of its end; each of the parts is sent in one step or never. Nobody is told to die
twice or after its ending was counted, and nothing is sent after the news for the owner. -/
theorem sends_four_parts {plan : Plan} {graph : Graph} (hgraph : Graph.ofPlan plan = .ok graph)
    (id : DagId) (name : String) (signals : List DagSignal) :
    let start := create id name graph
    let history := Step.run handle start signals
    start.vertexCount = plan.vertices.length ∧
      (∃ inits starts kills ends, start.Correspondence signals inits starts kills ends) ∧
      (∀ vertex, history.outbound.count (.vertex vertex .kill) ≤ 1) ∧
      (∀ vertex, history.machine.isCounted vertex → ∀ later,
        .vertex vertex .kill ∉ (Step.run handle history.machine later).outbound) ∧
      (∀ owner phase, .finished owner phase ∈ history.outbound → ∀ later,
        (Step.run handle history.machine later).outbound = []) := by
  intro start history
  have hstart : start.Valid := valid_create_of_built hgraph id name
  have hvalid : history.machine.Valid := hstart.run signals
  have hletters := correspondence hstart signals rfl
  refine ⟨?_, ⟨_, _, _, _, hletters⟩, hletters.count_kill_le_one, ?_, ?_⟩
  · have hcount : start.vertexCount = graph.size := List.length_replicate
    exact hcount.trans (Graph.sound_ofPlan hgraph).2
  · intro vertex hcounted later
    obtain ⟨phase, hending⟩ := Option.ne_none_iff_exists'.mp (isCounted_iff.mp hcounted)
    exact spared_run hvalid later hending
  · intro owner phase hfinished later
    exact silent_run hvalid later (hletters.isTerminal_of_finished_mem hfinished)

/-- The job of two vertices whose first one fails: the second is told to die, and after the news for the
owner the job errs without a word. -/
theorem sends_four_parts_line :
    let history := Step.run handle (create ⟨1⟩ "line" Coordinator.lineGraph)
      [.init, .start, .vertexCompleted ⟨0⟩ .failed, .vertexCompleted ⟨1⟩ .killed]
    history.outbound = [.vertex ⟨0⟩ .init, .vertex ⟨1⟩ .init, .vertex ⟨0⟩ .start, .vertex ⟨1⟩ .start,
        .vertex ⟨1⟩ .kill, .finished ⟨1⟩ .failed] ∧
      (Step.run handle history.machine [.start]).machine.phase = .error ∧
      (Step.run handle history.machine [.start]).outbound = [] := by
  intro history
  obtain ⟨-, -, -, -, hsilent⟩ := sends_four_parts Coordinator.ofPlan_line ⟨1⟩ "line"
    [.init, .start, .vertexCompleted ⟨0⟩ .failed, .vertexCompleted ⟨1⟩ .killed]
  exact ⟨by decide, by decide, hsilent ⟨1⟩ .failed (by decide) [.start]⟩

end JobFlow.Dag
