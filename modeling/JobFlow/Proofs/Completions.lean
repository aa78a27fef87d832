import JobFlow.Proofs.Announcements
import JobFlow.Proofs.Dag.Responses
import JobFlow.Proofs.Situation

/-!
Agreement of the job with its vertices on how they ended. What the job has counted of a vertex and the
news that are still on their way to it make up, together, the ending of that vertex and nothing else,
as long as the job has not erred; a job in error may have dropped the news, but never made any up.
-/

namespace JobFlow

/-- The ending of a vertex of which an event tells a job. -/
def Event.completion? (dag : DagId) (vertex : VertexId) : Event → Option Phase
  | .dag id (.vertexCompleted other phase) => if id = dag ∧ other = vertex then some phase else none
  | _ => none

theorem Event.completion?_of_entity_ne {dag : DagId} {vertex : VertexId} {event : Event}
    (h : event.entity ≠ .dag dag) : event.completion? dag vertex = none := by
  rw [completion?.eq_def]
  split
  next id other phase =>
    rw [if_neg]
    rintro ⟨rfl, -⟩
    exact h rfl
  next => rfl

/-- The phase in which a vertex ended, if it did. -/
def Vertex.ended? (vertex : Vertex) : Option Phase :=
  if vertex.phase.isTerminal then some vertex.phase else none

theorem Vertex.ended?_of_live {vertex : Vertex} (hlive : vertex.phase.isTerminal = false) :
    vertex.ended? = none := by
  rw [ended?, hlive]
  rfl

theorem Vertex.ended?_of_isTerminal {vertex : Vertex} (hterminal : vertex.phase.isTerminal = true) :
    vertex.ended? = some vertex.phase := by
  rw [ended?, if_pos hterminal]

/-- A vertex tells the job of its own end, in the step that ends it. -/
theorem Vertex.completions_announcements (before after : Vertex) (id : VertexId) :
    (before.announcements after).filterMap (Event.completion? after.dag id) =
      if before.phase.isTerminal = false ∧ after.phase.isTerminal = true ∧ after.id = id then
        [after.phase] else [] := by
  have hlaunch : after.launchEvents.filterMap (Event.completion? after.dag id) = [] := by
    rw [List.filterMap_eq_nil_iff]
    intro event hevent
    rcases mem_launchEvents hevent with rfl | ⟨target, -, rfl⟩ <;> rfl
  have hkill : after.killRequest.filterMap (Event.completion? after.dag id) = [] := by
    rw [List.filterMap_eq_nil_iff]
    intro event hevent
    obtain ⟨-, rfl⟩ := mem_killRequest hevent
    rfl
  have htargets : (if after.phase = .succeeded then
      after.targets.map (fun target => Event.vertex target (.sourceSucceeded after.id))
      else []).filterMap (Event.completion? after.dag id) = [] := by
    rw [List.filterMap_eq_nil_iff]
    intro event hevent
    split at hevent
    · obtain ⟨target, -, rfl⟩ := List.mem_map.mp hevent
      rfl
    · cases hevent
  have hend : after.endEvents.filterMap (Event.completion? after.dag id) =
      if after.id = id then [after.phase] else [] := by
    rw [endEvents, List.filterMap_cons, htargets]
    by_cases hid : after.id = id
    · simp [Event.completion?, hid]
    · simp [Event.completion?, hid]
  simp only [announcements, List.filterMap_append]
  by_cases hended : before.phase.isTerminal = false ∧ after.phase.isTerminal = true
  · rw [if_pos hended, hend]
    split <;> split <;> simp [hlaunch, hkill, hended]
  · have hnot : ¬ (before.phase.isTerminal = false ∧ after.phase.isTerminal = true ∧
        after.id = id) := fun h => hended ⟨h.1, h.2.1⟩
    rw [if_neg hended, if_neg hnot]
    split <;> split <;> simp [hlaunch, hkill]

/-- A job sends itself nothing. -/
theorem Dag.completions_announcements (before after : Dag) (dag : DagId) (id : VertexId) :
    (before.announcements after).filterMap (Event.completion? dag id) = [] := by
  rw [List.filterMap_eq_nil_iff]
  intro event hevent
  rcases mem_announcements hevent with ⟨_, _, rfl, -⟩ | rfl <;> rfl

namespace Situation

/-- The news about a vertex that are on their way to the job, in order. -/
def completions (situation : Situation) (dag : DagId) (id : VertexId) : List Phase :=
  situation.pick (.dag dag) (Event.completion? dag id)

theorem completions_take {situation : Situation} {event : Event} {rest : List Event}
    (hqueue : situation.queue event.entity = event :: rest) (step : Step Attempt) (dag : DagId)
    (id : VertexId) : (event.completion? dag id).toList ++
      (situation.take event.entity rest step).completions dag id =
        situation.completions dag id ++ step.outbound.filterMap (Event.completion? dag id) :=
  pick_take (fun _ => Event.completion?_of_entity_ne) hqueue step

/-- What the job has counted of each vertex and what is on its way agree with how the vertex ended. -/
structure Accounted (setting : Setting) (situation : Situation) : Prop where
  kept : ∀ id vertex, situation.attempt.vertex? id = some vertex →
    ((situation.attempt.dag.ending? id).toList ++ situation.completions setting.id id).Sublist
      vertex.ended?.toList
  exact : situation.attempt.dag.phase ≠ .error → ∀ id vertex,
    situation.attempt.vertex? id = some vertex →
      (situation.attempt.dag.ending? id).toList ++ situation.completions setting.id id =
        vertex.ended?.toList
  known : ∀ id, situation.completions setting.id id ≠ [] → id.index < setting.graph.size

section

variable {setting : Setting} {situation : Situation}

theorem Accounted.send (haccounted : situation.Accounted setting) {event : Event}
    (hevent : ∀ vertex phase, event ≠ .dag setting.id (.vertexCompleted vertex phase)) :
    (situation.send [event]).Accounted setting := by
  have hnone : ∀ id, event.completion? setting.id id = none := by
    intro id
    unfold Event.completion?
    split
    next dag other phase =>
      rw [if_neg]
      rintro ⟨rfl, -⟩
      exact hevent other phase rfl
    next => rfl
  have hsame : ∀ id, (situation.send [event]).completions setting.id id =
      situation.completions setting.id id :=
    fun id => pick_send_of_none (fun _ => Event.completion?_of_entity_ne) (hnone id)
  refine ⟨?_, ?_, ?_⟩
  · intro id vertex hvertex
    rw [hsame]
    exact haccounted.kept id vertex hvertex
  · intro herror id vertex hvertex
    rw [hsame]
    exact haccounted.exact herror id vertex hvertex
  · intro id hid
    rw [hsame] at hid
    exact haccounted.known id hid

/-- With the news of a vertex at the head of the lane, the news is true and was not counted. -/
theorem Accounted.head (haccounted : situation.Accounted setting) {id : VertexId} {vertex : Vertex}
    (hvertex : situation.attempt.vertex? id = some vertex) {phase : Phase} {later : List Phase}
    (hcompletions : situation.completions setting.id id = phase :: later) :
    situation.attempt.dag.ending? id = none ∧ vertex.phase = phase ∧
      vertex.phase.isTerminal = true ∧ later = [] := by
  have hsublist := haccounted.kept id vertex hvertex
  rw [hcompletions] at hsublist
  unfold Vertex.ended? at hsublist
  split at hsublist
  next hterminal =>
    have hlength := hsublist.length_le
    simp only [List.length_append, List.length_cons, Option.toList_some, List.length_nil] at hlength
    have hending : situation.attempt.dag.ending? id = none := by
      cases h : situation.attempt.dag.ending? id with
      | none => rfl
      | some counted =>
          rw [h, Option.toList_some, List.length_singleton] at hlength
          omega
    have hlater : later = [] := List.length_eq_zero_iff.mp (by omega)
    subst hlater
    rw [hending] at hsublist
    exact ⟨hending, (List.mem_singleton.mp (hsublist.mem List.mem_cons_self)).symm, hterminal, rfl⟩
  next => simp at hsublist

section Later

variable (haccounted : situation.Accounted setting) {later : Situation}

include haccounted

/-- The account is kept when it changes for no vertex, or comes to say how the vertex ended, or loses
news to a job that has erred. -/
theorem Accounted.of_each
    (herred : situation.attempt.dag.phase = .error → later.attempt.dag.phase = .error)
    (hknown : ∀ id, later.completions setting.id id ≠ [] → id.index < setting.graph.size)
    (heach : ∀ id after, later.attempt.vertex? id = some after →
      (∃ before, situation.attempt.vertex? id = some before ∧ after.ended? = before.ended? ∧
        later.attempt.dag.ending? id = situation.attempt.dag.ending? id ∧
        later.completions setting.id id = situation.completions setting.id id) ∨
      (later.attempt.dag.ending? id).toList ++ later.completions setting.id id =
        after.ended?.toList ∨
      (later.attempt.dag.phase = .error ∧ later.attempt.dag.ending? id = none ∧
        later.completions setting.id id = [])) : later.Accounted setting := by
  refine ⟨?_, ?_, hknown⟩
  · intro id after hafter
    rcases heach id after hafter with
      ⟨before, hbefore, hended, hending, hsame⟩ | hexact | ⟨-, hending, hnothing⟩
    · rw [hended, hending, hsame]
      exact haccounted.kept id before hbefore
    · exact hexact ▸ List.Sublist.refl _
    · rw [hending, hnothing]
      exact List.nil_sublist _
  · intro herror id after hafter
    rcases heach id after hafter with
      ⟨before, hbefore, hended, hending, hsame⟩ | hexact | ⟨hphase, -⟩
    · rw [hended, hending, hsame]
      exact haccounted.exact (mt herred herror) id before hbefore
    · exact hexact
    · exact absurd hphase herror

/-- A turn that counts no ending, changes no vertex and carries no news. -/
theorem Accounted.of_same
    (herred : situation.attempt.dag.phase = .error → later.attempt.dag.phase = .error)
    (hending : ∀ id, later.attempt.dag.ending? id = situation.attempt.dag.ending? id)
    (hvertex : ∀ id, later.attempt.vertex? id = situation.attempt.vertex? id)
    (hcompletions : ∀ id, later.completions setting.id id = situation.completions setting.id id) :
    later.Accounted setting := by
  refine haccounted.of_each herred (fun id hid => ?_) (fun id after hafter => ?_)
  · rw [hcompletions] at hid
    exact haccounted.known id hid
  · rw [hvertex] at hafter
    exact Or.inl ⟨after, hafter, rfl, hending id, hcompletions id⟩

/-- The news that the job takes off its lane are counted, or the job errs. -/
theorem Accounted.take_completion {place : VertexId} {phase : Phase}
    (hlawful : situation.attempt.dag.Lawful
      (situation.attempt.dag.handle (.vertexCompleted place phase)))
    (hdag : later.attempt.dag =
      (situation.attempt.dag.handle (.vertexCompleted place phase)).machine)
    (hvertex : ∀ id, later.attempt.vertex? id = situation.attempt.vertex? id)
    (hcompletions : ∀ id, situation.completions setting.id id =
      if place = id then phase :: later.completions setting.id id
      else later.completions setting.id id) : later.Accounted setting := by
  have hchange := situation.attempt.dag.change_handle (.vertexCompleted place phase)
  have hcases := hchange.ending?_cases rfl
  refine haccounted.of_each ?_ (fun id hid => ?_) (fun id after hafter => ?_)
  · rw [hdag]
    exact hlawful.follows.erred
  · apply haccounted.known
    rw [hcompletions]
    split
    · simp
    · exact hid
  · rw [hvertex] at hafter
    by_cases hid : place = id
    · subst hid
      have hhead := hcompletions place
      rw [if_pos rfl] at hhead
      obtain ⟨hending, hphase, hterminal, hlater⟩ := haccounted.head hafter hhead
      have hentered : later.attempt.dag.ending? place = some phase →
          (later.attempt.dag.ending? place).toList ++ later.completions setting.id place =
            after.ended?.toList := by
        intro hnew
        rw [hnew, hlater, Vertex.ended?_of_isTerminal hterminal, hphase]
        rfl
      by_cases herror : later.attempt.dag.phase = .error
      · rcases hcases with hkept | ⟨-, hnew⟩
        · exact Or.inr (Or.inr ⟨herror, by rw [hdag, ← hending]; exact hkept place, hlater⟩)
        · exact Or.inr (Or.inl (hentered (by rw [hdag]; exact (hnew place).trans (if_pos rfl))))
      · rw [hdag] at herror
        have hself := hchange.ending?_self rfl hending herror
        exact Or.inr (Or.inl (hentered (by rw [hdag]; exact hself)))
    · have hsame := hcompletions id
      rw [if_neg hid] at hsame
      refine Or.inl ⟨after, hafter, rfl, ?_, hsame.symm⟩
      rw [hdag]
      rcases hcases with hkept | ⟨-, hnew⟩
      · exact hkept id
      · exact (hnew id).trans (if_neg (Ne.symm hid))

/-- A vertex that ends sends the only news of its end. -/
theorem Accounted.take_vertex {place : VertexId} {vertex after : Vertex}
    (hindex : place.index < setting.graph.size)
    (hbefore : situation.attempt.vertex? place = some vertex) (hid : after.id = place)
    (hphase : vertex.phase.isTerminal = true → after.phase = vertex.phase)
    (hdag : later.attempt.dag = situation.attempt.dag)
    (hvertex : ∀ id, later.attempt.vertex? id =
      if id = place then some after else situation.attempt.vertex? id)
    (hcompletions : ∀ id, later.completions setting.id id = situation.completions setting.id id ++
      if vertex.phase.isTerminal = false ∧ after.phase.isTerminal = true ∧ after.id = id then
        [after.phase] else []) : later.Accounted setting := by
  have hother : ∀ id, id ≠ place →
      later.completions setting.id id = situation.completions setting.id id := by
    intro id hne
    rw [hcompletions, if_neg, List.append_nil]
    rintro ⟨-, -, heq⟩
    exact hne (heq.symm.trans hid)
  refine haccounted.of_each (fun h => hdag ▸ h) (fun id hnew => ?_) (fun id machine hmachine => ?_)
  · by_cases heq : id = place
    · exact heq ▸ hindex
    · rw [hother id heq] at hnew
      exact haccounted.known id hnew
  · rw [hvertex] at hmachine
    rw [hdag]
    split at hmachine
    next heq =>
      cases hmachine
      subst heq
      cases hterminal : vertex.phase.isTerminal with
      | true =>
          refine Or.inl ⟨vertex, hbefore, ?_, rfl, ?_⟩
          · rw [Vertex.ended?, Vertex.ended?, hphase hterminal]
          · rw [hcompletions, hterminal]
            simp
      | false =>
          have hnothing := haccounted.kept id vertex hbefore
          rw [Vertex.ended?_of_live hterminal, Option.toList_none, List.sublist_nil,
            List.append_eq_nil_iff] at hnothing
          refine Or.inr (Or.inl ?_)
          rw [hcompletions, hnothing.1, hnothing.2, Vertex.ended?]
          cases hafter : after.phase.isTerminal with
          | true => simp [hid, hterminal]
          | false => simp
    next hne => exact Or.inl ⟨machine, hmachine, rfl, rfl, hother id hne⟩

end Later

/-- Every turn keeps the account. -/
theorem Accounted.take (hsound : situation.Sound setting) (haccounted : situation.Accounted setting)
    {event : Event} {rest : List Event} {step : Step Attempt}
    (hqueue : situation.queue event.entity = event :: rest)
    (hturn : situation.attempt.Turn event step) :
    (situation.take event.entity rest step).Accounted setting := by
  have hpick := completions_take hqueue step setting.id
  have hwired := hsound.wired
  cases hturn with
  | dag signal published hlawful =>
      simp only [Dag.completions_announcements, List.append_nil] at hpick
      by_cases hsignal : ∃ place phase, signal = .vertexCompleted place phase
      · obtain ⟨place, phase, rfl⟩ := hsignal
        refine haccounted.take_completion hlawful rfl (fun _ => rfl) (fun id => ?_)
        refine (hpick id).symm.trans ?_
        simp only [Event.completion?, hwired.id, true_and]
        split <;> rfl
      · have hcommand : ∀ place phase, signal ≠ .vertexCompleted place phase :=
          fun place phase heq => hsignal ⟨place, phase, heq⟩
        have hchange := situation.attempt.dag.change_handle signal
        refine haccounted.of_same hlawful.follows.erred (hchange.ending?_of_command hcommand)
          (fun _ => rfl) (fun id => ?_)
        refine Eq.trans ?_ (hpick id)
        cases signal with
        | init | start | kill => rfl
        | vertexCompleted place phase => exact absurd rfl (hcommand place phase)
  | vertex hvertex signal hlawful =>
      refine haccounted.take_vertex (hwired.index_lt hvertex) hvertex
        (hlawful.follows.id.trans (hwired.vertex_id hvertex)) hlawful.follows.ended rfl
        (Attempt.vertex?_set hvertex _) (fun id => ?_)
      have h := hpick id
      have hdag := hlawful.follows.dag.trans (hwired.vertex_dag hvertex)
      rw [← hdag, Vertex.completions_announcements, hdag] at h
      exact h
  | tasks hlayer place request =>
      refine haccounted.of_same (fun herror => herror) (fun _ => rfl) (fun _ => rfl) (fun id => ?_)
      refine pick_take_of_none (fun _ => Event.completion?_of_entity_ne) hqueue rfl ?_
      intro sent hsent
      obtain ⟨task, -, outcome, rfl⟩ := TaskLayer.mem_reports hsent
      rfl
  | finished dag phase =>
      refine haccounted.of_same (fun herror => herror) (fun _ => rfl) (fun _ => rfl) (fun id => ?_)
      exact pick_take_of_none (fun _ => Event.completion?_of_entity_ne) hqueue rfl (by simp)
  | stray hdag =>
      have hnone : ∀ id, event.completion? setting.id id = none :=
        fun id => Event.completion?_of_entity_ne (hwired.id ▸ hdag)
      refine haccounted.of_same (fun herror => herror) (fun _ => rfl) (fun _ => rfl) (fun id => ?_)
      exact pick_take_of_none (fun _ => Event.completion?_of_entity_ne) hqueue (hnone id) (by simp)

theorem accounted_create (setting : Setting) (layer : Option TaskLayer) : Accounted setting
    ⟨{ Attempt.create setting.id setting.plan setting.graph setting.gating with layer := layer },
      fun _ => []⟩ := by
  have hending : ∀ id, (Dag.create setting.id setting.plan.name setting.graph).ending? id = none := by
    intro id
    rw [Dag.ending?, Dag.tally?, Dag.create, List.getElem?_replicate]
    split <;> rfl
  have hnothing : ∀ id vertex,
      (Attempt.create setting.id setting.plan setting.graph setting.gating).vertex? id = some vertex →
        ((Dag.create setting.id setting.plan.name setting.graph).ending? id).toList ++ [] =
          vertex.ended?.toList := by
    intro id vertex hvertex
    obtain ⟨spec, -, rfl⟩ := Attempt.vertex?_create hvertex
    rw [hending]
    rfl
  refine ⟨?_, fun _ => hnothing, fun id hid => absurd rfl hid⟩
  intro id vertex hvertex
  exact (hnothing id vertex hvertex) ▸ List.Sublist.refl _

/-- With nothing on its way, the job knows how every vertex ended. -/
theorem Accounted.ending?_eq_ended? (haccounted : situation.Accounted setting)
    (hquiet : situation.Quiet) (herror : situation.attempt.dag.phase ≠ .error) {id : VertexId}
    {vertex : Vertex} (hvertex : situation.attempt.vertex? id = some vertex) :
    situation.attempt.dag.ending? id = vertex.ended? := by
  have hexact := haccounted.exact herror id vertex hvertex
  unfold completions pick at hexact
  rw [hquiet, List.filterMap_nil, List.append_nil] at hexact
  have hhead := congrArg List.head? hexact
  rwa [Option.head?_toList, Option.head?_toList] at hhead

theorem Accounted.endings_eq (hsound : situation.Sound setting)
    (haccounted : situation.Accounted setting) (hquiet : situation.Quiet)
    (herror : situation.attempt.dag.phase ≠ .error) :
    situation.attempt.dag.endings = situation.attempt.vertices.map (·.ended?) := by
  have hwired := hsound.wired
  apply List.ext_getElem?
  intro index
  rw [List.getElem?_map]
  by_cases hindex : index < setting.graph.size
  · obtain ⟨vertex, hvertex⟩ := hwired.exists_vertex ⟨index⟩ hindex
    have hlt : (⟨index⟩ : VertexId).index < situation.attempt.dag.vertexCount := by
      rw [hwired.vertexCount]
      exact hindex
    have hending := Dag.getElem?_endings_of_lt hlt
    rw [show situation.attempt.vertices[index]? = some vertex from hvertex, hending, Option.map_some,
      haccounted.ending?_eq_ended? hquiet herror hvertex]
  · rw [List.getElem?_eq_none_iff.mpr, List.getElem?_eq_none_iff.mpr, Option.map_none]
    · rw [hwired.length]
      exact Nat.not_lt.mp hindex
    · rw [Dag.length_endings, hwired.vertexCount]
      exact Nat.not_lt.mp hindex

theorem count_map_ended? (vertices : List Vertex) {phase : Phase} (hterminal : phase.isTerminal = true) :
    (vertices.map (·.ended?)).count (some phase) = vertices.countP (·.phase = phase) := by
  rw [List.count_eq_countP, List.countP_map]
  congr 1
  funext vertex
  simp only [Function.comp, Vertex.ended?]
  by_cases h : vertex.phase = phase
  · simp [h, hterminal]
  · split <;> simp [h]

theorem countP_map_ended? (vertices : List Vertex) :
    (vertices.map (·.ended?)).countP (·.isSome) = vertices.countP (·.phase.isTerminal) := by
  rw [List.countP_map]
  congr 1
  funext vertex
  simp only [Function.comp, Vertex.ended?]
  split
  next h => exact h.symm
  next h => simpa using h

section Reading

variable (haccounted : situation.Accounted setting) {id : VertexId} {vertex : Vertex}
  (hvertex : situation.attempt.vertex? id = some vertex)

include haccounted hvertex

/-- Nothing is said of a vertex that has not ended. -/
theorem Accounted.of_live (hlive : vertex.phase.isTerminal = false) :
    situation.completions setting.id id = [] ∧ situation.attempt.dag.ending? id = none := by
  have hkept := haccounted.kept id vertex hvertex
  rw [Vertex.ended?_of_live hlive, Option.toList_none, List.sublist_nil,
    List.append_eq_nil_iff] at hkept
  exact ⟨hkept.2, Option.toList_eq_nil_iff.mp hkept.1⟩

/-- The end of a vertex is on its way or counted, once. -/
theorem Accounted.of_terminal (hterminal : vertex.phase.isTerminal = true)
    (herror : situation.attempt.dag.phase ≠ .error) :
    (situation.completions setting.id id = [vertex.phase] ∧
      situation.attempt.dag.ending? id = none) ∨
    (situation.completions setting.id id = [] ∧
      situation.attempt.dag.ending? id = some vertex.phase) := by
  have hexact := haccounted.exact herror id vertex hvertex
  rw [Vertex.ended?_of_isTerminal hterminal] at hexact
  cases hending : situation.attempt.dag.ending? id with
  | none =>
      rw [hending] at hexact
      exact Or.inl ⟨hexact, rfl⟩
  | some phase =>
      rw [hending] at hexact
      obtain ⟨hphase, hnone⟩ := List.cons_eq_cons.mp hexact
      exact Or.inr ⟨hnone, congrArg some hphase⟩

theorem Accounted.of_ending {phase : Phase} (hending : situation.attempt.dag.ending? id = some phase) :
    vertex.phase = phase := by
  have hkept := haccounted.kept id vertex hvertex
  rw [hending] at hkept
  have hmem := hkept.mem (List.mem_append_left _ List.mem_cons_self)
  rw [Vertex.ended?] at hmem
  split at hmem
  · exact (List.mem_singleton.mp hmem).symm
  · cases hmem

end Reading

/-- With nothing on its way, the counters of the job say how many vertices ended in which phase. -/
theorem Accounted.counters (hsound : situation.Sound setting) (haccounted : situation.Accounted setting)
    (hquiet : situation.Quiet) (herror : situation.attempt.dag.phase ≠ .error) :
    situation.attempt.dag.succeeded = situation.attempt.vertices.countP (·.phase = .succeeded) ∧
    situation.attempt.dag.failed = situation.attempt.vertices.countP (·.phase = .failed) ∧
    situation.attempt.dag.killed = situation.attempt.vertices.countP (·.phase = .killed) ∧
    situation.attempt.dag.completedCount =
      situation.attempt.vertices.countP (·.phase.isTerminal) := by
  have hendings := haccounted.endings_eq hsound hquiet herror
  have hdag := hsound.wired.dag
  have hsucceeded := hdag.succeeded
  have hfailed := hdag.failed
  have hkilled := hdag.killed
  have hcompleted := hdag.toCounted.completedCount
  rw [List.count_eq_zero.mpr (hdag.unerred herror), Nat.add_zero] at hfailed
  rw [hendings] at hsucceeded hfailed hkilled hcompleted
  rw [count_map_ended? _ rfl] at hsucceeded hfailed hkilled
  rw [countP_map_ended?] at hcompleted
  exact ⟨hsucceeded, hfailed, hkilled, hcompleted⟩

end

end Situation

namespace Coordinator

/-- As long as nobody makes up news in the name of the job, the account is kept. -/
theorem Fresh.accounted {setting : Setting} {layer : Option TaskLayer} {coordinator : Coordinator}
    (hfresh : coordinator.Fresh setting layer) (moves : List Move)
    (hsends : ∀ vertex phase, Move.send (.dag setting.id (.vertexCompleted vertex phase)) ∉ moves) :
    (coordinator.after moves).situation.Accounted setting := by
  refine hfresh.induction (motive := fun moves _ situation =>
    (∀ vertex phase, Move.send (.dag setting.id (.vertexCompleted vertex phase)) ∉ moves) →
      situation.Accounted setting) ?_ ?_ ?_ ?_ moves hsends
  · exact fun _ => Situation.accounted_create setting layer
  · intro earlier event hearlier hmoves
    refine (hearlier (fun vertex phase h => hmoves vertex phase (List.mem_append_left _ h))).send ?_
    rintro vertex phase rfl
    exact hmoves vertex phase (List.mem_append_right _ List.mem_cons_self)
  · intro earlier entity hearlier hmoves
    exact hearlier (fun vertex phase h => hmoves vertex phase (List.mem_append_left _ h))
  · intro earlier event rest step hqueue hturn hearlier hmoves
    refine Situation.Accounted.take (hfresh.sound earlier) ?_ hqueue hturn
    exact hearlier (fun vertex phase h => hmoves vertex phase (List.mem_append_left _ h))

/-- No news of an ending is lost, doubled or altered between the vertices and the job, whatever is sent
from outside, short of news in the name of this job, and in whatever order lanes are served. -/
theorem completions_agree {id : DagId} {plan : Plan} {config : Config}
    {coordinator : Coordinator} (hsubmit : Coordinator.submit id plan config = .ok coordinator)
    (layer : Option TaskLayer) (moves : List Move)
    (hsends : ∀ vertex phase, Move.send (.dag id (.vertexCompleted vertex phase)) ∉ moves) :
    let reached := (coordinator.equip layer).after moves
    let dag := reached.attempt.dag
    (∀ vertexId vertex, reached.attempt.vertex? vertexId = some vertex →
      (vertex.phase.isTerminal = false →
        reached.situation.completions id vertexId = [] ∧ dag.ending? vertexId = none) ∧
      (vertex.phase.isTerminal = true → dag.phase ≠ .error →
        (reached.situation.completions id vertexId = [vertex.phase] ∧ dag.ending? vertexId = none) ∨
        (reached.situation.completions id vertexId = [] ∧
          dag.ending? vertexId = some vertex.phase)) ∧
      (∀ phase, dag.ending? vertexId = some phase → vertex.phase = phase)) ∧
    (reached.situation.Quiet → dag.phase ≠ .error →
      dag.succeeded = reached.attempt.vertices.countP (·.phase = .succeeded) ∧
      dag.failed = reached.attempt.vertices.countP (·.phase = .failed) ∧
      dag.killed = reached.attempt.vertices.countP (·.phase = .killed) ∧
      dag.completedCount = reached.attempt.vertices.countP (·.phase.isTerminal)) := by
  obtain ⟨setting, rfl, -, -, hfresh⟩ := fresh_of_submit hsubmit layer
  have haccounted := hfresh.accounted moves hsends
  dsimp only
  refine ⟨fun vertexId vertex hvertex => ⟨?_, ?_, ?_⟩, ?_⟩
  · exact fun hlive => haccounted.of_live hvertex hlive
  · exact fun hterminal herror => haccounted.of_terminal hvertex hterminal herror
  · exact fun phase hending => haccounted.of_ending hvertex hending
  · exact fun hquiet herror => haccounted.counters (hfresh.sound moves) hquiet herror

/-- Of the job of two vertices, the end of the first is on its way or counted after three rounds, and
everything is counted after six. -/
theorem completions_agree_line :
    let coordinator := line.equip (some { completes := true })
    (∃ vertex, (coordinator.after (lineRun 3)).attempt.vertex? ⟨0⟩ = some vertex ∧
      (((coordinator.after (lineRun 3)).situation.completions ⟨1⟩ ⟨0⟩ = [vertex.phase] ∧
        (coordinator.after (lineRun 3)).attempt.dag.ending? ⟨0⟩ = none) ∨
      ((coordinator.after (lineRun 3)).situation.completions ⟨1⟩ ⟨0⟩ = [] ∧
        (coordinator.after (lineRun 3)).attempt.dag.ending? ⟨0⟩ = some vertex.phase))) ∧
    (coordinator.after (lineRun 6)).attempt.dag.succeeded =
      (coordinator.after (lineRun 6)).attempt.vertices.countP (·.phase = .succeeded) := by
  dsimp only
  have hsends : ∀ rounds vertex phase,
      Move.send (.dag ⟨1⟩ (.vertexCompleted vertex phase)) ∉ lineRun rounds := by
    simp [lineRun]
  have hphase : (((line.equip (some { completes := true })).after (lineRun 3)).attempt.vertex?
      ⟨0⟩).map (·.phase) = some .succeeded := by decide
  obtain ⟨vertex, hvertex, hsucceeded⟩ := Option.map_eq_some_iff.mp hphase
  obtain ⟨hearly, -⟩ := completions_agree submit_line (some { completes := true }) (lineRun 3) (hsends 3)
  obtain ⟨-, hlate⟩ := completions_agree submit_line (some { completes := true }) (lineRun 6) (hsends 6)
  refine ⟨⟨vertex, hvertex, ?_⟩, ?_⟩
  · exact (hearly ⟨0⟩ vertex hvertex).2.1 (by rw [hsucceeded]; rfl) (by decide)
  · exact (hlate (quiet_of_queued (by decide)) (by decide)).1

end Coordinator

end JobFlow
