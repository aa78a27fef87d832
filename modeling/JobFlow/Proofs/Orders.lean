import JobFlow.Proofs.Signals

/-!
The commands on their way: those of a client to the job, and those of the job to its vertices. A vertex
is sent each command at most once and in order, so that what waits on its lane says how far the vertex
has come, and what waits for the job says how far the job has.
-/

namespace JobFlow

/-- The commands of a client to a job. -/
def DagSignal.isCommand : DagSignal → Bool
  | .init | .start | .kill => true
  | .vertexCompleted _ _ => false

namespace Event

/-- The command that an event brings to a job. -/
def command? (dag : DagId) : Event → Option DagSignal
  | .dag id signal => if id = dag ∧ signal.isCommand = true then some signal else none
  | _ => none

/-- The command that an event brings to a vertex. -/
def order? (vertex : VertexId) : Event → Option VertexSignal
  | .vertex id signal => if id = vertex ∧ signal.isCommand = true then some signal else none
  | _ => none

theorem command?_of_entity_ne {dag : DagId} {event : Event} (h : event.entity ≠ .dag dag) :
    event.command? dag = none := by
  cases event with
  | dag id signal =>
      rw [command?, if_neg]
      rintro ⟨rfl, -⟩
      exact h rfl
  | vertex | tasks | finished => rfl

theorem order?_of_entity_ne {vertex : VertexId} {event : Event} (h : event.entity ≠ .vertex vertex) :
    event.order? vertex = none := by
  cases event with
  | vertex id signal =>
      rw [order?, if_neg]
      rintro ⟨rfl, -⟩
      exact h rfl
  | dag | tasks | finished => rfl

end Event

/-! ### The client and the job -/

/-- A client that initialises a job, then starts it at most once, and then kills it at will. -/
def Orderly (commands : List DagSignal) : Prop :=
  ∃ starts kills, starts ≤ 1 ∧
    commands <+: .init :: (List.replicate starts .start ++ List.replicate kills .kill)

namespace Orderly

theorem of_earlier {earlier commands : List DagSignal} (horderly : Orderly commands)
    (hbegins : earlier <+: commands) : Orderly earlier := by
  obtain ⟨starts, kills, hstarts, hcommands⟩ := horderly
  exact ⟨starts, kills, hstarts, hbegins.trans hcommands⟩

theorem first {command : DagSignal} {later : List DagSignal} (horderly : Orderly (command :: later)) :
    command = .init := by
  obtain ⟨starts, kills, -, hcommands⟩ := horderly
  exact (List.cons_prefix_cons.mp hcommands).1

/-- After the first two commands there are only kills. -/
theorem second {command : DagSignal} {later : List DagSignal}
    (horderly : Orderly (.init :: command :: later)) :
    (command = .start ∨ command = .kill) ∧ ∀ other ∈ later, other = .kill := by
  obtain ⟨starts, kills, hstarts, hcommands⟩ := horderly
  have hlater := (List.cons_prefix_cons.mp hcommands).2
  have hkills : ∀ {count : Nat} {rest : List DagSignal}, rest <+: List.replicate count .kill →
      ∀ other ∈ rest, other = .kill := by
    intro count rest hrest other hother
    exact (List.mem_replicate.mp (hrest.mem hother)).2
  rcases Nat.le_one_iff_eq_zero_or_eq_one.mp hstarts with rfl | rfl
  · have hall := hkills hlater
    exact ⟨Or.inr (hall command List.mem_cons_self),
      fun other hother => hall other (List.mem_cons_of_mem _ hother)⟩
  · obtain ⟨rfl, hrest⟩ := List.cons_prefix_cons.mp hlater
    exact ⟨Or.inl rfl, hkills hrest⟩

theorem kill_of_length {earlier : List DagSignal} {command : DagSignal}
    (horderly : Orderly (earlier ++ [command])) (hlength : 2 ≤ earlier.length) : command = .kill := by
  rcases earlier with - | ⟨first, - | ⟨second, rest⟩⟩
  · simp at hlength
  · simp at hlength
  · rw [List.cons_append, List.cons_append] at horderly
    have hfirst := horderly.first
    subst hfirst
    exact horderly.second.2 command (List.mem_append_right _ List.mem_cons_self)

end Orderly

namespace Situation

/-- The commands that wait for a job, in order. -/
def commands (situation : Situation) (dag : DagId) : List DagSignal :=
  situation.pick (.dag dag) (Event.command? dag)

/-- The commands that wait for a vertex, in order. -/
def orders (situation : Situation) (id : VertexId) : List VertexSignal :=
  situation.pick (.vertex id) (Event.order? id)

/-- How many of the commands that a client gave the job has taken up. -/
structure Commanded (setting : Setting) (told : List DagSignal) (situation : Situation) : Prop where
  new : situation.attempt.dag.phase = .new → told = situation.commands setting.id
  inited : situation.attempt.dag.phase = .inited → told = .init :: situation.commands setting.id
  started : situation.attempt.dag.phase ≠ .new → situation.attempt.dag.phase ≠ .inited →
    2 ≤ told.length ∧ ∀ command ∈ situation.commands setting.id, command = .kill

variable {setting : Setting} {situation : Situation} {told : List DagSignal}

theorem Commanded.send (hcommanded : situation.Commanded setting told) (event : Event)
    (horderly : Orderly (told ++ (event.command? setting.id).toList)) :
    (situation.send [event]).Commanded setting (told ++ (event.command? setting.id).toList) := by
  have hcommands : (situation.send [event]).commands setting.id =
      situation.commands setting.id ++ (event.command? setting.id).toList := by
    refine (pick_send (fun _ => Event.command?_of_entity_ne) [event]).trans ?_
    rw [List.filterMap_cons]
    cases event.command? setting.id <;> rfl
  refine ⟨?_, ?_, ?_⟩
  · intro hphase
    rw [hcommands, ← hcommanded.new hphase]
  · intro hphase
    rw [hcommands, hcommanded.inited hphase]
    rfl
  · intro hnew hinited
    obtain ⟨hlength, hkills⟩ := hcommanded.started hnew hinited
    rw [hcommands]
    refine ⟨?_, fun command hcommand => ?_⟩
    · rw [List.length_append]
      omega
    · rcases List.mem_append.mp hcommand with hold | hsent
      · exact hkills command hold
      · rw [Option.mem_toList] at hsent
        rw [hsent] at horderly
        exact horderly.kill_of_length hlength

/-- The next command for the job is one that it expects. -/
theorem Commanded.expects (hcommanded : situation.Commanded setting told) (horderly : Orderly told)
    {command : DagSignal} {later : List DagSignal}
    (hcommands : situation.commands setting.id = command :: later)
    (hcommand : command.isCommand = true) : situation.attempt.dag.Expects command := by
  by_cases hnew : situation.attempt.dag.phase = .new
  · rw [hcommanded.new hnew, hcommands] at horderly
    rw [horderly.first]
    exact hnew
  · by_cases hinited : situation.attempt.dag.phase = .inited
    · rw [hcommanded.inited hinited, hcommands] at horderly
      rcases horderly.second.1 with rfl | rfl
      · exact hinited
      · exact hnew
    · obtain ⟨-, hkills⟩ := hcommanded.started hnew hinited
      rw [hkills command (by rw [hcommands]; exact List.mem_cons_self)]
      exact hnew

theorem phase_handleKill_ne_inited {dag : Dag} (hinited : dag.phase = .inited) :
    (dag.handle .kill).machine.phase ≠ .inited := by
  change dag.handleKill.machine.phase ≠ .inited
  rw [Dag.handleKill, hinited]
  intro hphase
  have hkilled : ∀ (killed : Dag) (fresh : Bool), killed.phase = .killWait →
      (killed.windUp fresh).machine.phase ≠ .inited := by
    intro killed fresh hkillWait heq
    rcases Dag.phase_windUp killed fresh with h | h
    · rw [h, hkillWait] at heq
      cases heq
    · rw [h] at heq
      cases hcause : killed.cause <;> rw [hcause] at heq <;> cases heq
  exact hkilled _ _ rfl hphase

section Step

variable (hcommanded : situation.Commanded setting told) (horderly : Orderly told)
  {later : Situation}

include hcommanded

/-- Once the job has taken up two commands, only kills are left. -/
theorem Commanded.of_past (hnew : situation.attempt.dag.phase ≠ .new)
    (hinited : situation.attempt.dag.phase ≠ .inited)
    (hfollows : situation.attempt.dag.Follows later.attempt.dag) {taken : List DagSignal}
    (hcommands : situation.commands setting.id = taken ++ later.commands setting.id) :
    later.Commanded setting told := by
  obtain ⟨hlength, hkills⟩ := hcommanded.started hnew hinited
  refine ⟨?_, ?_, fun _ _ => ⟨hlength, fun command hcommand => hkills command ?_⟩⟩
  · exact fun hphase => absurd (hfollows.new hphase) hnew
  · intro hphase
    rcases hfollows.inited hphase with h | h
    · exact absurd h hnew
    · exact absurd h hinited
  · rw [hcommands]
    exact List.mem_append_right _ hcommand

include horderly

/-- The second command takes the job past its first two phases. -/
theorem Commanded.of_second (hinited : situation.attempt.dag.phase = .inited) {command : DagSignal}
    (hcommands : situation.commands setting.id = command :: later.commands setting.id)
    (hafter : later.attempt.dag.phase ≠ .new ∧ later.attempt.dag.phase ≠ .inited) :
    later.Commanded setting told := by
  have htold := hcommanded.inited hinited
  rw [hcommands] at htold
  rw [htold] at horderly ⊢
  refine ⟨fun h => absurd h hafter.1, fun h => absurd h hafter.2, fun _ _ => ⟨?_, horderly.second.2⟩⟩
  simp

/-- A job that takes up an expected signal goes on as its commands say. -/
theorem Commanded.step {signal : DagSignal} (hexpects : situation.attempt.dag.Expects signal)
    (hlawful : situation.attempt.dag.Lawful (situation.attempt.dag.handle signal))
    (hdag : later.attempt.dag = (situation.attempt.dag.handle signal).machine)
    (hcommands : situation.commands setting.id =
      (if signal.isCommand = true then [signal] else []) ++ later.commands setting.id) :
    later.Commanded setting told := by
  have hfollows : situation.attempt.dag.Follows later.attempt.dag := hdag ▸ hlawful.follows
  cases signal with
  | init =>
      have hnew : situation.attempt.dag.phase = .new := hexpects
      have hafter : later.attempt.dag.phase = .inited := by
        rw [hdag]
        simp [Dag.handle, Dag.handleInit, hnew]
      have htold := hcommanded.new hnew
      rw [hcommands] at htold
      exact ⟨fun h => by simp [hafter] at h, fun _ => htold, fun _ h => absurd hafter h⟩
  | start =>
      have hinited : situation.attempt.dag.phase = .inited := hexpects
      refine hcommanded.of_second horderly hinited hcommands ?_
      rw [hdag]
      simp [Dag.handle, Dag.handleStart, hinited]
  | kill =>
      have hnew : situation.attempt.dag.phase ≠ .new := hexpects
      by_cases hinited : situation.attempt.dag.phase = .inited
      · refine hcommanded.of_second horderly hinited hcommands ⟨fun h => hnew (hfollows.new h), ?_⟩
        rw [hdag]
        exact phase_handleKill_ne_inited hinited
      · exact hcommanded.of_past hnew hinited hfollows hcommands
  | vertexCompleted place phase =>
      obtain ⟨hlive, -⟩ := hexpects
      refine hcommanded.of_past ?_ ?_ hfollows hcommands
      · rcases hlive with h | h <;> simp [h]
      · rcases hlive with h | h <;> simp [h]

end Step

theorem Commanded.of_same (hcommanded : situation.Commanded setting told) {later : Situation}
    (hdag : later.attempt.dag = situation.attempt.dag)
    (hcommands : later.commands setting.id = situation.commands setting.id) :
    later.Commanded setting told := by
  refine ⟨?_, ?_, ?_⟩
  · intro hphase
    rw [hcommands]
    exact hcommanded.new (hdag ▸ hphase)
  · intro hphase
    rw [hcommands]
    exact hcommanded.inited (hdag ▸ hphase)
  · intro hnew hinited
    rw [hcommands]
    exact hcommanded.started (hdag ▸ hnew) (hdag ▸ hinited)

end Situation

/-! ### The job and a vertex -/

/-- What the commands that wait for a vertex say of the vertex. -/
structure Ordered (dag : Dag) (id : VertexId) (vertex : Vertex) (orders : List VertexSignal) : Prop where
  sublist : orders.Sublist [.init, .start, .kill]
  new : dag.phase = .new → vertex.phase = .new ∧ orders = []
  inited : dag.phase = .inited → (vertex.phase = .new ∨ vertex.phase = .inited) ∧
    vertex.toldToStart = false ∧ orders.Sublist [.init]
  init : .init ∈ orders → vertex.phase = .new
  fresh : vertex.phase = .new → dag.phase = .new ∨ .init ∈ orders
  start : .start ∈ orders →
    (vertex.phase = .new ∨ vertex.phase = .inited) ∧ vertex.toldToStart = false
  kill : .kill ∈ orders → dag.asked id = true

/-- A selection that finds only one position of a range. -/
theorem filterMap_range_single {β : Type} {select : Nat → Option β} {position count : Nat}
    (hposition : position < count) (hselect : ∀ index, index ≠ position → select index = none) :
    (List.range count).filterMap select = (select position).toList := by
  induction count with
  | zero => omega
  | succ count ih =>
      rw [List.range_succ, List.filterMap_append]
      by_cases hlast : position = count
      · subst hlast
        have hnone : (List.range position).filterMap select = [] := by
          rw [List.filterMap_eq_nil_iff]
          intro index hindex
          exact hselect index (Nat.ne_of_lt (List.mem_range.mp hindex))
        rw [hnone, List.filterMap_cons]
        cases select position <;> rfl
      · rw [ih (by omega), List.filterMap_cons, hselect count (Ne.symm hlast)]
        exact List.append_nil _

theorem Event.order?_vertex_of_ne {id : VertexId} {index : Nat} (h : index ≠ id.index)
    (signal : VertexSignal) : order? id (.vertex ⟨index⟩ signal) = none := by
  apply order?_of_entity_ne
  intro heq
  exact h (congrArg VertexId.index (Entity.vertex.inj heq))

theorem Event.order?_self {id : VertexId} {signal : VertexSignal} (hcommand : signal.isCommand = true) :
    order? id (.vertex ⟨id.index⟩ signal) = some signal :=
  if_pos ⟨rfl, hcommand⟩

/-- The order to die that a change of the job brings to a vertex. -/
def Dag.killOrder (before after : Dag) (id : VertexId) : List VertexSignal :=
  if before.asked id = false ∧ after.asked id = true then [.kill] else []

theorem Dag.of_mem_killOrder {before after : Dag} {id : VertexId} {signal : VertexSignal}
    (hmem : signal ∈ before.killOrder after id) :
    signal = .kill ∧ before.asked id = false ∧ after.asked id = true := by
  rw [killOrder] at hmem
  split at hmem
  next hboth => exact ⟨List.mem_singleton.mp hmem, hboth⟩
  next => cases hmem

theorem Dag.killOrder_of_unasked {before after : Dag} {id : VertexId}
    (hunasked : after.asked id = false) : before.killOrder after id = [] := by
  rw [killOrder, if_neg]
  rintro ⟨-, hasked⟩
  exact absurd (hunasked.symm.trans hasked) (by decide)

theorem Dag.killOrder_sublist (before after : Dag) (id : VertexId) :
    (before.killOrder after id).Sublist [.kill] := by
  rw [killOrder]
  split
  · exact List.Sublist.refl _
  · exact List.nil_sublist _

/-- A job sends a vertex what its change asks for: each command once, and a kill if it was not told to
die before. -/
theorem Dag.orders_announcements (before after : Dag) {id : VertexId}
    (hindex : id.index < before.vertexCount) :
    (before.announcements after).filterMap (Event.order? id) =
      (if before.phase = .new ∧ after.phase = .inited then [.init] else []) ++
      (if before.phase = .inited ∧ after.phase = .running then [.start] else []) ++
      before.killOrder after id := by
  have hbroadcast : ∀ signal : VertexSignal, signal.isCommand = true →
      (before.broadcast signal).filterMap (Event.order? id) = [signal] := by
    intro signal hcommand
    rw [broadcast, List.filterMap_map, filterMap_range_single hindex]
    · simp only [Function.comp, Event.order?_self hcommand]
      rfl
    · exact fun index hne => Event.order?_vertex_of_ne hne signal
  have hkills : ((before.newlyAsked after).map (Event.vertex · .kill)).filterMap (Event.order? id) =
      before.killOrder after id := by
    rw [killOrder, newlyAsked, List.map_map, List.filterMap_map, List.filterMap_filter,
      filterMap_range_single hindex]
    · simp only [Function.comp, Event.order?_self (rfl : VertexSignal.kill.isCommand = true)]
      cases before.asked id <;> cases after.asked id <;> rfl
    · intro index hne
      simp only [Function.comp, Event.order?_vertex_of_ne hne]
      exact ite_self _
  have hfinished : (if before.ownerTold = false ∧ after.ownerTold = true then
      [Event.finished after.id after.phase] else []).filterMap (Event.order? id) = [] := by
    split <;> rfl
  simp only [announcements, List.filterMap_append, hkills, hfinished, List.append_nil]
  split <;> split <;> simp [hbroadcast .init rfl, hbroadcast .start rfl]

/-- A vertex commands nobody. -/
theorem Vertex.order?_of_mem_announcements {before after : Vertex} (hvalid : after.Valid)
    (id : VertexId) {event : Event} (hevent : event ∈ before.announcements after) :
    event.order? id = none := by
  rcases mem_announcements hvalid hevent with ⟨request, rfl, -⟩ | ⟨target, -, gate, rfl⟩ | rfl
  · rfl
  · cases gate <;> exact if_neg (fun h => by cases h.2)
  · rfl

/-- Before it is told to start, a vertex that is told of a source stays where it is. -/
theorem Vertex.Valid.still {vertex : Vertex} (hvalid : vertex.Valid) {signal : VertexSignal}
    (hcommand : signal.isCommand = false) (hexpects : vertex.Expects signal)
    (hphase : vertex.phase = .new ∨ vertex.phase = .inited) (huntold : vertex.toldToStart = false) :
    (vertex.handle signal).machine.phase = vertex.phase ∧
      (vertex.handle signal).machine.toldToStart = false := by
  cases signal with
  | init | start | kill => cases hcommand
  | sourceStarted source => exact Vertex.handleSource_of_untold huntold hexpects .sourceStarted
  | sourceSucceeded source => exact Vertex.handleSource_of_untold huntold hexpects .sourceSucceeded
  | taskCompleted task outcome =>
      exact absurd ((hvalid.waiting hphase).symm.trans hexpects.2) (by decide)

namespace Ordered

variable {dag : Dag} {id : VertexId} {vertex : Vertex} {orders : List VertexSignal}

theorem sublist_of_unasked (hordered : Ordered dag id vertex orders) (hasked : dag.asked id = false) :
    orders.Sublist [.init, .start] := by
  have hkill : .kill ∉ orders := by
    intro hmem
    exact absurd (hasked.symm.trans (hordered.kill hmem)) (by decide)
  obtain ⟨front, back, rfl, hfront, hback⟩ :=
    List.sublist_append_iff.mp (show orders.Sublist ([.init, .start] ++ [.kill]) from hordered.sublist)
  rcases List.sublist_singleton.mp hback with rfl | rfl
  · rw [List.append_nil]
    exact hfront
  · exact absurd (List.mem_append_right _ List.mem_cons_self) hkill

section StepDag

variable (hordered : Ordered dag id vertex orders) {step : Step Dag} (hlawful : dag.Lawful step)

include hordered hlawful

theorem asked_of_kill_mem (front : List VertexSignal) (hfront : .kill ∉ front)
    (hmem : .kill ∈ orders ++ front ++ dag.killOrder step.machine id) :
    step.machine.asked id = true := by
  rw [List.mem_append, List.mem_append] at hmem
  rcases hmem with (hold | hsent) | hkill
  · exact hlawful.follows.asked id (hordered.kill hold)
  · exact absurd hsent hfront
  · exact (Dag.of_mem_killOrder hkill).2.2

/-- Nothing was sent while the job was new, and now an order to initialise may be. -/
theorem step_dag_of_new (hvalid : vertex.Valid) (hnew : dag.phase = .new)
    (herror : step.machine.phase ≠ .error) : Ordered step.machine id vertex
      (orders ++ if step.machine.phase = .inited then [.init] else []) := by
  obtain ⟨hvertex, rfl⟩ := hordered.new hnew
  have huntold := hvalid.untold hvertex
  rw [List.nil_append]
  rcases hlawful.follows.started hnew with hafter | hafter | hafter
  · rw [hafter, if_neg (by decide)]
    exact {
      sublist := List.nil_sublist _
      new := fun _ => ⟨hvertex, rfl⟩
      inited := fun _ => ⟨Or.inl hvertex, huntold, List.nil_sublist _⟩
      init := by simp
      fresh := fun _ => Or.inl hafter
      start := by simp
      kill := by simp }
  · rw [if_pos hafter]
    exact {
      sublist := by simp
      new := fun h => by rw [hafter] at h; cases h
      inited := fun _ => ⟨Or.inl hvertex, huntold, List.Sublist.refl _⟩
      init := fun _ => hvertex
      fresh := fun _ => Or.inr List.mem_cons_self
      start := by simp
      kill := by simp }
  · exact absurd hafter herror

/-- An order to start goes to a vertex that has at most one to be initialised before it. -/
theorem step_dag_of_started (hinited : dag.phase = .inited) (hrunning : step.machine.phase = .running) :
    Ordered step.machine id vertex (orders ++ [.start] ++ dag.killOrder step.machine id) := by
  obtain ⟨hvertex, huntold, hsublist⟩ := hordered.inited hinited
  exact {
    sublist :=
      (hsublist.append (List.Sublist.refl [VertexSignal.start])).append (Dag.killOrder_sublist _ _ _)
    new := fun h => by rw [hrunning] at h; cases h
    inited := fun h => by rw [hrunning] at h; cases h
    init := by
      intro hmem
      rw [List.mem_append, List.mem_append] at hmem
      rcases hmem with (hold | hsent) | hkill
      · exact hordered.init hold
      · cases List.mem_singleton.mp hsent
      · cases (Dag.of_mem_killOrder hkill).1
    fresh := by
      intro hphase
      rcases hordered.fresh hphase with hnew | hinit
      · rw [hinited] at hnew
        cases hnew
      · exact Or.inr (List.mem_append_left _ (List.mem_append_left _ hinit))
    start := fun _ => ⟨hvertex, huntold⟩
    kill := hordered.asked_of_kill_mem hlawful [.start] (by decide) }

/-- Otherwise a vertex is only told to die, and once. -/
theorem step_dag_of_later (hnew : dag.phase ≠ .new)
    (hunasked : step.machine.phase = .inited → step.machine.asked id = false) :
    Ordered step.machine id vertex (orders ++ dag.killOrder step.machine id) := by
  have hafter : step.machine.phase ≠ .new := fun h => hnew (hlawful.follows.new h)
  have hold : ∀ signal : VertexSignal, signal ≠ .kill →
      signal ∈ orders ++ dag.killOrder step.machine id → signal ∈ orders := by
    intro signal hne hmem
    rcases List.mem_append.mp hmem with hold | hkill
    · exact hold
    · exact absurd (Dag.of_mem_killOrder hkill).1 hne
  exact {
    sublist := by
      cases hbefore : dag.asked id with
      | false =>
          exact (hordered.sublist_of_unasked hbefore).append (Dag.killOrder_sublist _ _ _)
      | true =>
          rw [Dag.killOrder, if_neg (by rw [hbefore]; simp), List.append_nil]
          exact hordered.sublist
    new := fun h => absurd h hafter
    inited := by
      intro hphase
      rw [Dag.killOrder_of_unasked (hunasked hphase), List.append_nil]
      exact hordered.inited ((hlawful.follows.inited hphase).resolve_left hnew)
    init := fun hmem => hordered.init (hold .init (by decide) hmem)
    fresh := by
      intro hphase
      rcases hordered.fresh hphase with h | h
      · exact absurd h hnew
      · exact Or.inr (List.mem_append_left _ h)
    start := fun hmem => hordered.start (hold .start (by decide) hmem)
    kill := by
      have hasked := hordered.asked_of_kill_mem hlawful [] List.not_mem_nil
      rwa [List.append_nil] at hasked }

/-- A step of the job puts its commands behind those that wait. -/
theorem step_dag (hvalid : vertex.Valid) (hindex : id.index < dag.vertexCount)
    (herror : step.machine.phase ≠ .error) :
    Ordered step.machine id vertex
      (orders ++ (dag.announcements step.machine).filterMap (Event.order? id)) := by
  have hunasked : step.machine.phase = .new ∨ step.machine.phase = .inited →
      step.machine.asked id = false := by
    intro hphase
    have hcause := (hlawful.valid.fresh hphase).1
    exact (hlawful.valid.unhurt hcause herror).1 id
  rw [Dag.orders_announcements dag step.machine hindex]
  by_cases hnew : dag.phase = .new
  · have hafter : step.machine.asked id = false := by
      rcases hlawful.follows.started hnew with h | h | h
      · exact hunasked (Or.inl h)
      · exact hunasked (Or.inr h)
      · exact absurd h herror
    have hstart : ¬ (dag.phase = .inited ∧ step.machine.phase = .running) := by
      rintro ⟨hinited, -⟩
      rw [hnew] at hinited
      cases hinited
    rw [Dag.killOrder_of_unasked hafter, if_neg hstart, List.append_nil, List.append_nil]
    simp only [hnew, true_and]
    exact hordered.step_dag_of_new hlawful hvalid hnew herror
  · rw [if_neg (fun h => hnew h.1), List.nil_append]
    by_cases hstart : dag.phase = .inited ∧ step.machine.phase = .running
    · rw [if_pos hstart, ← List.append_assoc]
      exact hordered.step_dag_of_started hlawful hstart.1 hstart.2
    · rw [if_neg hstart, List.nil_append]
      exact hordered.step_dag_of_later hlawful hnew (fun h => hunasked (Or.inr h))

end StepDag

/-- What a vertex can be told next, with what can follow. -/
theorem head_cases {signal : VertexSignal} (hordered : Ordered dag id vertex (signal :: orders)) :
    (signal = .init ∧ orders.Sublist [.start, .kill]) ∨ (signal = .start ∧ orders.Sublist [.kill]) ∨
      (signal = .kill ∧ orders = []) := by
  have hsublist := hordered.sublist
  rcases List.sublist_cons_iff.mp hsublist with hlater | ⟨rest, hrest, hlater⟩
  · rcases List.sublist_cons_iff.mp hlater with hlater | ⟨rest, hrest, hlater⟩
    · rcases List.sublist_cons_iff.mp hlater with hnil | ⟨rest, hrest, hlater⟩
      · cases hnil
      · cases hrest
        exact Or.inr (Or.inr ⟨rfl, List.sublist_nil.mp hlater⟩)
    · cases hrest
      exact Or.inr (Or.inl ⟨rfl, hlater⟩)
  · cases hrest
    exact Or.inl ⟨rfl, hlater⟩

/-- A vertex is told nothing while the job is new, and to start once it is initialised. -/
theorem phase_of_start (hordered : Ordered dag id vertex (.start :: orders)) :
    vertex.phase = .inited := by
  rcases (hordered.start List.mem_cons_self).1 with hnew | hinited
  · exfalso
    rcases hordered.fresh hnew with h | hinit
    · cases (hordered.new h).2
    · rcases hordered.head_cases with ⟨h, -⟩ | ⟨-, hlater⟩ | ⟨h, -⟩
      · cases h
      · have hmem := hlater.mem ((List.mem_cons.mp hinit).resolve_left (by decide))
        simp at hmem
      · cases h
  · exact hinited

theorem expects {signal : VertexSignal} (hordered : Ordered dag id vertex (signal :: orders)) :
    vertex.Expects signal := by
  rcases hordered.head_cases with ⟨rfl, -⟩ | ⟨rfl, -⟩ | ⟨rfl, -⟩
  · exact Or.inl (hordered.init List.mem_cons_self)
  · exact Or.inl hordered.phase_of_start
  · trivial

theorem ne_new (hordered : Ordered dag id vertex orders) (hwaits : orders ≠ []) : dag.phase ≠ .new :=
  fun hnew => hwaits (hordered.new hnew).2

/-- A vertex takes up the order to initialise. -/
theorem step_init (hordered : Ordered dag id vertex (.init :: orders))
    (hlater : orders.Sublist [.start, .kill]) :
    Ordered dag id (vertex.handle .init).machine orders := by
  have hphase := hordered.init List.mem_cons_self
  have hafter : (vertex.handle .init).machine.phase = .inited ∧
      (vertex.handle .init).machine.toldToStart = vertex.toldToStart := by
    simp [Vertex.handle, Vertex.handleInit, hphase]
  exact {
    sublist := hlater.trans (List.sublist_cons_self _ _)
    new := fun h => absurd h (hordered.ne_new (List.cons_ne_nil _ _))
    inited := by
      intro hinited
      obtain ⟨-, huntold, hinit⟩ := hordered.inited hinited
      refine ⟨Or.inr hafter.1, hafter.2.trans huntold, ?_⟩
      rw [List.cons_sublist_cons] at hinit
      exact hinit.trans (List.nil_sublist _)
    init := by
      intro hmem
      have habsent := hlater.mem hmem
      simp at habsent
    fresh := fun h => by rw [hafter.1] at h; cases h
    start := by
      intro hmem
      exact ⟨Or.inr hafter.1, hafter.2.trans (hordered.start (List.mem_cons_of_mem _ hmem)).2⟩
    kill := fun hmem => hordered.kill (List.mem_cons_of_mem _ hmem) }

/-- Behind an order to start or to die, nothing but an order to die may wait. -/
theorem step_past {signal : VertexSignal} (hordered : Ordered dag id vertex (signal :: orders))
    (hsignal : signal ≠ .init) (hlater : orders.Sublist [.kill]) {after : Vertex}
    (hrank : 1 ≤ after.phase.rank) : Ordered dag id after orders where
  sublist := hlater.trans (List.sublist_append_right [VertexSignal.init, .start] [.kill])
  new h := absurd h (hordered.ne_new (List.cons_ne_nil _ _))
  inited := by
    intro hinited
    have hmem := (hordered.inited hinited).2.2.mem List.mem_cons_self
    exact absurd (List.mem_singleton.mp hmem) hsignal
  init := by
    intro hmem
    cases List.mem_singleton.mp (hlater.mem hmem)
  fresh := by
    intro hnew
    rw [hnew] at hrank
    exact absurd hrank (by decide)
  start := by
    intro hmem
    cases List.mem_singleton.mp (hlater.mem hmem)
  kill hmem := hordered.kill (List.mem_cons_of_mem _ hmem)

/-- A vertex takes up a command. -/
theorem step_command {signal : VertexSignal} (hordered : Ordered dag id vertex (signal :: orders))
    (hlawful : vertex.Lawful (vertex.handle signal)) :
    Ordered dag id (vertex.handle signal).machine orders := by
  rcases hordered.head_cases with ⟨rfl, hlater⟩ | ⟨rfl, hlater⟩ | ⟨rfl, rfl⟩
  · exact hordered.step_init hlater
  · have hrank := hlawful.follows.rank
    rw [hordered.phase_of_start] at hrank
    exact hordered.step_past (by decide) hlater hrank
  · have hrank : 3 ≤ (vertex.handle .kill).machine.phase.rank := vertex.rank_handleKill
    exact hordered.step_past (by decide) (List.nil_sublist _) (by omega)

/-- A vertex that is told of a source, or of a task, stays in step with its commands. -/
theorem step_other (hordered : Ordered dag id vertex orders) (hvalid : vertex.Valid)
    {signal : VertexSignal} (hcommand : signal.isCommand = false) (hexpects : vertex.Expects signal)
    (hlawful : vertex.Lawful (vertex.handle signal)) :
    Ordered dag id (vertex.handle signal).machine orders := by
  have hstill := hvalid.still hcommand hexpects
  have hnew : vertex.phase = .new → (vertex.handle signal).machine.phase = .new := by
    intro hphase
    rw [(hstill (Or.inl hphase) (hvalid.untold hphase)).1, hphase]
  exact {
    sublist := hordered.sublist
    new := fun h => ⟨hnew (hordered.new h).1, (hordered.new h).2⟩
    inited := by
      intro h
      obtain ⟨hphase, huntold, hsublist⟩ := hordered.inited h
      have hafter := hstill hphase huntold
      rw [hafter.1]
      exact ⟨hphase, hafter.2, hsublist⟩
    init := fun hmem => hnew (hordered.init hmem)
    fresh := by
      intro h
      have hrank := hlawful.follows.rank
      rw [h] at hrank
      apply hordered.fresh
      cases hphase : vertex.phase <;> rw [hphase] at hrank <;> simp [Phase.rank] at hrank ⊢
    start := by
      intro hmem
      obtain ⟨hphase, huntold⟩ := hordered.start hmem
      have hafter := hstill hphase huntold
      rw [hafter.1]
      exact ⟨hphase, hafter.2⟩
    kill := hordered.kill }

end Ordered

end JobFlow
