import JobFlow.Proofs.Dag.Responses
import JobFlow.Proofs.Lanes
import JobFlow.Proofs.Promises

/-!
A potential that every delivery lowers. A machine that has still something to announce holds in reserve
what its announcements will cost: one delivery for each event, and one more for each task of a request,
since the task layer may answer for each. What a step announces, it pays from the reserve of its machine,
and the answers of a task layer are paid by the request. Main statement: in every turn the reserves and
the cost of what is sent come to less than the reserves and the cost of what was taken.
-/

namespace JobFlow

open Coordinator (waitingCost)

/-- What some events cost together. -/
def cost (events : List Event) : Nat := (events.map waitingCost).sum

@[simp] theorem cost_nil : cost [] = 0 := rfl

theorem cost_append (events later : List Event) : cost (events ++ later) = cost events + cost later := by
  rw [cost, List.map_append, List.sum_append]
  rfl

theorem cost_cons (event : Event) (rest : List Event) :
    cost (event :: rest) = waitingCost event + cost rest := rfl

theorem one_le_waitingCost (event : Event) : 1 ≤ waitingCost event := by
  unfold waitingCost
  split <;> omega

/-- Events that are no requests cost as many deliveries as there are events. -/
theorem cost_eq_length {events : List Event} (hplain : ∀ event ∈ events, waitingCost event = 1) :
    cost events = events.length := by
  induction events with
  | nil => rfl
  | cons first rest ih =>
      rw [cost_cons, List.length_cons, hplain first List.mem_cons_self,
        ih (fun event hevent => hplain event (List.mem_cons_of_mem _ hevent))]
      omega

/-! ### The job -/

namespace Dag

/-- The number of vertices that were not told to die. -/
def spared (dag : Dag) : Nat := (List.range dag.vertexCount).countP (fun index => !dag.asked ⟨index⟩)

/-- What a job may still announce: two commands for all vertices, an order to die for each of them, and
the notification of the owner. -/
def potential (dag : Dag) : Nat :=
  (if dag.phase = .new then dag.vertexCount else 0) +
    (if dag.phase = .new ∨ dag.phase = .inited then dag.vertexCount else 0) +
    dag.spared + (if dag.ownerTold then 0 else 1)

variable {before after : Dag}

/-- Whoever is newly told to die was spared before. -/
theorem spared_eq (hfollows : before.Follows after) :
    before.spared = after.spared + (before.newlyAsked after).length := by
  rw [newlyAsked, List.length_map, ← List.countP_eq_length_filter]
  unfold spared
  rw [hfollows.vertexCount]
  induction List.range before.vertexCount with
  | nil => rfl
  | cons index rest ih =>
      have hasked := hfollows.asked ⟨index⟩
      rw [List.countP_cons, List.countP_cons, List.countP_cons, ih]
      cases hbefore : before.asked ⟨index⟩ with
      | true =>
          rw [hasked hbefore]
          simp
      | false => cases after.asked ⟨index⟩ <;> simp <;> omega

theorem cost_announcements (before after : Dag) :
    cost (before.announcements after) = (before.announcements after).length := by
  apply cost_eq_length
  intro event hevent
  rcases mem_announcements hevent with ⟨_, _, rfl, -⟩ | rfl <;> rfl

theorem length_announcements (before after : Dag) : (before.announcements after).length =
    (if before.phase = .new ∧ after.phase = .inited then before.vertexCount else 0) +
      (if before.phase = .inited ∧ after.phase = .running then before.vertexCount else 0) +
      (before.newlyAsked after).length +
      (if before.ownerTold = false ∧ after.ownerTold = true then 1 else 0) := by
  have hbroadcast : ∀ signal, (before.broadcast signal).length = before.vertexCount := by
    intro signal
    rw [broadcast, List.length_map, List.length_range]
  rw [announcements, List.length_append, List.length_append, List.length_append, List.length_map]
  congr 1
  · congr 1
    congr 1
    · split
      · exact hbroadcast .init
      · rfl
    · split
      · exact hbroadcast .start
      · rfl
  · split <;> rfl

/-- A job pays its announcements from its reserve. -/
theorem potential_step (hfollows : before.Follows after)
    (htold : before.ownerTold = true → after.ownerTold = true) :
    after.potential + cost (before.announcements after) ≤ before.potential := by
  rw [cost_announcements, length_announcements]
  unfold potential
  rw [hfollows.vertexCount, spared_eq hfollows]
  have hnew := hfollows.new
  have hinited := hfollows.inited
  have howner : (if after.ownerTold then 0 else 1) +
      (if before.ownerTold = false ∧ after.ownerTold = true then 1 else 0) ≤
      if before.ownerTold then 0 else 1 := by
    cases hb : before.ownerTold with
    | true => simp [htold hb]
    | false => cases after.ownerTold <;> simp
  have hphases : (if after.phase = .new then before.vertexCount else 0) +
      (if after.phase = .new ∨ after.phase = .inited then before.vertexCount else 0) +
      ((if before.phase = .new ∧ after.phase = .inited then before.vertexCount else 0) +
        (if before.phase = .inited ∧ after.phase = .running then before.vertexCount else 0)) ≤
      (if before.phase = .new then before.vertexCount else 0) +
        (if before.phase = .new ∨ before.phase = .inited then before.vertexCount else 0) := by
    cases hafter : after.phase with
    | new => simp [hnew hafter]
    | inited => rcases hinited hafter with h | h <;> simp [h]
    | running => cases before.phase <;> simp
    | killWait | succeeded | failed | killed | error => simp
  omega

end Dag

/-! ### A vertex -/

/-- How often a vertex in a phase may still ask for its tasks to be killed. -/
def Phase.killsLeft : Phase → Nat
  | new | inited | running => 2
  | killWait => 1
  | succeeded | failed | killed | error => 0

/-- A vertex that asks for its tasks to be killed uses up one of the times that it may. -/
theorem Phase.killsLeft_step {before after : Phase} (hrank : before.rank ≤ after.rank)
    (hended : before.isTerminal = true → after = before) :
    after.killsLeft + (if before ≠ after ∧ after.isStopping = true then 1 else 0) ≤
      before.killsLeft := by
  cases before <;> cases after <;> simp_all [rank, killsLeft, isStopping, isTerminal]

namespace Vertex

/-- What a vertex may still announce: the request for its tasks and the news of its start, the requests
to kill its tasks, and the news of its end. -/
def potential (vertex : Vertex) : Nat :=
  (if vertex.launched then 0 else 1 + vertex.progress.total + vertex.targets.length) +
    vertex.phase.killsLeft * (1 + vertex.slots.length) +
    (if vertex.phase.isTerminal then 0 else 1 + vertex.targets.length)

theorem cost_news (vertex : Vertex) (signal : VertexSignal) :
    cost (vertex.targets.map (fun target => .vertex target signal)) = vertex.targets.length := by
  rw [cost_eq_length]
  · exact List.length_map _
  · intro event hevent
    obtain ⟨target, -, rfl⟩ := List.mem_map.mp hevent
    rfl

theorem cost_launchEvents (vertex : Vertex) :
    cost vertex.launchEvents ≤ 1 + vertex.progress.total + vertex.targets.length := by
  have htasks : vertex.tasks.length = vertex.progress.total := by
    rw [tasks, List.length_map, List.length_range]
  rw [launchEvents, cost_append, cost_news]
  split
  · show 0 + _ ≤ _
    omega
  · show 1 + vertex.tasks.length + 0 + _ ≤ _
    omega

theorem cost_killRequest (vertex : Vertex) : cost vertex.killRequest ≤ 1 + vertex.slots.length := by
  have hunreported : vertex.unreported.length ≤ vertex.slots.length := by
    rw [unreported, List.length_map]
    calc _ ≤ (List.range vertex.slots.length).length := List.length_filter_le _ _
      _ = vertex.slots.length := List.length_range
  rw [killRequest]
  split
  · show 1 + vertex.unreported.length + 0 ≤ _
    omega
  · exact Nat.zero_le _

theorem cost_endEvents (vertex : Vertex) : cost vertex.endEvents ≤ 1 + vertex.targets.length := by
  rw [endEvents, cost_cons]
  show 1 + _ ≤ _
  split
  · exact Nat.add_le_add_left (Nat.le_of_eq (vertex.cost_news _)) 1
  · exact Nat.le_add_right 1 _

variable {before after : Vertex}

/-- A vertex pays its announcements from its reserve. -/
theorem potential_step (hfollows : before.Follows after) :
    after.potential + cost (before.announcements after) ≤ before.potential := by
  have hlaunch : (if after.launched then 0 else 1 + after.progress.total + after.targets.length) +
      cost (if before.launched = false ∧ after.launched = true then after.launchEvents else []) ≤
      if before.launched then 0 else 1 + before.progress.total + before.targets.length := by
    have hcost := after.cost_launchEvents
    rw [hfollows.total, hfollows.targets] at hcost ⊢
    cases hbefore : before.launched with
    | true => simp [hfollows.launched hbefore]
    | false =>
        cases hafter : after.launched with
        | true => simpa using hcost
        | false => simp
  have hkill : after.phase.killsLeft * (1 + after.slots.length) +
      cost (if before.phase ≠ after.phase ∧ after.phase.isStopping = true then after.killRequest
        else []) ≤ before.phase.killsLeft * (1 + before.slots.length) := by
    have hcost := after.cost_killRequest
    have hleft := Phase.killsLeft_step hfollows.rank hfollows.ended
    rw [hfollows.length] at hcost ⊢
    calc _ ≤ (after.phase.killsLeft +
          if before.phase ≠ after.phase ∧ after.phase.isStopping = true then 1 else 0) *
          (1 + before.slots.length) := by
            rw [Nat.add_mul]
            apply Nat.add_le_add_left
            split
            · rw [Nat.one_mul]
              exact hcost
            · exact Nat.zero_le _
      _ ≤ before.phase.killsLeft * (1 + before.slots.length) := Nat.mul_le_mul_right _ hleft
  have hend : (if after.phase.isTerminal then 0 else 1 + after.targets.length) +
      cost (if before.phase.isTerminal = false ∧ after.phase.isTerminal = true then after.endEvents
        else []) ≤ if before.phase.isTerminal then 0 else 1 + before.targets.length := by
    have hcost := after.cost_endEvents
    rw [hfollows.targets] at hcost ⊢
    cases hbefore : before.phase.isTerminal with
    | true => simp [hfollows.ended hbefore, hbefore]
    | false =>
        cases hafter : after.phase.isTerminal with
        | true => simpa using hcost
        | false => simp
  rw [announcements, cost_append, cost_append]
  unfold potential
  omega

end Vertex

/-! ### A turn -/

theorem TaskLayer.cost_reports (layer : TaskLayer) (request : TaskRequest) :
    cost (layer.reports request) ≤ request.tasks.length := by
  rw [cost_eq_length]
  · cases request with
    | schedule tasks resource =>
        rw [reports]
        split
        · exact Nat.le_of_eq (List.length_map _)
        · exact Nat.zero_le _
    | kill tasks =>
        rw [reports]
        split
        · exact Nat.le_of_eq (List.length_map _)
        · exact Nat.zero_le _
  · intro event hevent
    obtain ⟨task, -, outcome, rfl⟩ := mem_reports hevent
    rfl

namespace Attempt

/-- What the machines of an attempt hold in reserve. -/
def potential (attempt : Attempt) : Nat :=
  attempt.dag.potential + (attempt.vertices.map Vertex.potential).sum

/-- Once the owner was told, that is not taken back. -/
theorem ownerTold_handle {dag : Dag} (hvalid : dag.Valid) {signal : DagSignal}
    (hlawful : dag.Lawful (dag.handle signal)) (htold : dag.ownerTold = true) :
    (dag.handle signal).machine.ownerTold = true := by
  rw [hvalid.ownerTold] at htold
  rw [hlawful.valid.ownerTold]
  rcases (dag.change_handle signal).phase_of_isTerminal htold with h | h
  · rw [h, htold]
  · rw [h]
    rfl

/-- Every turn is paid for, and one delivery is over. -/
theorem Turn.potential {setting : Setting} {attempt : Attempt} (hwired : attempt.Wired setting)
    {event : Event} {step : Step Attempt} (hturn : attempt.Turn event step) :
    step.machine.potential + cost step.outbound + 1 ≤ attempt.potential + waitingCost event := by
  have hevent := one_le_waitingCost event
  cases hturn with
  | dag signal published hlawful =>
      have hdag := Dag.potential_step hlawful.follows (ownerTold_handle hwired.dag hlawful)
      unfold Attempt.potential
      dsimp only
      omega
  | @vertex id before hbefore signal hlawful =>
      have hvertex := Vertex.potential_step hlawful.follows
      obtain ⟨hindex, hfound⟩ := List.getElem?_eq_some_iff.mp hbefore
      obtain ⟨earlier, later, hvertices, -, hset⟩ : ∃ earlier later,
          attempt.vertices = earlier ++ attempt.vertices[id.index] :: later ∧ earlier.length = id.index ∧
            attempt.vertices.set id.index (before.handle signal).machine =
              earlier ++ (before.handle signal).machine :: later := List.exists_of_set hindex
      rw [hfound] at hvertices
      unfold Attempt.potential
      dsimp only
      rw [hset, hvertices]
      simp only [List.map_append, List.map_cons, List.sum_append, List.sum_cons]
      omega
  | @tasks layer hlayer id request =>
      have hreports := layer.cost_reports request
      show attempt.potential + cost (layer.reports request) + 1 ≤
        attempt.potential + (1 + request.tasks.length)
      omega
  | finished dag phase =>
      show attempt.potential + 0 + 1 ≤ attempt.potential + 1
      omega
  | stray =>
      show attempt.potential + 0 + 1 ≤ attempt.potential + waitingCost event
      omega

end Attempt

end JobFlow
