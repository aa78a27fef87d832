import JobFlow.Proofs.Graph.Paths

/-!
The vertex that a refused plan is blamed on. Only the search for an order finds longer cycles, and a loop
from a vertex to itself is refused before. Main statement: the vertex named as part of a cycle is one of the
plan and lies on a cycle of at least two edges that passes through no vertex twice, and of the plans whose
names and edges are sound those that have a cycle are refused in this way.
-/

namespace JobFlow

namespace Plan

variable {plan : Plan}

/-- A vertex that can be reached from itself lies on a cycle without repetition. -/
theorem exists_cycle {name : String} (hreturns : Relation.TransGen plan.Leads name name) :
    ∃ cycle, plan.IsPath cycle name name ∧ cycle ≠ [] ∧ (cycle.map (·.source)).Nodup := by
  obtain ⟨next, ⟨edge, hedge, rfl, rfl⟩, hreturn⟩ := Relation.TransGen.head'_iff.mp hreturns
  obtain ⟨path, hpath⟩ := exists_isPath hreturn
  obtain ⟨short, hshort, hnodup⟩ := hpath.exists_simple
  refine ⟨edge :: short, ⟨hedge, rfl, hshort⟩, List.cons_ne_nil _ _, ?_⟩
  exact (List.perm_append_singleton edge.source (short.map (·.source))).nodup_iff.mp hnodup

/-- If no edge leads from a vertex to itself, a cycle has two edges at least. -/
theorem IsPath.two_le_length {cycle : List EdgeSpec} {name : String} (hcycle : plan.IsPath cycle name name)
    (hnonempty : cycle ≠ []) (hends : ∀ edge ∈ plan.edges, edge.source ≠ edge.destination) :
    2 ≤ cycle.length := by
  match cycle, hnonempty with
  | [edge], _ =>
      obtain ⟨hedge, hsource, hdestination⟩ := hcycle
      exact absurd (hsource.trans hdestination.symm) (hends edge hedge)
  | first :: second :: rest, _ => exact Nat.le_add_left 2 rest.length

/-! ### Edges of a plan that is searched -/

/-- Before an order is looked for, every edge leads from one vertex of the plan to another. -/
theorem ends_of_arcs {arcs : List Arc} (harcs : plan.arcs = .ok arcs) {edge : EdgeSpec}
    (hedge : edge ∈ plan.edges) :
    edge.source ∈ plan.vertices.map (·.name) ∧ edge.source ≠ edge.destination := by
  obtain ⟨-, hends⟩ := exists_resolveEdges_iff.mp ⟨arcs, (arcs_ok harcs).2⟩
  obtain ⟨-, source, target, hsource, htarget, hne⟩ := hends edge hedge
  refine ⟨exists_vertexId?_iff.mp ⟨source, hsource⟩, fun hsame => hne ?_⟩
  rw [hsame] at hsource
  exact Option.some.inj (hsource.symm.trans htarget)

/-- The defect of a list of edges is the defect of one of them. -/
theorem resolveEdge_of_resolveEdges {seen : List String} {edges : List EdgeSpec} {defect : PlanDefect}
    (h : plan.resolveEdges seen edges = .error defect) :
    ∃ edge ∈ edges, ∃ before, plan.resolveEdge before edge = .error defect := by
  induction edges generalizing seen with
  | nil => cases h
  | cons edge rest ih =>
      rw [resolveEdges] at h
      cases hfirst : plan.resolveEdge seen edge with
      | error refused =>
          rw [hfirst] at h
          cases h
          exact ⟨edge, List.mem_cons_self, seen, hfirst⟩
      | ok arc =>
          cases hlater : plan.resolveEdges (edge.id :: seen) rest with
          | error refused =>
              rw [hfirst, hlater] at h
              cases h
              obtain ⟨other, hother, hrefused⟩ := ih hlater
              exact ⟨other, List.mem_cons_of_mem _ hother, hrefused⟩
          | ok arcs =>
              rw [hfirst, hlater] at h
              cases h

theorem resolveEdge_ne_cycle (seen : List String) (edge : EdgeSpec) (name : String) :
    plan.resolveEdge seen edge ≠ .error (.cycle name) := by
  unfold resolveEdge
  split
  · simp
  · split
    · simp
    · simp
    · split <;> simp

/-- Names and edges are refused for other reasons. -/
theorem arcs_ne_cycle (name : String) : plan.arcs ≠ .error (.cycle name) := by
  unfold arcs
  split
  · simp
  · split
    · simp
    · intro h
      obtain ⟨edge, -, before, hrefused⟩ := resolveEdge_of_resolveEdges h
      exact resolveEdge_ne_cycle before edge name hrefused

end Plan

/-- The text of a cycle that was searched for does not occur for anything else. -/
theorem PlanDefect.eq_cycle_of_error {defect : PlanDefect} {name : String}
    (h : defect.error = .cycle s!"cycle detected in vertex DAG involving vertex '{name}'") :
    defect = .cycle name := by
  cases defect with
  | cycle vertex =>
      have hsame := (String.append_left_inj _).mp (Error.cycle.inj h)
      exact congrArg PlanDefect.cycle ((String.append_right_inj _).mp hsame)
  | selfLoop edge vertex =>
      -- One text begins with "edge", the other with "cycle".
      have hfirst := congrArg (fun text => text.toList.head?) (Error.cycle.inj h)
      simp [toString] at hfirst
  | noVertices plan => cases h
  | duplicateVertex name => cases h
  | duplicateEdge id => cases h
  | unknownVertex edge vertex => cases h

namespace Graph

variable {plan : Plan}

theorem order_of_ofPlan_cycle {name : String} (hrefused : ofPlan plan = .error (.cycle name)) :
    ∃ arcs vertex, plan.arcs = .ok arcs ∧ Arc.order arcs plan.vertexIds = .error vertex ∧
      plan.nameAt vertex = name := by
  rw [ofPlan] at hrefused
  cases harcs : plan.arcs with
  | error defect =>
      rw [harcs] at hrefused
      cases hrefused
      exact absurd harcs (Plan.arcs_ne_cycle name)
  | ok arcs =>
      simp only [harcs, bind, Except.bind] at hrefused
      cases horder : Arc.order arcs plan.vertexIds with
      | ok order =>
          rw [horder] at hrefused
          cases hrefused
      | error vertex =>
          rw [horder] at hrefused
          cases hrefused
          exact ⟨arcs, vertex, rfl, horder, rfl⟩

theorem cycle_of_reported {name : String} (hrefused : ofPlan plan = .error (.cycle name)) :
    name ∈ plan.vertices.map (·.name) ∧ ∃ cycle, plan.IsPath cycle name name ∧ 2 ≤ cycle.length ∧
      (cycle.map (·.source)).Nodup := by
  obtain ⟨arcs, vertex, harcs, horder, rfl⟩ := order_of_ofPlan_cycle hrefused
  obtain ⟨cycle, hcycle, hnonempty, hnodup⟩ := Plan.exists_cycle (Arc.cycle_of_order harcs horder)
  have hlength := hcycle.two_le_length hnonempty (fun edge hedge => (Plan.ends_of_arcs harcs hedge).2)
  refine ⟨?_, cycle, hcycle, hlength, hnodup⟩
  obtain ⟨edge, rest, rfl⟩ := List.exists_cons_of_ne_nil hnonempty
  obtain ⟨hedge, hsource, -⟩ := hcycle
  exact hsource ▸ (Plan.ends_of_arcs harcs hedge).1

/-- A plan with a cycle has no order, and if its edges are sound nothing else is reported. -/
theorem exists_reported {arcs : List Arc} (harcs : plan.arcs = .ok arcs) {name : String}
    (hcycle : Relation.TransGen plan.Leads name name) :
    ∃ reported, ofPlan plan = .error (.cycle reported) := by
  cases horder : Arc.order arcs plan.vertexIds with
  | error vertex =>
      refine ⟨plan.nameAt vertex, ?_⟩
      simp only [ofPlan, harcs, horder, bind, Except.bind]
      rfl
  | ok order =>
      have hbuilt : ofPlan plan = .ok (assemble plan arcs order) := by
        simp only [ofPlan, harcs, horder, bind, Except.bind, pure, Except.pure]
      exact absurd hcycle ((wellFormed_of_ofPlan hbuilt).acyclic name)

/-- The vertex that the refusal of a plan names as part of a cycle lies on one: it is a vertex of the plan,
and two edges or more lead from it back to it, through no vertex twice. A plan is refused in this way exactly
if its names and edges are sound and some vertex can be reached from itself. -/
theorem reported_cycle_is_real (plan : Plan) :
    (∀ defect name, ofPlan plan = .error defect →
      defect.error = .cycle s!"cycle detected in vertex DAG involving vertex '{name}'" →
      name ∈ plan.vertices.map (·.name) ∧ ∃ cycle, plan.IsPath cycle name name ∧ 2 ≤ cycle.length ∧
        (cycle.map (·.source)).Nodup) ∧
    ((∃ name, ofPlan plan = .error (.cycle name)) ↔
      (∃ arcs, plan.arcs = .ok arcs) ∧ ∃ name, Relation.TransGen plan.Leads name name) := by
  refine ⟨fun defect name hrefused hmessage => ?_, fun ⟨name, hrefused⟩ => ?_, ?_⟩
  · rw [PlanDefect.eq_cycle_of_error hmessage] at hrefused
    exact cycle_of_reported hrefused
  · obtain ⟨arcs, vertex, harcs, horder, -⟩ := order_of_ofPlan_cycle hrefused
    exact ⟨⟨arcs, harcs⟩, _, Arc.cycle_of_order harcs horder⟩
  · rintro ⟨⟨arcs, harcs⟩, name, hcycle⟩
    exact exists_reported harcs hcycle

end Graph

/-- A plan of four vertices with a cycle of two, an edge that leads to it and an edge that leads away. -/
def Plan.knot : Plan where
  name := "knot"
  vertices := [⟨"a", 1, {}⟩, ⟨"b", 1, {}⟩, ⟨"c", 1, {}⟩, ⟨"d", 1, {}⟩]
  edges := [⟨"e1", "a", "b", .bipartite, .stable⟩, ⟨"e2", "b", "c", .bipartite, .stable⟩,
    ⟨"e3", "c", "b", .bipartite, .stable⟩, ⟨"e4", "c", "d", .bipartite, .stable⟩]

namespace Graph

theorem ofPlan_knot : ofPlan .knot = .error (.cycle "c") := by
  have harcs : Plan.knot.arcs = .ok [⟨⟨0⟩, ⟨1⟩⟩, ⟨⟨1⟩, ⟨2⟩⟩, ⟨⟨2⟩, ⟨1⟩⟩, ⟨⟨2⟩, ⟨3⟩⟩] := by decide
  have hids : Plan.knot.vertexIds = [⟨0⟩, ⟨1⟩, ⟨2⟩, ⟨3⟩] := by decide
  have horder : Arc.order [⟨⟨0⟩, ⟨1⟩⟩, ⟨⟨1⟩, ⟨2⟩⟩, ⟨⟨2⟩, ⟨1⟩⟩, ⟨⟨2⟩, ⟨3⟩⟩] [⟨0⟩, ⟨1⟩, ⟨2⟩, ⟨3⟩] = .error ⟨2⟩ := by
    simp [Arc.order, Arc.targetsOf, Arc.sourcesOf, Search.topologicalOrder, Search.finishingOrder,
      Search.explore, Search.secondVisited?, Search.unwind]
  rw [ofPlan, harcs, hids]
  simp only [bind, Except.bind, horder]
  rfl

/-- Neither the vertex before the cycle nor the one after it is named. -/
theorem reported_cycle_is_real_knot : ofPlan .knot = .error (.cycle "c") ∧
    (PlanDefect.cycle "c").error = .cycle "cycle detected in vertex DAG involving vertex 'c'" ∧
    "c" ∈ Plan.knot.vertices.map (·.name) ∧ ∃ cycle, Plan.knot.IsPath cycle "c" "c" ∧
      2 ≤ cycle.length ∧ (cycle.map (·.source)).Nodup :=
  ⟨ofPlan_knot, rfl, (reported_cycle_is_real .knot).1 (.cycle "c") "c" ofPlan_knot rfl⟩

example : Plan.knot.IsPath
    [⟨"e3", "c", "b", .bipartite, .stable⟩, ⟨"e2", "b", "c", .bipartite, .stable⟩] "c" "c" := by decide

end Graph

end JobFlow
