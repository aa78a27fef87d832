import JobFlow.Proofs.Graph.Soundness
import JobFlow.Proofs.Lanes

/-!
The size of a graph. Every edge of the plan makes its source and its target neighbours, so all vertices
together have no more targets than the plan has edges.
-/

namespace JobFlow

theorem length_eraseDups_le {α : Type} [BEq α] (items : List α) :
    items.eraseDups.length ≤ items.length := by
  match items with
  | [] => exact Nat.le_refl 0
  | first :: rest =>
      rw [List.eraseDups_cons, List.length_cons, List.length_cons]
      have hfilter := List.length_filter_le (fun other => !other == first) rest
      have hrest := length_eraseDups_le (rest.filter (fun other => !other == first))
      omega
termination_by items.length
decreasing_by exact Nat.lt_succ_of_le (List.length_filter_le _ _)

/-- Items are told apart by different keys, so no item is counted under two of them. -/
theorem sum_length_filter_le {α β : Type} [DecidableEq β] (key : α → β) (items : List α) {keys : List β}
    (hnodup : keys.Nodup) :
    (keys.map (fun wanted => (items.filter (key · = wanted)).length)).sum ≤ items.length := by
  induction keys generalizing items with
  | nil => exact Nat.zero_le _
  | cons first rest ih =>
      obtain ⟨hfirst, hrest⟩ := List.nodup_cons.mp hnodup
      have hothers : rest.map (fun wanted => (items.filter (key · = wanted)).length) =
          rest.map (fun wanted =>
            ((items.filter (fun item => !decide (key item = first))).filter (key · = wanted)).length) := by
        apply List.map_congr_left
        intro wanted hwanted
        rw [List.filter_filter]
        congr 2
        funext item
        by_cases heq : key item = wanted
        · have hne : wanted ≠ first := by
            rintro rfl
            exact hfirst hwanted
          simp [heq, hne]
        · simp [heq]
      rw [List.map_cons, List.sum_cons, hothers]
      calc _ ≤ (items.filter (key · = first)).length +
            (items.filter (fun item => !decide (key item = first))).length :=
              Nat.add_le_add_left (ih _ hrest) _
        _ = items.length := (List.length_eq_length_filter_add _).symm

theorem Plan.length_of_resolveEdges {plan : Plan} {seen : List String} {edges : List EdgeSpec}
    {arcs : List Arc} (h : plan.resolveEdges seen edges = .ok arcs) : arcs.length = edges.length := by
  induction edges generalizing seen arcs with
  | nil =>
      cases h
      rfl
  | cons edge rest ih =>
      obtain ⟨first, later, -, hlater, rfl⟩ := resolveEdges_cons h
      rw [List.length_cons, List.length_cons, ih hlater]

namespace Graph

theorem length_targets_assemble_le (plan : Plan) (arcs : List Arc) (order : List VertexId)
    (vertex : VertexId) :
    ((assemble plan arcs order).targets vertex).length ≤
      (arcs.filter (·.source = vertex)).length := by
  rw [targets]
  by_cases hindex : vertex.index < plan.vertices.length
  · obtain ⟨node, hnode, -, htargets⟩ := node?_assemble arcs order hindex
    rw [hnode, Option.elim_some, htargets]
    calc _ ≤ (Arc.targetsOf arcs vertex).length := length_eraseDups_le _
      _ = (arcs.filter (·.source = vertex)).length := List.length_map _
  · rw [node?_assemble_eq_none arcs order hindex]
    exact Nat.zero_le _

/-- All vertices together have no more targets than the plan has edges. -/
theorem sum_length_targets_le {plan : Plan} {graph : Graph} (hgraph : ofPlan plan = .ok graph) :
    (graph.vertexIds.map (fun vertex => (graph.targets vertex).length)).sum ≤ plan.edges.length := by
  obtain ⟨arcs, order, harcs, -, rfl⟩ := ofPlan_ok hgraph
  have hids : (assemble plan arcs order).vertexIds = plan.vertexIds := by
    rw [vertexIds, size_assemble]
    rfl
  rw [hids]
  calc _ ≤ (plan.vertexIds.map (fun vertex => (arcs.filter (·.source = vertex)).length)).sum :=
        List.sum_le_sum (fun vertex _ => length_targets_assemble_le plan arcs order vertex)
    _ ≤ arcs.length := sum_length_filter_le Arc.source arcs Plan.nodup_vertexIds
    _ = plan.edges.length := Plan.length_of_resolveEdges (Plan.arcs_ok harcs).2

end Graph

end JobFlow
