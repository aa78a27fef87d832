import JobFlow.Graph
import JobFlow.Proofs.Graph.Search

/-!
The graph of a plan. It has a node for each vertex and at least one, each edge is known at both of its
ends, and the vertices can be ranked so that every source comes before its targets.
-/

namespace JobFlow

/-- What the rest of the job relies on about its graph. -/
structure Graph.Sound (graph : Graph) : Prop where
  nonempty : graph.nodes ≠ []
  linked : ∀ source target, source ∈ graph.sources target ↔ target ∈ graph.targets source
  source_lt : ∀ source target, source ∈ graph.sources target → source.index < graph.size
  target_lt : ∀ source target, source ∈ graph.sources target → target.index < graph.size
  acyclic : ∃ rank : VertexId → Nat, ∀ source target,
    source ∈ graph.sources target → rank source < rank target

theorem nodup_eraseDups {α : Type} [BEq α] [LawfulBEq α] (items : List α) : items.eraseDups.Nodup := by
  match items with
  | [] => exact List.nodup_nil
  | first :: rest =>
      rw [List.eraseDups_cons, List.nodup_cons, List.mem_eraseDups, List.mem_filter]
      have hlength := List.length_filter_le (fun other => !other == first) rest
      refine ⟨?_, nodup_eraseDups (rest.filter (fun other => !other == first))⟩
      rintro ⟨-, hother⟩
      simp at hother
termination_by items.length

namespace Plan

variable {plan : Plan}

theorem mem_vertexIds {vertex : VertexId} :
    vertex ∈ plan.vertexIds ↔ vertex.index < plan.vertices.length := by
  rw [vertexIds, List.mem_map]
  constructor
  · rintro ⟨index, hindex, rfl⟩
    exact List.mem_range.mp hindex
  · intro hindex
    exact ⟨vertex.index, List.mem_range.mpr hindex, rfl⟩

theorem nodup_vertexIds : plan.vertexIds.Nodup := by
  refine List.Pairwise.map (R := (· ≠ ·)) _ ?_ List.nodup_range
  intro index other hne heq
  exact hne (congrArg VertexId.index heq)

theorem mem_vertexIds_of_vertexId? {name : String} {vertex : VertexId}
    (h : plan.vertexId? name = some vertex) : vertex ∈ plan.vertexIds := by
  unfold vertexId? at h
  rw [Option.map_eq_some_iff] at h
  obtain ⟨index, hindex, rfl⟩ := h
  exact mem_vertexIds.mpr (List.findIdx?_eq_some_iff_getElem.mp hindex).1

/-- An arc between two different vertices of the plan. -/
def Joins (plan : Plan) (arc : Arc) : Prop :=
  arc.source ∈ plan.vertexIds ∧ arc.target ∈ plan.vertexIds ∧ arc.source ≠ arc.target

/-- An edge of the plan leads from one vertex to another. -/
def Links (plan : Plan) (source target : VertexId) : Prop :=
  ∃ edge ∈ plan.edges, plan.vertexId? edge.source = some source ∧
    plan.vertexId? edge.destination = some target

theorem resolveEdge_ok {seen : List String} {edge : EdgeSpec} {arc : Arc}
    (h : plan.resolveEdge seen edge = .ok arc) :
    plan.vertexId? edge.source = some arc.source ∧
      plan.vertexId? edge.destination = some arc.target ∧ arc.source ≠ arc.target := by
  unfold resolveEdge at h
  split at h
  next => cases h
  next =>
    split at h
    next => cases h
    next => cases h
    next source target hsource htarget =>
      split at h
      next => cases h
      next hne =>
        cases h
        exact ⟨hsource, htarget, hne⟩

theorem joins_of_resolveEdge {seen : List String} {edge : EdgeSpec} {arc : Arc}
    (h : plan.resolveEdge seen edge = .ok arc) : plan.Joins arc := by
  obtain ⟨hsource, htarget, hne⟩ := resolveEdge_ok h
  exact ⟨mem_vertexIds_of_vertexId? hsource, mem_vertexIds_of_vertexId? htarget, hne⟩

theorem resolveEdges_cons {seen : List String} {edge : EdgeSpec} {rest : List EdgeSpec}
    {arcs : List Arc} (h : plan.resolveEdges seen (edge :: rest) = .ok arcs) :
    ∃ first later, plan.resolveEdge seen edge = .ok first ∧
      plan.resolveEdges (edge.id :: seen) rest = .ok later ∧ arcs = first :: later := by
  rw [resolveEdges] at h
  cases hfirst : plan.resolveEdge seen edge with
  | error defect => simp [hfirst, bind, Except.bind] at h
  | ok first =>
      cases hlater : plan.resolveEdges (edge.id :: seen) rest with
      | error defect => simp [hfirst, hlater, bind, Except.bind] at h
      | ok later =>
          simp only [hfirst, hlater, bind, Except.bind, pure, Except.pure, Except.ok.injEq] at h
          exact ⟨first, later, rfl, rfl, h.symm⟩

theorem joins_of_resolveEdges {seen : List String} {edges : List EdgeSpec} {arcs : List Arc}
    (h : plan.resolveEdges seen edges = .ok arcs) : ∀ arc ∈ arcs, plan.Joins arc := by
  induction edges generalizing seen arcs with
  | nil =>
      cases h
      simp
  | cons edge rest ih =>
      obtain ⟨first, later, hfirst, hlater, rfl⟩ := resolveEdges_cons h
      intro arc harc
      rcases List.mem_cons.mp harc with rfl | harc
      · exact joins_of_resolveEdge hfirst
      · exact ih hlater arc harc

/-- There is an arc for each edge, and no other. -/
theorem mem_of_resolveEdges {seen : List String} {edges : List EdgeSpec} {arcs : List Arc}
    (h : plan.resolveEdges seen edges = .ok arcs) {source target : VertexId} :
    ⟨source, target⟩ ∈ arcs ↔ ∃ edge ∈ edges, plan.vertexId? edge.source = some source ∧
      plan.vertexId? edge.destination = some target := by
  induction edges generalizing seen arcs with
  | nil =>
      cases h
      simp
  | cons edge rest ih =>
      obtain ⟨first, later, hfirst, hlater, rfl⟩ := resolveEdges_cons h
      obtain ⟨hsource, htarget, -⟩ := resolveEdge_ok hfirst
      rw [List.mem_cons, ih hlater]
      constructor
      · rintro (heq | ⟨other, hother, hends⟩)
        · subst heq
          exact ⟨edge, List.mem_cons_self, hsource, htarget⟩
        · exact ⟨other, List.mem_cons_of_mem _ hother, hends⟩
      · rintro ⟨other, hother, hends⟩
        rcases List.mem_cons.mp hother with rfl | hother
        · left
          rw [hsource, htarget] at hends
          cases first
          cases hends.1
          cases hends.2
          rfl
        · exact Or.inr ⟨other, hother, hends⟩

theorem arcs_ok {arcs : List Arc} (h : plan.arcs = .ok arcs) :
    plan.vertices ≠ [] ∧ plan.resolveEdges [] plan.edges = .ok arcs := by
  unfold Plan.arcs at h
  split at h
  next => cases h
  next hempty =>
    split at h
    next => cases h
    next => exact ⟨by simpa using hempty, h⟩

theorem joins_of_arcs {arcs : List Arc} (h : plan.arcs = .ok arcs) :
    plan.vertices ≠ [] ∧ ∀ arc ∈ arcs, plan.Joins arc :=
  ⟨(arcs_ok h).1, joins_of_resolveEdges (arcs_ok h).2⟩

end Plan

theorem Arc.mem_sourcesOf {arcs : List Arc} {source target : VertexId} :
    source ∈ sourcesOf arcs target ↔ ⟨source, target⟩ ∈ arcs := by
  rw [sourcesOf, List.mem_map]
  constructor
  · rintro ⟨arc, harc, rfl⟩
    rw [List.mem_filter, decide_eq_true_iff] at harc
    rw [← harc.2]
    exact harc.1
  · intro harc
    refine ⟨⟨source, target⟩, ?_, rfl⟩
    rw [List.mem_filter, decide_eq_true_iff]
    exact ⟨harc, rfl⟩

theorem Arc.mem_targetsOf {arcs : List Arc} {source target : VertexId} :
    target ∈ targetsOf arcs source ↔ ⟨source, target⟩ ∈ arcs := by
  rw [targetsOf, List.mem_map]
  constructor
  · rintro ⟨arc, harc, rfl⟩
    rw [List.mem_filter, decide_eq_true_iff] at harc
    rw [← harc.2]
    exact harc.1
  · intro harc
    refine ⟨⟨source, target⟩, ?_, rfl⟩
    rw [List.mem_filter, decide_eq_true_iff]
    exact ⟨harc, rfl⟩

namespace Graph

variable {plan : Plan}

theorem size_assemble (plan : Plan) (arcs : List Arc) (order : List VertexId) :
    (assemble plan arcs order).size = plan.vertices.length := by
  rw [size, assemble]
  simp [Plan.vertexIds]

/-- The node of a vertex, from what the plan says of it. -/
theorem node?_assemble_eq (arcs : List Arc) (order : List VertexId) (vertex : VertexId) :
    (assemble plan arcs order).node? vertex = (plan.vertices[vertex.index]?).map fun spec =>
      { name := spec.name
        sources := (Arc.sourcesOf arcs vertex).eraseDups
        targets := (Arc.targetsOf arcs vertex).eraseDups
        depth := (depths (fun vertex => (Arc.sourcesOf arcs vertex).eraseDups) plan.vertices.length
          order).getD vertex.index 0 } := by
  rw [node?, assemble, Plan.vertexIds]
  by_cases hindex : vertex.index < plan.vertices.length <;> simp [hindex]

/-- The neighbours of a vertex of the plan are those that its arcs lead to. -/
theorem node?_assemble (arcs : List Arc) (order : List VertexId) {vertex : VertexId}
    (hindex : vertex.index < plan.vertices.length) :
    ∃ node, (assemble plan arcs order).node? vertex = some node ∧
      node.sources = (Arc.sourcesOf arcs vertex).eraseDups ∧
      node.targets = (Arc.targetsOf arcs vertex).eraseDups := by
  rw [node?_assemble_eq, List.getElem?_eq_getElem hindex]
  exact ⟨_, rfl, rfl, rfl⟩

theorem node?_assemble_eq_none (arcs : List Arc) (order : List VertexId) {vertex : VertexId}
    (hindex : ¬ vertex.index < plan.vertices.length) :
    (assemble plan arcs order).node? vertex = none := by
  rw [node?_assemble_eq, List.getElem?_eq_none_iff.mpr (Nat.not_lt.mp hindex)]
  rfl

variable {arcs : List Arc} (hjoins : ∀ arc ∈ arcs, plan.Joins arc) (order : List VertexId)

include hjoins

theorem mem_sources_assemble {source target : VertexId} :
    source ∈ (assemble plan arcs order).sources target ↔ ⟨source, target⟩ ∈ arcs := by
  rw [sources]
  by_cases hindex : target.index < plan.vertices.length
  · obtain ⟨node, hnode, hsources, -⟩ := node?_assemble arcs order hindex
    rw [hnode, Option.elim_some, hsources, List.mem_eraseDups, Arc.mem_sourcesOf]
  · rw [node?_assemble_eq_none arcs order hindex, Option.elim_none]
    constructor
    · intro h
      cases h
    · intro harc
      exact absurd (Plan.mem_vertexIds.mp (hjoins _ harc).2.1) hindex

theorem mem_targets_assemble {source target : VertexId} :
    target ∈ (assemble plan arcs order).targets source ↔ ⟨source, target⟩ ∈ arcs := by
  rw [targets]
  by_cases hindex : source.index < plan.vertices.length
  · obtain ⟨node, hnode, -, htargets⟩ := node?_assemble arcs order hindex
    rw [hnode, Option.elim_some, htargets, List.mem_eraseDups, Arc.mem_targetsOf]
  · rw [node?_assemble_eq_none arcs order hindex, Option.elim_none]
    constructor
    · intro h
      cases h
    · intro harc
      exact absurd (Plan.mem_vertexIds.mp (hjoins _ harc).1) hindex

end Graph

namespace Graph

variable {plan : Plan} {graph : Graph} (hgraph : ofPlan plan = .ok graph)

include hgraph

/-- A graph that was built is assembled from the arcs of its plan. -/
theorem ofPlan_ok : ∃ arcs order, plan.arcs = .ok arcs ∧ Arc.order arcs plan.vertexIds = .ok order ∧
    graph = assemble plan arcs order := by
  unfold ofPlan at hgraph
  cases harcs : plan.arcs with
  | error defect => simp [harcs, bind, Except.bind] at hgraph
  | ok arcs =>
      simp only [harcs, bind, Except.bind] at hgraph
      cases horder : Arc.order arcs plan.vertexIds with
      | error vertex => simp [horder, throw, throwThe, MonadExceptOf.throw] at hgraph
      | ok order =>
          simp only [horder, pure, Except.pure, Except.ok.injEq] at hgraph
          exact ⟨arcs, order, rfl, horder, hgraph.symm⟩

/-- The sources of a vertex are those from which an edge of the plan leads to it. -/
theorem mem_sources_ofPlan {source target : VertexId} :
    source ∈ graph.sources target ↔ plan.Links source target := by
  obtain ⟨arcs, order, harcs, -, rfl⟩ := ofPlan_ok hgraph
  rw [mem_sources_assemble (Plan.joins_of_arcs harcs).2 order]
  exact Plan.mem_of_resolveEdges (Plan.arcs_ok harcs).2

theorem nodup_targets_ofPlan (vertex : VertexId) : (graph.targets vertex).Nodup := by
  obtain ⟨arcs, order, -, -, rfl⟩ := ofPlan_ok hgraph
  rw [targets]
  by_cases hindex : vertex.index < plan.vertices.length
  · obtain ⟨node, hnode, -, htargets⟩ := node?_assemble arcs order hindex
    rw [hnode, Option.elim_some, htargets]
    exact nodup_eraseDups _
  · rw [node?_assemble_eq_none arcs order hindex, Option.elim_none]
    exact List.nodup_nil

/-- The graph of a plan is sound. -/
theorem sound_ofPlan : graph.Sound ∧ graph.size = plan.vertices.length := by
  obtain ⟨arcs, order, harcs, horder, rfl⟩ := ofPlan_ok hgraph
  obtain ⟨hvertices, hjoins⟩ := Plan.joins_of_arcs harcs
  have hsize := size_assemble plan arcs order
  refine ⟨?_, hsize⟩
  constructor
  · intro hnil
    unfold size at hsize
    rw [hnil] at hsize
    exact hvertices (List.length_eq_zero_iff.mp hsize.symm)
  · intro source target
    rw [mem_sources_assemble hjoins order, mem_targets_assemble hjoins order]
  · intro source target hsource
    rw [mem_sources_assemble hjoins order] at hsource
    rw [hsize]
    exact Plan.mem_vertexIds.mp (hjoins _ hsource).1
  · intro source target hsource
    rw [mem_sources_assemble hjoins order] at hsource
    rw [hsize]
    exact Plan.mem_vertexIds.mp (hjoins _ hsource).2.1
  · refine ⟨order.idxOf, fun source target hsource => ?_⟩
    rw [mem_sources_assemble hjoins order] at hsource
    obtain ⟨hsourceId, htargetId, hne⟩ := hjoins _ hsource
    apply Search.idxOf_lt_of_topologicalOrder Plan.nodup_vertexIds horder htargetId hsourceId ?_ hne
    rw [List.mem_reverse, Arc.mem_sourcesOf]
    exact hsource

end Graph

end JobFlow
