import JobFlow.Proofs.Graph.Finishing
import JobFlow.Proofs.Graph.Soundness
import JobFlow.Proofs.Run

/-!
Which plans describe a job. Main statement: a graph is built of the well-formed plans and of no others,
and lists their vertices once each and every source before its targets.
-/

namespace JobFlow

namespace Plan

/-- Some edge leads from a vertex of one name to a vertex of another. -/
def Leads (plan : Plan) (source target : String) : Prop :=
  ∃ edge ∈ plan.edges, edge.source = source ∧ edge.destination = target

/-- There is a vertex, names and edges are told apart, each edge has two ends and no edges form a cycle. -/
structure WellFormed (plan : Plan) : Prop where
  nonempty : plan.vertices ≠ []
  names : (plan.vertices.map (·.name)).Nodup
  edges : (plan.edges.map (·.id)).Nodup
  known : ∀ edge ∈ plan.edges, edge.source ∈ plan.vertices.map (·.name) ∧
    edge.destination ∈ plan.vertices.map (·.name)
  acyclic : ∀ name, ¬ Relation.TransGen plan.Leads name name

/-- The name of a vertex by its number. -/
def nameAt (plan : Plan) (vertex : VertexId) : String := (plan.vertices[vertex.index]?).elim "" (·.name)

variable {plan : Plan}

/-! ### Names -/

theorem repeatedName?_eq_none_iff {seen : List String} {vertices : List VertexSpec} :
    repeatedName? seen vertices = none ↔
      (vertices.map (·.name)).Nodup ∧ ∀ vertex ∈ vertices, vertex.name ∉ seen := by
  induction vertices generalizing seen with
  | nil => simp [repeatedName?]
  | cons vertex rest ih =>
      rw [repeatedName?]
      by_cases hseen : vertex.name ∈ seen
      · simp [hseen]
      · rw [if_neg hseen, ih, List.map_cons, List.nodup_cons, List.forall_mem_cons]
        constructor
        · rintro ⟨hnodup, hfresh⟩
          refine ⟨⟨?_, hnodup⟩, hseen, fun other hother hmem => ?_⟩
          · intro hmem
            obtain ⟨other, hother, heq⟩ := List.mem_map.mp hmem
            exact hfresh other hother (heq ▸ List.mem_cons_self)
          · exact hfresh other hother (List.mem_cons_of_mem _ hmem)
        · rintro ⟨⟨hfirst, hnodup⟩, -, hfresh⟩
          refine ⟨hnodup, fun other hother hmem => ?_⟩
          rcases List.mem_cons.mp hmem with heq | hmem
          · exact hfirst (List.mem_map.mpr ⟨other, hother, heq⟩)
          · exact hfresh other hother hmem

theorem exists_vertexId?_iff {name : String} :
    (∃ vertex, plan.vertexId? name = some vertex) ↔ name ∈ plan.vertices.map (·.name) := by
  rw [← Option.isSome_iff_exists, vertexId?, Option.isSome_map, List.findIdx?_isSome, List.any_eq_true,
    List.mem_map]
  simp

/-- The vertex found under a name has that name. -/
theorem nameAt_of_vertexId? {name : String} {vertex : VertexId} (h : plan.vertexId? name = some vertex) :
    plan.nameAt vertex = name := by
  rw [vertexId?, Option.map_eq_some_iff] at h
  obtain ⟨index, hindex, rfl⟩ := h
  obtain ⟨hlt, hname, -⟩ := List.findIdx?_eq_some_iff_getElem.mp hindex
  rw [nameAt, List.getElem?_eq_getElem hlt, Option.elim_some]
  exact of_decide_eq_true hname

/-! ### Edges -/

theorem resolveEdge_ok_iff {seen : List String} {edge : EdgeSpec} {arc : Arc} :
    plan.resolveEdge seen edge = .ok arc ↔ edge.id ∉ seen ∧ plan.vertexId? edge.source = some arc.source ∧
      plan.vertexId? edge.destination = some arc.target ∧ arc.source ≠ arc.target := by
  constructor
  · intro h
    refine ⟨fun hseen => ?_, resolveEdge_ok h⟩
    rw [resolveEdge, if_pos hseen] at h
    cases h
  · rintro ⟨hseen, hsource, htarget, hne⟩
    simp only [resolveEdge, if_neg hseen, hsource, htarget, if_neg hne]

/-- Edges are resolved if they are told apart and each leads from one vertex to another. -/
theorem exists_resolveEdges_iff {seen : List String} {edges : List EdgeSpec} :
    (∃ arcs, plan.resolveEdges seen edges = .ok arcs) ↔
      (edges.map (·.id)).Nodup ∧ ∀ edge ∈ edges, edge.id ∉ seen ∧ ∃ source target,
        plan.vertexId? edge.source = some source ∧ plan.vertexId? edge.destination = some target ∧
          source ≠ target := by
  induction edges generalizing seen with
  | nil => simp [resolveEdges]
  | cons edge rest ih =>
      rw [List.map_cons, List.nodup_cons, List.forall_mem_cons]
      constructor
      · rintro ⟨arcs, harcs⟩
        obtain ⟨first, later, hfirst, hlater, -⟩ := resolveEdges_cons harcs
        obtain ⟨hnodup, hrest⟩ := ih.mp ⟨later, hlater⟩
        obtain ⟨hseen, hends⟩ := resolveEdge_ok_iff.mp hfirst
        refine ⟨⟨fun hmem => ?_, hnodup⟩, ⟨hseen, first.source, first.target, hends⟩,
          fun other hother => ?_⟩
        · obtain ⟨other, hother, heq⟩ := List.mem_map.mp hmem
          exact (hrest other hother).1 (heq ▸ List.mem_cons_self)
        · obtain ⟨hfresh, hends⟩ := hrest other hother
          exact ⟨fun hmem => hfresh (List.mem_cons_of_mem _ hmem), hends⟩
      · rintro ⟨⟨hunique, hnodup⟩, ⟨hseen, source, target, hends⟩, hrest⟩
        have hfirst : plan.resolveEdge seen edge = .ok ⟨source, target⟩ := resolveEdge_ok_iff.mpr ⟨hseen, hends⟩
        have hfresh : ∀ other ∈ rest, other.id ∉ edge.id :: seen := by
          intro other hother hmem
          rcases List.mem_cons.mp hmem with heq | hmem
          · exact hunique (List.mem_map.mpr ⟨other, hother, heq⟩)
          · exact (hrest other hother).1 hmem
        obtain ⟨later, hlater⟩ :=
          ih.mpr ⟨hnodup, fun other hother => ⟨hfresh other hother, (hrest other hother).2⟩⟩
        refine ⟨⟨source, target⟩ :: later, ?_⟩
        rw [resolveEdges, hfirst, hlater]
        rfl

theorem arcs_ok_iff {arcs : List Arc} : plan.arcs = .ok arcs ↔ plan.vertices ≠ [] ∧
    (plan.vertices.map (·.name)).Nodup ∧ plan.resolveEdges [] plan.edges = .ok arcs := by
  have hnames : repeatedName? [] plan.vertices = none ↔ (plan.vertices.map (·.name)).Nodup := by
    rw [repeatedName?_eq_none_iff]
    simp
  rw [Plan.arcs, ← hnames]
  by_cases hempty : plan.vertices = []
  · simp [hempty]
  · cases hrepeated : repeatedName? [] plan.vertices <;> simp [hempty]

/-- An arc of the plan leads from name to name. -/
theorem leads_of_mem_arcs {arcs : List Arc} (harcs : plan.arcs = .ok arcs) {source target : VertexId}
    (harc : ⟨source, target⟩ ∈ arcs) : plan.Leads (plan.nameAt source) (plan.nameAt target) := by
  obtain ⟨edge, hedge, hsource, htarget⟩ := (mem_of_resolveEdges (arcs_ok harcs).2).mp harc
  exact ⟨edge, hedge, (nameAt_of_vertexId? hsource).symm, (nameAt_of_vertexId? htarget).symm⟩

/-- A well-formed plan has arcs. -/
theorem WellFormed.exists_arcs (h : plan.WellFormed) : ∃ arcs, plan.arcs = .ok arcs := by
  have hends : ∀ edge ∈ plan.edges, edge.id ∉ [] ∧ ∃ source target,
      plan.vertexId? edge.source = some source ∧ plan.vertexId? edge.destination = some target ∧
        source ≠ target := by
    intro edge hedge
    obtain ⟨hsource, htarget⟩ := h.known edge hedge
    obtain ⟨source, hsource⟩ := exists_vertexId?_iff.mpr hsource
    obtain ⟨target, htarget⟩ := exists_vertexId?_iff.mpr htarget
    refine ⟨List.not_mem_nil, source, target, hsource, htarget, fun heq => ?_⟩
    -- An edge from a vertex to itself is a cycle of one edge.
    refine h.acyclic edge.source (.single ⟨edge, hedge, rfl, ?_⟩)
    rw [← nameAt_of_vertexId? hsource, ← nameAt_of_vertexId? htarget, heq]
  obtain ⟨arcs, harcs⟩ := exists_resolveEdges_iff.mpr ⟨h.edges, hends⟩
  exact ⟨arcs, arcs_ok_iff.mpr ⟨h.nonempty, h.names, harcs⟩⟩

end Plan

namespace Arc

open Search

variable {plan : Plan} {arcs : List Arc} (harcs : plan.arcs = .ok arcs)

include harcs

theorem targets_closed : ∀ vertex ∈ plan.vertexIds, ∀ target ∈ (targetsOf arcs vertex).reverse,
    target ∈ plan.vertexIds := by
  intro vertex _ target htarget
  rw [List.mem_reverse, mem_targetsOf] at htarget
  exact ((Plan.joins_of_arcs harcs).2 _ htarget).2.1

theorem order_perm {order : List VertexId} (horder : Arc.order arcs plan.vertexIds = .ok order) :
    order.Perm plan.vertexIds :=
  perm_of_topologicalOrder Plan.nodup_vertexIds (targets_closed harcs) horder

/-- The vertex for which no order is found lies on a cycle. -/
theorem cycle_of_order {vertex : VertexId} (hrefused : Arc.order arcs plan.vertexIds = .error vertex) :
    Relation.TransGen plan.Leads (plan.nameAt vertex) (plan.nameAt vertex) := by
  have hleads : ∀ source target, target ∈ (targetsOf arcs source).reverse →
      plan.Leads (plan.nameAt source) (plan.nameAt target) := by
    intro source target htarget
    rw [List.mem_reverse, mem_targetsOf] at htarget
    exact Plan.leads_of_mem_arcs harcs htarget
  have hreverse : ∀ source target, source ∈ (sourcesOf arcs target).reverse →
      target ∈ (targetsOf arcs source).reverse := by
    intro source target hsource
    rw [List.mem_reverse, mem_sourcesOf] at hsource
    rw [List.mem_reverse, mem_targetsOf]
    exact hsource
  obtain ⟨-, other, -, hother, hreaches⟩ :=
    cycle_of_topologicalOrder Plan.nodup_vertexIds (targets_closed harcs) hreverse hrefused
  exact .head' (hleads _ _ hother) (hreaches.lift plan.nameAt hleads)

end Arc

namespace Graph

variable {plan : Plan} {graph : Graph} (hgraph : ofPlan plan = .ok graph)

include hgraph

theorem vertexId?_ofPlan (name : String) : graph.vertexId? name = plan.vertexId? name := by
  obtain ⟨arcs, order, -, -, rfl⟩ := ofPlan_ok hgraph
  have hnames : (assemble plan arcs order).nodes.map (·.name) = plan.vertices.map (·.name) := by
    have hzip : (plan.vertices.zip plan.vertexIds).map Prod.fst = plan.vertices :=
      List.map_fst_zip (by simp [Plan.vertexIds])
    calc (assemble plan arcs order).nodes.map (·.name)
        = ((plan.vertices.zip plan.vertexIds).map Prod.fst).map (·.name) := by
          simp only [assemble, List.map_map]
          rfl
      _ = plan.vertices.map (·.name) := by rw [hzip]
  calc (assemble plan arcs order).vertexId? name
      = (((assemble plan arcs order).nodes.map (·.name)).findIdx? (· = name)).map (⟨·⟩) := by
        rw [vertexId?, List.findIdx?_map]
        rfl
    _ = ((plan.vertices.map (·.name)).findIdx? (· = name)).map (⟨·⟩) := by rw [hnames]
    _ = plan.vertexId? name := by
        rw [Plan.vertexId?, List.findIdx?_map]
        rfl

/-- In the order of a graph the source of every edge stands before its destination. -/
theorem idxOf_lt_of_edge {edge : EdgeSpec} (hedge : edge ∈ plan.edges) : ∃ source target,
    plan.vertexId? edge.source = some source ∧ plan.vertexId? edge.destination = some target ∧
      graph.order.idxOf source < graph.order.idxOf target := by
  obtain ⟨arcs, order, harcs, horder, rfl⟩ := ofPlan_ok hgraph
  obtain ⟨-, hends⟩ := Plan.exists_resolveEdges_iff.mp ⟨arcs, (Plan.arcs_ok harcs).2⟩
  obtain ⟨-, source, target, hsource, htarget, hne⟩ := hends edge hedge
  refine ⟨source, target, hsource, htarget, ?_⟩
  apply Search.idxOf_lt_of_topologicalOrder Plan.nodup_vertexIds horder
    (Plan.mem_vertexIds_of_vertexId? htarget) (Plan.mem_vertexIds_of_vertexId? hsource) ?_ hne
  rw [List.mem_reverse, Arc.mem_sourcesOf]
  exact (Plan.mem_of_resolveEdges (Plan.arcs_ok harcs).2).mpr ⟨edge, hedge, hsource, htarget⟩

/-- A path of edges leads to a vertex that stands later in the order. -/
theorem idxOf_lt_of_leads {source target : String} (hpath : Relation.TransGen plan.Leads source target) :
    ∃ first last, plan.vertexId? source = some first ∧ plan.vertexId? target = some last ∧
      graph.order.idxOf first < graph.order.idxOf last := by
  induction hpath with
  | single hlead =>
      obtain ⟨edge, hedge, rfl, rfl⟩ := hlead
      exact idxOf_lt_of_edge hgraph hedge
  | tail _ hlead ih =>
      obtain ⟨edge, hedge, rfl, rfl⟩ := hlead
      obtain ⟨first, middle, hfirst, hmiddle, hbefore⟩ := ih
      obtain ⟨source, last, hsource, hlast, hafter⟩ := idxOf_lt_of_edge hgraph hedge
      cases hmiddle.symm.trans hsource
      exact ⟨first, last, hfirst, hlast, Nat.lt_trans hbefore hafter⟩

/-- A plan of which a graph is built is well-formed. -/
theorem wellFormed_of_ofPlan : plan.WellFormed := by
  obtain ⟨arcs, order, harcs, -, -⟩ := ofPlan_ok hgraph
  obtain ⟨hnonempty, hnames, hresolved⟩ := Plan.arcs_ok_iff.mp harcs
  obtain ⟨hedges, hends⟩ := Plan.exists_resolveEdges_iff.mp ⟨arcs, hresolved⟩
  refine ⟨hnonempty, hnames, hedges, fun edge hedge => ?_, fun name hcycle => ?_⟩
  · obtain ⟨-, source, target, hsource, htarget, -⟩ := hends edge hedge
    exact ⟨Plan.exists_vertexId?_iff.mp ⟨source, hsource⟩, Plan.exists_vertexId?_iff.mp ⟨target, htarget⟩⟩
  · obtain ⟨first, last, hfirst, hlast, hlt⟩ := idxOf_lt_of_leads hgraph hcycle
    cases hfirst.symm.trans hlast
    exact Nat.lt_irrefl _ hlt

theorem order_perm_ofPlan : graph.order.Perm graph.vertexIds := by
  obtain ⟨arcs, order, harcs, horder, rfl⟩ := ofPlan_ok hgraph
  rw [vertexIds, size_assemble]
  exact Arc.order_perm harcs horder

end Graph

namespace Graph

/-- A graph is built of every well-formed plan: an order that is refused would show a cycle. -/
theorem exists_ofPlan {plan : Plan} (hplan : plan.WellFormed) : ∃ graph, ofPlan plan = .ok graph := by
  obtain ⟨arcs, harcs⟩ := hplan.exists_arcs
  cases horder : Arc.order arcs plan.vertexIds with
  | error vertex => exact absurd (Arc.cycle_of_order harcs horder) (hplan.acyclic _)
  | ok order =>
      refine ⟨assemble plan arcs order, ?_⟩
      simp only [ofPlan, harcs, horder, bind, Except.bind, pure, Except.pure]

/-- A graph is built of exactly the plans that describe a job. It lists the vertices once each, and every
source before its targets. Whatever is refused is refused as a malformed plan. -/
theorem accepts_well_formed (plan : Plan) :
    ((∃ graph, ofPlan plan = .ok graph) ↔ plan.WellFormed) ∧
    (∀ graph, ofPlan plan = .ok graph → graph.order.Perm graph.vertexIds ∧
      ∀ edge ∈ plan.edges, ∃ source target, graph.vertexId? edge.source = some source ∧
        graph.vertexId? edge.destination = some target ∧
        graph.order.idxOf source < graph.order.idxOf target) ∧
    ∀ defect, ofPlan plan = .error defect → defect.error.isMalformedPlan = true := by
  refine ⟨⟨fun ⟨graph, hgraph⟩ => wellFormed_of_ofPlan hgraph, exists_ofPlan⟩, ?_, ?_⟩
  · intro graph hgraph
    refine ⟨order_perm_ofPlan hgraph, fun edge hedge => ?_⟩
    simp only [vertexId?_ofPlan hgraph]
    exact idxOf_lt_of_edge hgraph hedge
  · exact fun defect _ => defect.isMalformedPlan_error

/-- A chain of two vertices is well-formed, and the edge between them is kept in the order. -/
theorem accepts_well_formed_line : (Plan.chain 2 1).WellFormed ∧
    Coordinator.lineGraph.order.Perm Coordinator.lineGraph.vertexIds ∧
    ∃ source target, Coordinator.lineGraph.vertexId? "v0" = some source ∧
      Coordinator.lineGraph.vertexId? "v1" = some target ∧
      Coordinator.lineGraph.order.idxOf source < Coordinator.lineGraph.order.idxOf target := by
  obtain ⟨hiff, hbuilt, -⟩ := accepts_well_formed (.chain 2 1)
  obtain ⟨hperm, hedges⟩ := hbuilt Coordinator.lineGraph Coordinator.ofPlan_line
  exact ⟨hiff.mp ⟨_, Coordinator.ofPlan_line⟩, hperm,
    hedges ⟨"e1", "v0", "v1", .bipartite, .stable⟩ (by decide)⟩

end Graph

end JobFlow
