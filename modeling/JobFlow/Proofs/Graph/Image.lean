import JobFlow.Proofs.Graph.Acceptance

/-!
The graph of a plan is its image. Names and numbers translate into each other, and the two lists of
neighbours, which are what one gets by entering the edges one after the other with a look at the targets
only, say the same of every edge. Main statement: what a graph says of its vertices, of their neighbours and
of the order of these is what the plan says.
-/

namespace JobFlow

/-! ### Names -/

namespace Plan

variable {plan : Plan}

/-- A name leads to the vertex that bears it. -/
theorem vertexId?_eq_some_iff (hnames : (plan.vertices.map (·.name)).Nodup) {name : String}
    {vertex : VertexId} : plan.vertexId? name = some vertex ↔
      (plan.vertices[vertex.index]?).map (·.name) = some name := by
  rw [vertexId?, Option.map_eq_some_iff]
  constructor
  · rintro ⟨index, hindex, rfl⟩
    obtain ⟨hlt, hname, -⟩ := List.findIdx?_eq_some_iff_getElem.mp hindex
    rw [List.getElem?_eq_getElem hlt, Option.map_some]
    exact congrArg some (of_decide_eq_true hname)
  · intro hname
    obtain ⟨spec, hspec, rfl⟩ := Option.map_eq_some_iff.mp hname
    obtain ⟨hlt, rfl⟩ := List.getElem?_eq_some_iff.mp hspec
    refine ⟨vertex.index, List.findIdx?_eq_some_iff_getElem.mpr ⟨hlt, by simp, ?_⟩, rfl⟩
    intro earlier hearlier hsame
    have hne := List.pairwise_iff_getElem.mp hnames earlier vertex.index
      (by simpa using Nat.lt_trans hearlier hlt) (by simpa using hlt) hearlier
    simp only [List.getElem_map] at hne
    exact hne (of_decide_eq_true hsame)

theorem vertex?_eq (plan : Plan) (name : String) : plan.vertex? name =
    (plan.vertexId? name).bind (fun vertex => plan.vertices[vertex.index]?) := by
  rw [vertex?, vertexId?, List.find?_eq_bind_findIdx?_getElem?, Option.bind_map]
  rfl

/-- Each edge is resolved to an arc between its ends. -/
theorem map_ends_of_resolveEdges {seen : List String} {edges : List EdgeSpec} {arcs : List Arc}
    (h : plan.resolveEdges seen edges = .ok arcs) :
    edges.map (fun edge => (plan.vertexId? edge.source, plan.vertexId? edge.destination)) =
      arcs.map (fun arc => (some arc.source, some arc.target)) := by
  induction edges generalizing seen arcs with
  | nil =>
      cases h
      rfl
  | cons edge rest ih =>
      obtain ⟨first, later, hfirst, hlater, rfl⟩ := resolveEdges_cons h
      obtain ⟨hsource, htarget, -⟩ := resolveEdge_ok hfirst
      rw [List.map_cons, List.map_cons, ih hlater, hsource, htarget]

end Plan

/-! ### Neighbours by their first arc -/

namespace Arc

section Ends

variable {near far : Arc → VertexId}
  (hends : ∀ arc other : Arc, near arc = near other → far arc = far other → arc = other)

include hends

theorem far_mem_iff (arcs : List Arc) (arc : Arc) :
    far arc ∈ (arcs.filter (near · = near arc)).map far ↔ arc ∈ arcs := by
  rw [List.mem_map]
  constructor
  · rintro ⟨other, hother, hfar⟩
    obtain ⟨hmem, hnear⟩ := List.mem_filter.mp hother
    exact hends other arc (of_decide_eq_true hnear) hfar ▸ hmem
  · intro hmem
    exact ⟨arc, List.mem_filter.mpr ⟨hmem, by simp⟩, rfl⟩

/-- One more arc adds a neighbour to its near end, unless there is such an arc already. -/
theorem eraseDups_concat (arcs : List Arc) (arc : Arc) (vertex : VertexId) :
    (((arcs ++ [arc]).filter (near · = vertex)).map far).eraseDups =
      ((arcs.filter (near · = vertex)).map far).eraseDups ++
        if near arc = vertex ∧ arc ∉ arcs then [far arc] else [] := by
  rw [List.filter_append, List.map_append, List.eraseDups_append]
  congr 1
  by_cases hnear : near arc = vertex
  · subst hnear
    by_cases hmem : arc ∈ arcs
    · simp [List.removeAll, hmem, (far_mem_iff hends arcs arc).mpr hmem]
    · have hnew := mt (far_mem_iff hends arcs arc).mp hmem
      simp [List.removeAll, hmem, hnew, List.eraseDups_cons]
  · simp [hnear]

/-- Neighbours are listed in the order of their first arcs. -/
theorem pairwise_eraseDups (arcs : List Arc) (vertex : VertexId) :
    ((arcs.filter (near · = vertex)).map far).eraseDups.Pairwise (fun first second =>
      arcs.findIdx (fun arc => near arc = vertex ∧ far arc = first) <
        arcs.findIdx (fun arc => near arc = vertex ∧ far arc = second)) := by
  induction arcs using List.reverseRecOn with
  | nil => exact List.Pairwise.nil
  | append_singleton arcs arc ih =>
      have hstays : ∀ other ∈ ((arcs.filter (near · = vertex)).map far).eraseDups,
          arcs.findIdx (fun arc => near arc = vertex ∧ far arc = other) < arcs.length ∧
          (arcs ++ [arc]).findIdx (fun arc => near arc = vertex ∧ far arc = other) =
            arcs.findIdx (fun arc => near arc = vertex ∧ far arc = other) := by
        intro other hother
        obtain ⟨place, hplace, rfl⟩ := List.mem_map.mp (List.mem_eraseDups.mp hother)
        obtain ⟨hmem, hnear⟩ := List.mem_filter.mp hplace
        have hlt : arcs.findIdx (fun arc => near arc = vertex ∧ far arc = far place) < arcs.length :=
          List.findIdx_lt_length.mpr ⟨place, hmem, by simpa using hnear⟩
        exact ⟨hlt, by rw [List.findIdx_append, if_pos hlt]⟩
      rw [eraseDups_concat hends, List.pairwise_append]
      refine ⟨ih.imp_of_mem (fun hfirst hsecond hlt => ?_), ?_, fun other hother last hlast => ?_⟩
      · rwa [(hstays _ hfirst).2, (hstays _ hsecond).2]
      · split <;> simp
      · split at hlast
        next hnew =>
          obtain rfl := List.mem_singleton.mp hlast
          have hfirst : arcs.findIdx (fun other => near other = vertex ∧ far other = far arc) =
              arcs.length := by
            refine List.findIdx_eq_length.mpr (fun place hplace => decide_eq_false ?_)
            rintro ⟨hnear, hfar⟩
            exact hnew.2 (hends place arc (hnear.trans hnew.1.symm) hfar ▸ hplace)
          rw [(hstays other hother).2, List.findIdx_append, hfirst, if_neg (Nat.lt_irrefl _)]
          exact Nat.lt_of_lt_of_le (hstays other hother).1 (Nat.le_add_left _ _)
        next => cases hlast

end Ends

theorem ends_target : ∀ arc other : Arc, arc.source = other.source → arc.target = other.target →
    arc = other := by
  rintro ⟨source, target⟩ ⟨_, _⟩ rfl rfl
  rfl

theorem ends_source : ∀ arc other : Arc, arc.target = other.target → arc.source = other.source →
    arc = other := fun arc other htarget hsource => ends_target arc other hsource htarget

theorem eraseDups_targetsOf_concat (arcs : List Arc) (arc : Arc) (vertex : VertexId) :
    (targetsOf (arcs ++ [arc]) vertex).eraseDups = (targetsOf arcs vertex).eraseDups ++
      if arc.source = vertex ∧ arc ∉ arcs then [arc.target] else [] :=
  eraseDups_concat ends_target arcs arc vertex

theorem eraseDups_sourcesOf_concat (arcs : List Arc) (arc : Arc) (vertex : VertexId) :
    (sourcesOf (arcs ++ [arc]) vertex).eraseDups = (sourcesOf arcs vertex).eraseDups ++
      if arc.target = vertex ∧ arc ∉ arcs then [arc.source] else [] :=
  eraseDups_concat ends_source arcs arc vertex

end Arc

/-- The lists of neighbours while arcs are entered one after the other. -/
@[ext]
structure Neighbours where
  sources : VertexId → List VertexId
  targets : VertexId → List VertexId

namespace Neighbours

/-- Enters an arc at both of its ends, unless its target is listed at its source already. -/
def enter (neighbours : Neighbours) (arc : Arc) : Neighbours :=
  if arc.target ∈ neighbours.targets arc.source then neighbours
  else
    { sources := fun vertex => if vertex = arc.target then neighbours.sources vertex ++ [arc.source]
        else neighbours.sources vertex
      targets := fun vertex => if vertex = arc.source then neighbours.targets vertex ++ [arc.target]
        else neighbours.targets vertex }

def ofArcs (arcs : List Arc) : Neighbours := arcs.foldl enter ⟨fun _ => [], fun _ => []⟩

/-- The look at the targets is enough: a source is new exactly when its target is. -/
theorem ofArcs_eq (arcs : List Arc) : ofArcs arcs =
    { sources := fun vertex => (Arc.sourcesOf arcs vertex).eraseDups
      targets := fun vertex => (Arc.targetsOf arcs vertex).eraseDups } := by
  induction arcs using List.reverseRecOn with
  | nil => rfl
  | append_singleton arcs arc ih =>
      have hlisted : arc.target ∈ (Arc.targetsOf arcs arc.source).eraseDups ↔ arc ∈ arcs := by
        rw [List.mem_eraseDups, Arc.mem_targetsOf]
      rw [ofArcs, List.foldl_append, List.foldl_cons, List.foldl_nil, ← ofArcs, ih, enter]
      simp only [Arc.eraseDups_sourcesOf_concat, Arc.eraseDups_targetsOf_concat]
      by_cases hmem : arc ∈ arcs
      · rw [if_pos (hlisted.mpr hmem)]
        simp [hmem]
      · rw [if_neg (mt hlisted.mp hmem)]
        ext1
        · funext vertex
          by_cases hvertex : vertex = arc.target
          · simp [hvertex, hmem]
          · simp [hvertex, Ne.symm hvertex]
        · funext vertex
          by_cases hvertex : vertex = arc.source
          · simp [hvertex, hmem]
          · simp [hvertex, Ne.symm hvertex]

end Neighbours

/-! ### The graph of a plan -/

namespace Graph

/-- An edge that leads from one vertex of the graph to another, by their names. -/
def Spans (graph : Graph) (edge : EdgeSpec) (source target : VertexId) : Prop :=
  graph.name? source = some edge.source ∧ graph.name? target = some edge.destination

instance (graph : Graph) (edge : EdgeSpec) (source target : VertexId) :
    Decidable (graph.Spans edge source target) := inferInstanceAs (Decidable (_ ∧ _))

/-- A graph shows what a plan says. Vertices have the names of the plan, and a name leads to its vertex and
to nothing else. Neighbours are the ends of the edges, each listed once and by the first edge to it. -/
structure Depicts (graph : Graph) (plan : Plan) : Prop where
  size : graph.size = plan.vertices.length
  edges : graph.edges = plan.edges
  name : ∀ vertex, graph.name? vertex = (plan.vertices[vertex.index]?).map (·.name)
  vertexId : ∀ name vertex, graph.vertexId? name = some vertex ↔ graph.name? vertex = some name
  vertex : ∀ name, plan.vertex? name =
    (graph.vertexId? name).bind (fun vertex => plan.vertices[vertex.index]?)
  targets : ∀ source target, target ∈ graph.targets source ↔
    ∃ edge ∈ plan.edges, graph.Spans edge source target
  sources : ∀ source target, source ∈ graph.sources target ↔
    ∃ edge ∈ plan.edges, graph.Spans edge source target
  nodup : ∀ vertex, (graph.targets vertex).Nodup ∧ (graph.sources vertex).Nodup
  irreflexive : ∀ vertex, vertex ∉ graph.targets vertex ∧ vertex ∉ graph.sources vertex
  targetsOrder : ∀ source, (graph.targets source).Pairwise (fun first second =>
    plan.edges.findIdx (graph.Spans · source first) < plan.edges.findIdx (graph.Spans · source second))
  sourcesOrder : ∀ target, (graph.sources target).Pairwise (fun first second =>
    plan.edges.findIdx (graph.Spans · first target) < plan.edges.findIdx (graph.Spans · second target))
  outside : ∀ vertex : VertexId, plan.vertices.length ≤ vertex.index →
    graph.targets vertex = [] ∧ graph.sources vertex = []

section Assembled

variable {plan : Plan} {arcs : List Arc} (order : List VertexId)

theorem name?_assemble (vertex : VertexId) :
    (assemble plan arcs order).name? vertex = (plan.vertices[vertex.index]?).map (·.name) := by
  rw [name?, node?_assemble_eq, Option.map_map]
  rfl

variable (hjoins : ∀ arc ∈ arcs, plan.Joins arc)

include hjoins

/-- No arc begins or ends outside the plan. -/
theorem neighbours_outside {vertex : VertexId} (hvertex : plan.vertices[vertex.index]? = none) :
    Arc.targetsOf arcs vertex = [] ∧ Arc.sourcesOf arcs vertex = [] := by
  have houtside : vertex ∉ plan.vertexIds := fun hmem =>
    Nat.not_lt.mpr (List.getElem?_eq_none_iff.mp hvertex) (Plan.mem_vertexIds.mp hmem)
  constructor
  · refine List.eq_nil_iff_forall_not_mem.mpr (fun target htarget => houtside ?_)
    exact (hjoins _ (Arc.mem_targetsOf.mp htarget)).1
  · refine List.eq_nil_iff_forall_not_mem.mpr (fun source hsource => houtside ?_)
    exact (hjoins _ (Arc.mem_sourcesOf.mp hsource)).2.1

/-- The targets of a vertex, whether it is one of the plan or not. -/
theorem targets_assemble (vertex : VertexId) :
    (assemble plan arcs order).targets vertex = (Arc.targetsOf arcs vertex).eraseDups := by
  rw [targets, node?_assemble_eq]
  cases hvertex : plan.vertices[vertex.index]? with
  | some spec => rfl
  | none =>
      rw [(neighbours_outside hjoins hvertex).1]
      rfl

/-- The sources of a vertex, whether it is one of the plan or not. -/
theorem sources_assemble (vertex : VertexId) :
    (assemble plan arcs order).sources vertex = (Arc.sourcesOf arcs vertex).eraseDups := by
  rw [sources, node?_assemble_eq]
  cases hvertex : plan.vertices[vertex.index]? with
  | some spec => rfl
  | none =>
      rw [(neighbours_outside hjoins hvertex).2]
      rfl

end Assembled

section Built

variable {plan : Plan} {graph : Graph} (hgraph : ofPlan plan = .ok graph)

include hgraph

theorem vertexId?_eq_some_iff_ofPlan {name : String} {vertex : VertexId} :
    graph.vertexId? name = some vertex ↔ graph.name? vertex = some name := by
  have hnames := (wellFormed_of_ofPlan hgraph).names
  rw [vertexId?_ofPlan hgraph, Plan.vertexId?_eq_some_iff hnames]
  obtain ⟨arcs, order, -, -, rfl⟩ := ofPlan_ok hgraph
  rw [name?_assemble]

/-- An edge leads from one vertex to another exactly if it is resolved to the arc between them. -/
theorem spans_iff {edge : EdgeSpec} {source target : VertexId} : graph.Spans edge source target ↔
    plan.vertexId? edge.source = some source ∧ plan.vertexId? edge.destination = some target := by
  rw [Spans, ← vertexId?_eq_some_iff_ofPlan hgraph, ← vertexId?_eq_some_iff_ofPlan hgraph,
    vertexId?_ofPlan hgraph, vertexId?_ofPlan hgraph]

/-- The first edge from one vertex to another stands where their first arc does. -/
theorem findIdx_spans {arcs : List Arc} (harcs : plan.arcs = .ok arcs) (source target : VertexId) :
    plan.edges.findIdx (graph.Spans · source target) =
      arcs.findIdx (fun arc => arc.source = source ∧ arc.target = target) := by
  have hends := Plan.map_ends_of_resolveEdges (Plan.arcs_ok harcs).2
  let joins := fun ends : Option VertexId × Option VertexId =>
    decide (ends.1 = some source ∧ ends.2 = some target)
  calc plan.edges.findIdx (graph.Spans · source target)
      = (plan.edges.map (fun edge =>
          (plan.vertexId? edge.source, plan.vertexId? edge.destination))).findIdx joins := by
        rw [List.findIdx_map]
        congr 1
        funext edge
        exact decide_eq_decide.mpr (spans_iff hgraph)
    _ = (arcs.map (fun arc => (some arc.source, some arc.target))).findIdx joins := by rw [hends]
    _ = arcs.findIdx (fun arc => arc.source = source ∧ arc.target = target) := by
        rw [List.findIdx_map]
        congr 1
        funext arc
        simp [joins]

theorem exists_spans_iff {source target : VertexId} :
    (∃ edge ∈ plan.edges, graph.Spans edge source target) ↔ source ∈ graph.sources target := by
  rw [mem_sources_ofPlan hgraph, Plan.Links]
  simp only [spans_iff hgraph]

/-- Neighbours are listed by the first edge to them. -/
theorem pairwise_ofPlan (vertex : VertexId) :
    (graph.targets vertex).Pairwise (fun first second =>
      plan.edges.findIdx (graph.Spans · vertex first) < plan.edges.findIdx (graph.Spans · vertex second)) ∧
    (graph.sources vertex).Pairwise (fun first second =>
      plan.edges.findIdx (graph.Spans · first vertex) < plan.edges.findIdx (graph.Spans · second vertex)) := by
  obtain ⟨arcs, order, harcs, -, hassembled⟩ := ofPlan_ok hgraph
  have hjoins := (Plan.joins_of_arcs harcs).2
  simp only [findIdx_spans hgraph harcs]
  rw [hassembled, targets_assemble order hjoins, sources_assemble order hjoins]
  refine ⟨Arc.pairwise_eraseDups Arc.ends_target arcs vertex, ?_⟩
  refine (Arc.pairwise_eraseDups Arc.ends_source arcs vertex).imp (fun hlt => ?_)
  simpa only [and_comm] using hlt

/-- The graph of a plan is its image: it shows what the plan says, and its lists of neighbours are those that
grow when the edges are entered one after the other and only the targets of the source are looked at. -/
theorem image_of_plan : graph.Depicts plan ∧
    ∃ arcs, plan.arcs = .ok arcs ∧ Neighbours.ofArcs arcs = ⟨graph.sources, graph.targets⟩ := by
  obtain ⟨hsound, hsize⟩ := sound_ofPlan hgraph
  obtain ⟨arcs, order, harcs, -, hassembled⟩ := ofPlan_ok hgraph
  have hjoins := (Plan.joins_of_arcs harcs).2
  have htargets := targets_assemble order hjoins
  have hsources := sources_assemble order hjoins
  rw [← hassembled] at htargets hsources
  have hself : ∀ vertex, vertex ∉ graph.sources vertex := by
    intro vertex hvertex
    rw [hsources, List.mem_eraseDups, Arc.mem_sourcesOf] at hvertex
    exact (hjoins _ hvertex).2.2 rfl
  constructor
  · exact {
      size := hsize
      edges := by rw [hassembled, assemble]
      name := fun vertex => by rw [hassembled, name?_assemble]
      vertexId := fun name vertex => vertexId?_eq_some_iff_ofPlan hgraph
      vertex := fun name => by rw [vertexId?_ofPlan hgraph, Plan.vertex?_eq]
      targets := fun source target => by rw [exists_spans_iff hgraph, hsound.linked]
      sources := fun source target => (exists_spans_iff hgraph).symm
      nodup := fun vertex => by
        rw [htargets, hsources]
        exact ⟨nodup_eraseDups _, nodup_eraseDups _⟩
      irreflexive := fun vertex => ⟨mt (hsound.linked vertex vertex).mpr (hself vertex), hself vertex⟩
      targetsOrder := fun source => (pairwise_ofPlan hgraph source).1
      sourcesOrder := fun target => (pairwise_ofPlan hgraph target).2
      outside := fun vertex hvertex => by
        have hnode := node?_assemble_eq_none arcs order (Nat.not_lt.mpr hvertex)
        rw [← hassembled] at hnode
        rw [Graph.targets, Graph.sources, hnode]
        exact ⟨rfl, rfl⟩ }
  · refine ⟨arcs, harcs, ?_⟩
    rw [Neighbours.ofArcs_eq]
    ext1
    · funext vertex
      exact (hsources vertex).symm
    · funext vertex
      exact (htargets vertex).symm

end Built

end Graph

/-- A plan of three vertices, of which the first leads to the last by a detour and twice directly. -/
def Plan.shortcut : Plan where
  name := "shortcut"
  vertices := [⟨"a", 1, {}⟩, ⟨"b", 1, {}⟩, ⟨"c", 1, {}⟩]
  edges := [⟨"e1", "a", "c", .bipartite, .stable⟩, ⟨"e2", "b", "c", .bipartite, .stable⟩,
    ⟨"e3", "a", "b", .bipartite, .stable⟩, ⟨"e4", "a", "c", .bipartite, .stable⟩]

namespace Graph

def shortcutGraph : Graph where
  nodes := [⟨"a", [], [⟨2⟩, ⟨1⟩], 0⟩, ⟨"b", [⟨0⟩], [⟨2⟩], 1⟩, ⟨"c", [⟨0⟩, ⟨1⟩], [], 2⟩]
  edges := Plan.shortcut.edges
  order := [⟨0⟩, ⟨1⟩, ⟨2⟩]

theorem ofPlan_shortcut : ofPlan .shortcut = .ok shortcutGraph := by
  have harcs : Plan.shortcut.arcs =
      .ok [⟨⟨0⟩, ⟨2⟩⟩, ⟨⟨1⟩, ⟨2⟩⟩, ⟨⟨0⟩, ⟨1⟩⟩, ⟨⟨0⟩, ⟨2⟩⟩] := by decide
  have hids : Plan.shortcut.vertexIds = [⟨0⟩, ⟨1⟩, ⟨2⟩] := by decide
  have horder : Arc.order [⟨⟨0⟩, ⟨2⟩⟩, ⟨⟨1⟩, ⟨2⟩⟩, ⟨⟨0⟩, ⟨1⟩⟩, ⟨⟨0⟩, ⟨2⟩⟩] [⟨0⟩, ⟨1⟩, ⟨2⟩] =
      .ok [⟨0⟩, ⟨1⟩, ⟨2⟩] := by
    simp [Arc.order, Arc.targetsOf, Arc.sourcesOf, Search.topologicalOrder, Search.finishingOrder,
      Search.explore, Search.secondVisited?, Search.unwind]
  rw [ofPlan, harcs, hids]
  simp only [bind, Except.bind, horder]
  rfl

/-- The two edges from the first vertex to the last make them neighbours once, in the place of the first. -/
theorem image_of_plan_shortcut : ofPlan .shortcut = .ok shortcutGraph ∧
    shortcutGraph.Depicts .shortcut ∧ shortcutGraph.targets ⟨0⟩ = [⟨2⟩, ⟨1⟩] ∧
    shortcutGraph.sources ⟨2⟩ = [⟨0⟩, ⟨1⟩] :=
  ⟨ofPlan_shortcut, (image_of_plan ofPlan_shortcut).1, rfl, rfl⟩

end Graph

end JobFlow
