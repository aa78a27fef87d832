import JobFlow.Proofs.Graph.Image
import JobFlow.Proofs.Graph.Paths

/-!
The depth of a vertex. Depths are settled one after the other, and since no source of a vertex comes after
it in the order, what a vertex found of its sources stays true. Main statement: the depth of a vertex is the
length of the longest path of edges that ends in it, whatever the order in which the plan lists its edges.
-/

namespace JobFlow

namespace Graph

/-! ### One vertex -/

/-- A vertex lies one below its deepest source. -/
theorem depthBelow_eq (depths : List Nat) (sources : List VertexId) : depthBelow depths sources =
    ((sources.map (fun source => depths.getD source.index 0 + 1)).max?).getD 0 := by
  rw [depthBelow, List.foldl_max, Nat.zero_max]

theorem lt_depthBelow (depths : List Nat) {sources : List VertexId} {source : VertexId}
    (hsource : source ∈ sources) : depths.getD source.index 0 < depthBelow depths sources := by
  have hmem := List.mem_map_of_mem (f := fun source => depths.getD source.index 0 + 1) hsource
  rw [depthBelow_eq]
  cases hmax : (sources.map (fun source => depths.getD source.index 0 + 1)).max? with
  | none =>
      rw [List.max?_eq_none_iff.mp hmax] at hmem
      cases hmem
  | some deepest => exact (List.max?_eq_some_iff.mp hmax).2 _ hmem

theorem exists_source_of_depthBelow {depths : List Nat} {sources : List VertexId}
    (hdepth : depthBelow depths sources ≠ 0) :
    ∃ source ∈ sources, depthBelow depths sources = depths.getD source.index 0 + 1 := by
  rw [depthBelow_eq] at hdepth ⊢
  cases hmax : (sources.map (fun source => depths.getD source.index 0 + 1)).max? with
  | none =>
      rw [hmax] at hdepth
      exact absurd rfl hdepth
  | some deepest =>
      obtain ⟨source, hsource, heq⟩ := List.mem_map.mp (List.max?_eq_some_iff.mp hmax).1
      exact ⟨source, hsource, heq.symm⟩

theorem getD_set_of_ne {depths : List Nat} {vertex other : VertexId} (hne : other ≠ vertex)
    (depth : Nat) : (depths.set vertex.index depth).getD other.index 0 = depths.getD other.index 0 := by
  have hindex : vertex.index ≠ other.index := fun heq => hne (congrArg VertexId.mk heq.symm)
  rw [List.getD_eq_getElem?_getD, List.getD_eq_getElem?_getD, List.getElem?_set_ne hindex]

/-- The depth of a vertex that is no source does not count. -/
theorem depthBelow_set {depths : List Nat} {sources : List VertexId} {vertex : VertexId}
    (hvertex : vertex ∉ sources) (depth : Nat) :
    depthBelow (depths.set vertex.index depth) sources = depthBelow depths sources := by
  have hsame : sources.map (fun source => (depths.set vertex.index depth).getD source.index 0 + 1) =
      sources.map (fun source => depths.getD source.index 0 + 1) := by
    apply List.map_congr_left
    intro source hsource
    have hne : source ≠ vertex := fun heq => hvertex (heq ▸ hsource)
    rw [getD_set_of_ne hne]
  rw [depthBelow, hsame, depthBelow]

/-! ### All vertices -/

section Depths

variable {sources : VertexId → List VertexId} {count : Nat}

theorem depths_concat (order : List VertexId) (vertex : VertexId) :
    depths sources count (order ++ [vertex]) = (depths sources count order).set vertex.index
      (depthBelow (depths sources count order) (sources vertex)) := by
  rw [depths, List.foldl_append]
  rfl

theorem length_depths (order : List VertexId) : (depths sources count order).length = count := by
  induction order using List.reverseRecOn with
  | nil => exact List.length_replicate
  | append_singleton order vertex ih => rw [depths_concat, List.length_set, ih]

/-- If no source of a vertex comes after it, each vertex lies one below its deepest source. -/
theorem getD_depths {order : List VertexId} (hnodup : order.Nodup)
    (harranged : order.Pairwise (fun earlier later => later ∉ sources earlier))
    (hself : ∀ vertex ∈ order, vertex ∉ sources vertex) (hcount : ∀ vertex ∈ order, vertex.index < count) :
    ∀ vertex ∈ order, (depths sources count order).getD vertex.index 0 =
      depthBelow (depths sources count order) (sources vertex) := by
  induction order using List.reverseRecOn with
  | nil => simp
  | append_singleton order last ih =>
      obtain ⟨hold, -, hfresh⟩ := List.nodup_append.mp hnodup
      obtain ⟨hrest, -, hlast⟩ := List.pairwise_append.mp harranged
      intro vertex hvertex
      rw [depths_concat]
      rcases List.mem_append.mp hvertex with hearlier | hnew
      · -- The last vertex is no source of an earlier one, whose depth therefore stands.
        have hne : vertex ≠ last := hfresh vertex hearlier last (List.mem_singleton_self last)
        have hstands := ih hold hrest (fun other h => hself other (List.mem_append_left _ h))
          (fun other h => hcount other (List.mem_append_left _ h)) vertex hearlier
        rw [getD_set_of_ne hne, depthBelow_set (hlast vertex hearlier last (List.mem_singleton_self last))]
        exact hstands
      · obtain rfl := List.mem_singleton.mp hnew
        have hindex : vertex.index < (depths sources count order).length := by
          rw [length_depths]
          exact hcount vertex hvertex
        rw [depthBelow_set (hself vertex hvertex), List.getD_eq_getElem?_getD,
          List.getElem?_set_self hindex, Option.getD_some]

end Depths

/-! ### The graph of a plan -/

/-- In the order of a plan no source of a vertex comes after it. -/
theorem arranged_of_order {plan : Plan} {arcs : List Arc} (harcs : plan.arcs = .ok arcs)
    {order : List VertexId} (horder : Arc.order arcs plan.vertexIds = .ok order) :
    order.Pairwise (fun earlier later => later ∉ (Arc.sourcesOf arcs earlier).eraseDups) := by
  have hperm := Arc.order_perm harcs horder
  have hnodup : order.Nodup := hperm.nodup_iff.mpr Plan.nodup_vertexIds
  refine List.pairwise_iff_getElem.mpr (fun place other hplace hother hlt hsource => ?_)
  rw [List.mem_eraseDups, Arc.mem_sourcesOf] at hsource
  have hbefore := Search.idxOf_lt_of_topologicalOrder Plan.nodup_vertexIds horder
    (hperm.mem_iff.mp (List.getElem_mem hplace)) (hperm.mem_iff.mp (List.getElem_mem hother))
    (by rw [List.mem_reverse, Arc.mem_sourcesOf]; exact hsource)
    ((Plan.joins_of_arcs harcs).2 _ hsource).2.2
  rw [hnodup.idxOf_getElem, hnodup.idxOf_getElem] at hbefore
  exact Nat.lt_asymm hlt hbefore

section Built

variable {plan : Plan} {graph : Graph} (hgraph : ofPlan plan = .ok graph)

include hgraph

/-- The depths of a graph, of which each is one more than that of the deepest source. -/
theorem exists_depths : ∃ depths : List Nat, ∀ vertex : VertexId, vertex.index < plan.vertices.length →
    graph.depth? vertex = some (depths.getD vertex.index 0) ∧
      depths.getD vertex.index 0 = depthBelow depths (graph.sources vertex) := by
  obtain ⟨arcs, order, harcs, horder, rfl⟩ := ofPlan_ok hgraph
  have hjoins := (Plan.joins_of_arcs harcs).2
  have hperm := Arc.order_perm harcs horder
  refine ⟨depths (fun vertex => (Arc.sourcesOf arcs vertex).eraseDups) plan.vertices.length order,
    fun vertex hindex => ⟨?_, ?_⟩⟩
  · rw [depth?, node?_assemble_eq, List.getElem?_eq_getElem hindex]
    rfl
  · rw [sources_assemble order hjoins]
    refine getD_depths (hperm.nodup_iff.mpr Plan.nodup_vertexIds) (arranged_of_order harcs horder)
      (fun other _ hself => ?_) (fun other hother => ?_) vertex
      (hperm.mem_iff.mpr (Plan.mem_vertexIds.mpr hindex))
    · rw [List.mem_eraseDups, Arc.mem_sourcesOf] at hself
      exact (hjoins _ hself).2.2 rfl
    · exact Plan.mem_vertexIds.mp (hperm.mem_iff.mp hother)

theorem exists_depth {vertex : VertexId} (hindex : vertex.index < plan.vertices.length) :
    ∃ depth, graph.depth? vertex = some depth := by
  obtain ⟨depths, hdepths⟩ := exists_depths hgraph
  exact ⟨_, (hdepths vertex hindex).1⟩

/-- A vertex lies deeper than its sources. -/
theorem depth_lt_of_source {source target : VertexId} (hsource : source ∈ graph.sources target) :
    ∃ above below, graph.depth? source = some above ∧ graph.depth? target = some below ∧
      above < below := by
  obtain ⟨hsound, hsize⟩ := sound_ofPlan hgraph
  obtain ⟨depths, hdepths⟩ := exists_depths hgraph
  have habove := hdepths source (hsize ▸ hsound.source_lt source target hsource)
  have hbelow := hdepths target (hsize ▸ hsound.target_lt source target hsource)
  exact ⟨_, _, habove.1, hbelow.1, hbelow.2 ▸ lt_depthBelow depths hsource⟩

/-- A vertex that is not of depth zero lies one below a source. -/
theorem exists_source_of_depth {target : VertexId} {depth : Nat}
    (hdepth : graph.depth? target = some (depth + 1)) :
    ∃ source ∈ graph.sources target, graph.depth? source = some depth := by
  obtain ⟨hsound, hsize⟩ := sound_ofPlan hgraph
  obtain ⟨depths, hdepths⟩ := exists_depths hgraph
  have hindex : target.index < plan.vertices.length := by
    rw [← hsize]
    obtain ⟨node, hnode, -⟩ := Option.map_eq_some_iff.mp hdepth
    exact (List.getElem?_eq_some_iff.mp hnode).1
  obtain ⟨hbelow, hdeepest⟩ := hdepths target hindex
  have hvalue := Option.some.inj (hbelow.symm.trans hdepth)
  have hnonzero : depthBelow depths (graph.sources target) ≠ 0 := by omega
  obtain ⟨source, hsource, hnext⟩ := exists_source_of_depthBelow hnonzero
  refine ⟨source, hsource, ?_⟩
  rw [(hdepths source (hsize ▸ hsound.source_lt source target hsource)).1]
  exact congrArg some (by omega)

/-! ### Depths by name -/

omit hgraph in
/-- The depth of the vertex that bears a name, and zero if there is none. -/
def depthOf (graph : Graph) (name : String) : Nat := ((graph.vertexId? name).bind graph.depth?).getD 0

omit hgraph in
theorem depthOf_eq {name : String} {vertex : VertexId} {depth : Nat}
    (hvertex : graph.vertexId? name = some vertex) (hdepth : graph.depth? vertex = some depth) :
    graph.depthOf name = depth := by
  rw [depthOf, hvertex, Option.bind_some, hdepth, Option.getD_some]

theorem depth_lt_of_edge {edge : EdgeSpec} (hedge : edge ∈ plan.edges) : ∃ source target above below,
    graph.vertexId? edge.source = some source ∧ graph.vertexId? edge.destination = some target ∧
      graph.depth? source = some above ∧ graph.depth? target = some below ∧ above < below := by
  obtain ⟨source, target, hsource, htarget, -⟩ := idxOf_lt_of_edge hgraph hedge
  have hlinked := (mem_sources_ofPlan hgraph).mpr ⟨edge, hedge, hsource, htarget⟩
  obtain ⟨above, below, habove, hbelow, hlt⟩ := depth_lt_of_source hgraph hlinked
  simp only [vertexId?_ofPlan hgraph]
  exact ⟨source, target, above, below, hsource, htarget, habove, hbelow, hlt⟩

theorem depthOf_lt_of_edge {edge : EdgeSpec} (hedge : edge ∈ plan.edges) :
    graph.depthOf edge.source < graph.depthOf edge.destination := by
  obtain ⟨source, target, above, below, hsource, htarget, habove, hbelow, hlt⟩ :=
    depth_lt_of_edge hgraph hedge
  rwa [depthOf_eq hsource habove, depthOf_eq htarget hbelow]

theorem exists_edge_of_depthOf {name : String} (hdepth : graph.depthOf name ≠ 0) :
    ∃ edge ∈ plan.edges, edge.destination = name ∧
      graph.depthOf name = graph.depthOf edge.source + 1 := by
  obtain ⟨depth, hnext⟩ := Nat.exists_eq_succ_of_ne_zero hdepth
  obtain ⟨target, htarget, hbelow⟩ : ∃ target, graph.vertexId? name = some target ∧
      graph.depth? target = some (depth + 1) := by
    rw [depthOf] at hnext
    cases hfound : (graph.vertexId? name).bind graph.depth? with
    | none =>
        rw [hfound] at hnext
        cases hnext
    | some below =>
        rw [hfound, Option.getD_some] at hnext
        obtain ⟨target, htarget, hbelow⟩ := Option.bind_eq_some_iff.mp hfound
        exact ⟨target, htarget, hbelow.trans (congrArg some hnext)⟩
  obtain ⟨source, hlinked, habove⟩ := exists_source_of_depth hgraph hbelow
  obtain ⟨edge, hedge, hsource, hdestination⟩ := (mem_sources_ofPlan hgraph).mp hlinked
  rw [← vertexId?_ofPlan hgraph] at hsource hdestination
  have hname := (vertexId?_eq_some_iff_ofPlan hgraph).mp hdestination
  rw [(vertexId?_eq_some_iff_ofPlan hgraph).mp htarget] at hname
  refine ⟨edge, hedge, (Option.some.inj hname).symm, ?_⟩
  rw [depthOf_eq hsource habove, hnext]

/-- The depth of a vertex is the length of the longest path to it. -/
theorem isGreatest_depth {vertex : VertexId} {spec : VertexSpec}
    (hspec : plan.vertices[vertex.index]? = some spec) :
    ∃ depth, graph.depth? vertex = some depth ∧ IsGreatest (plan.pathLengths spec.name) depth := by
  obtain ⟨depth, hdepth⟩ := exists_depth hgraph (List.getElem?_eq_some_iff.mp hspec).1
  have hvertex : graph.vertexId? spec.name = some vertex := by
    rw [vertexId?_ofPlan hgraph, Plan.vertexId?_eq_some_iff (wellFormed_of_ofPlan hgraph).names, hspec]
    rfl
  refine ⟨depth, hdepth, ?_⟩
  rw [← depthOf_eq hvertex hdepth]
  exact Plan.isGreatest_pathLengths (fun edge => depthOf_lt_of_edge hgraph)
    (fun name => exists_edge_of_depthOf hgraph) spec.name

/-- The roots are the vertices of depth zero. -/
theorem mem_roots_iff {vertex : VertexId} : vertex ∈ graph.roots ↔ graph.depth? vertex = some 0 := by
  obtain ⟨-, hsize⟩ := sound_ofPlan hgraph
  rw [roots, List.mem_filter, List.isEmpty_iff]
  constructor
  · rintro ⟨hmem, hempty⟩
    obtain ⟨index, hindex, rfl⟩ := List.mem_map.mp hmem
    obtain ⟨depth, hdepth⟩ := exists_depth hgraph (hsize ▸ List.mem_range.mp hindex)
    cases depth with
    | zero => exact hdepth
    | succ depth =>
        obtain ⟨source, hsource, -⟩ := exists_source_of_depth hgraph hdepth
        rw [hempty] at hsource
        cases hsource
  · intro hdepth
    obtain ⟨node, hnode, -⟩ := Option.map_eq_some_iff.mp hdepth
    refine ⟨List.mem_map.mpr ⟨vertex.index, List.mem_range.mpr ?_, rfl⟩, ?_⟩
    · exact (List.getElem?_eq_some_iff.mp hnode).1
    · refine List.eq_nil_iff_forall_not_mem.mpr (fun source hsource => ?_)
      obtain ⟨above, below, -, hbelow, hlt⟩ := depth_lt_of_source hgraph hsource
      rw [Option.some.inj (hbelow.symm.trans hdepth)] at hlt
      exact Nat.not_lt_zero above hlt

end Built

end Graph

/-! ### Other edges between the same vertices -/

/-- Another plan of the same vertices, whose edges lead from the same names to the same names. They may come
in another order, be repeated and bear other identifiers. -/
structure Plan.Redrawn (plan other : Plan) : Prop where
  vertices : other.vertices = plan.vertices
  ids : (other.edges.map (·.id)).Nodup
  leads : ∀ source target, other.Leads source target ↔ plan.Leads source target

theorem Plan.Redrawn.wellFormed {plan other : Plan} (hredrawn : plan.Redrawn other)
    (hplan : plan.WellFormed) : other.WellFormed where
  nonempty := hredrawn.vertices ▸ hplan.nonempty
  names := hredrawn.vertices ▸ hplan.names
  edges := hredrawn.ids
  known edge hedge := by
    obtain ⟨same, hsame, hsource, hdestination⟩ :=
      (hredrawn.leads edge.source edge.destination).mp ⟨edge, hedge, rfl, rfl⟩
    rw [hredrawn.vertices, ← hsource, ← hdestination]
    exact hplan.known same hsame
  acyclic name hcycle :=
    hplan.acyclic name
      (Relation.TransGen.mono (fun source target => (hredrawn.leads source target).mp) _ _ hcycle)

namespace Graph

variable {plan : Plan} {graph : Graph} (hgraph : ofPlan plan = .ok graph)

include hgraph

theorem depth?_of_redrawn {other : Plan} (hredrawn : plan.Redrawn other) {rebuilt : Graph}
    (hrebuilt : ofPlan other = .ok rebuilt) (vertex : VertexId) :
    rebuilt.depth? vertex = graph.depth? vertex := by
  cases hspec : plan.vertices[vertex.index]? with
  | some spec =>
      obtain ⟨depth, hdepth, hgreatest⟩ := isGreatest_depth hgraph hspec
      obtain ⟨same, hsame, hgreatestToo⟩ := isGreatest_depth hrebuilt (hredrawn.vertices ▸ hspec)
      rw [Plan.pathLengths_congr hredrawn.leads] at hgreatestToo
      rw [hdepth, hsame, hgreatestToo.unique hgreatest]
  | none =>
      have houtside : ∀ {known : Plan} {built : Graph}, ofPlan known = .ok built →
          known.vertices = plan.vertices → built.depth? vertex = none := by
        intro known built hbuilt hvertices
        obtain ⟨arcs, order, -, -, rfl⟩ := ofPlan_ok hbuilt
        rw [depth?, node?_assemble_eq, hvertices, hspec, Option.map_none, Option.map_none]
      rw [houtside hrebuilt hredrawn.vertices, houtside hgraph rfl]

/-- The depth of a vertex is the length of the longest path of edges that ends in it. The roots are the
vertices of depth zero, every edge leads to a deeper vertex, and nothing changes if the edges come in another
order or are repeated under fresh identifiers. -/
theorem depth_is_longest_path :
    (∀ (vertex : VertexId) (spec : VertexSpec), plan.vertices[vertex.index]? = some spec →
      ∃ depth, graph.depth? vertex = some depth ∧ IsGreatest (plan.pathLengths spec.name) depth) ∧
    (∀ vertex, vertex ∈ graph.roots ↔ graph.depth? vertex = some 0) ∧
    (∀ edge ∈ plan.edges, ∃ source target above below,
      graph.vertexId? edge.source = some source ∧ graph.vertexId? edge.destination = some target ∧
        graph.depth? source = some above ∧ graph.depth? target = some below ∧ above < below) ∧
    ∀ other, plan.Redrawn other → ∃ rebuilt, ofPlan other = .ok rebuilt ∧
      ∀ vertex, rebuilt.depth? vertex = graph.depth? vertex := by
  refine ⟨fun vertex spec hspec => isGreatest_depth hgraph hspec, fun vertex => mem_roots_iff hgraph,
    fun edge hedge => depth_lt_of_edge hgraph hedge, fun other hredrawn => ?_⟩
  obtain ⟨rebuilt, hrebuilt⟩ := exists_ofPlan (hredrawn.wellFormed (wellFormed_of_ofPlan hgraph))
  exact ⟨rebuilt, hrebuilt, depth?_of_redrawn hgraph hredrawn hrebuilt⟩

end Graph

/-- The same edges from the last to the first, without the repeated one and under other identifiers. -/
def Plan.detour : Plan where
  name := "detour"
  vertices := Plan.shortcut.vertices
  edges := [⟨"f1", "a", "b", .bipartite, .stable⟩, ⟨"f2", "b", "c", .bipartite, .stable⟩,
    ⟨"f3", "a", "c", .bipartite, .stable⟩]

theorem Plan.redrawn_detour : Plan.shortcut.Redrawn .detour where
  vertices := rfl
  ids := by decide
  leads source target := by
    simp [Plan.Leads, Plan.shortcut, Plan.detour]
    tauto

namespace Graph

/-- The direct edges do not make the detour shorter. -/
theorem depth_is_longest_path_shortcut : ofPlan .shortcut = .ok shortcutGraph ∧
    IsGreatest (Plan.shortcut.pathLengths "c") 2 ∧ shortcutGraph.roots = [⟨0⟩] ∧
    ∃ rebuilt, ofPlan .detour = .ok rebuilt ∧ rebuilt.depth? ⟨2⟩ = some 2 := by
  obtain ⟨hlongest, -, -, hredrawn⟩ := depth_is_longest_path ofPlan_shortcut
  obtain ⟨depth, hdepth, hgreatest⟩ := hlongest ⟨2⟩ ⟨"c", 1, {}⟩ rfl
  obtain ⟨rebuilt, hrebuilt, hsame⟩ := hredrawn .detour Plan.redrawn_detour
  cases hdepth
  exact ⟨ofPlan_shortcut, hgreatest, rfl, rebuilt, hrebuilt, hsame ⟨2⟩⟩

end Graph

end JobFlow
