import JobFlow.Proofs.Plan.Building
import JobFlow.Proofs.Graph.Depth

/-!
Chains as graphs. The edges of a chain lead from each vertex to the next and nowhere else, so that its
vertices have one place in the order only. Main statement: the graph of a chain of any length is a line, and
the identifiers that are given to edges never repeat.
-/

namespace JobFlow

namespace Plan

variable {length taskCount : Nat}

/-! ### Vertices and edges of a chain -/

theorem vertices_chain (length taskCount : Nat) : (chain length taskCount).vertices =
    (List.range length).map (fun index => ⟨chainName index, taskCount, {}⟩) := by rw [chain_eq]

theorem names_chain (length taskCount : Nat) :
    (chain length taskCount).vertices.map (·.name) = (List.range length).map chainName := by
  rw [vertices_chain, List.map_map]
  rfl

theorem mem_edges_chain {edge : EdgeSpec} : edge ∈ (chain length taskCount).edges ↔
    ∃ index, index + 1 < length ∧ edge =
      ⟨Builder.numberedId (index + 1), chainName index, chainName (index + 1), .bipartite, .stable⟩ := by
  rw [chain_eq, List.mem_map]
  constructor
  · rintro ⟨index, hindex, rfl⟩
    exact ⟨index, Nat.add_lt_of_lt_sub (List.mem_range.mp hindex), rfl⟩
  · rintro ⟨index, hindex, rfl⟩
    exact ⟨index, List.mem_range.mpr (Nat.lt_sub_of_add_lt hindex), rfl⟩

theorem nodup_names_chain (length taskCount : Nat) :
    ((chain length taskCount).vertices.map (·.name)).Nodup := by
  rw [names_chain]
  exact List.nodup_range.map chainName_injective

theorem vertexId?_chain {index : Nat} (hindex : index < length) :
    (chain length taskCount).vertexId? (chainName index) = some ⟨index⟩ := by
  rw [vertexId?_eq_some_iff (nodup_names_chain length taskCount), vertices_chain]
  simp [hindex]

/-- An edge of a chain leads from one vertex to the next. -/
theorem leads_chain_iff {source target : String} : (chain length taskCount).Leads source target ↔
    ∃ index, index + 1 < length ∧ source = chainName index ∧ target = chainName (index + 1) := by
  constructor
  · rintro ⟨edge, hedge, rfl, rfl⟩
    obtain ⟨index, hindex, rfl⟩ := mem_edges_chain.mp hedge
    exact ⟨index, hindex, rfl, rfl⟩
  · rintro ⟨index, hindex, rfl, rfl⟩
    exact ⟨_, mem_edges_chain.mpr ⟨index, hindex, rfl⟩, rfl, rfl⟩

/-- Along a chain one comes to later vertices only, and to all of them. -/
theorem transGen_leads_chain {source target : String} :
    Relation.TransGen (chain length taskCount).Leads source target ↔
      ∃ index later, index < later ∧ later < length ∧
        source = chainName index ∧ target = chainName later := by
  constructor
  · intro hpath
    induction hpath with
    | single hlead =>
        obtain ⟨index, hindex, rfl, rfl⟩ := leads_chain_iff.mp hlead
        exact ⟨index, index + 1, index.lt_succ_self, hindex, rfl, rfl⟩
    | tail _ hlead ih =>
        obtain ⟨index, later, hlt, -, rfl, rfl⟩ := ih
        obtain ⟨middle, hmiddle, hsame, rfl⟩ := leads_chain_iff.mp hlead
        obtain rfl := chainName_injective hsame
        exact ⟨index, later + 1, Nat.lt_succ_of_lt hlt, hmiddle, rfl, rfl⟩
  · rintro ⟨index, later, hlt, hlater, rfl, rfl⟩
    induction later, hlt using Nat.le_induction with
    | base => exact .single (leads_chain_iff.mpr ⟨index, hlater, rfl, rfl⟩)
    | succ later _ ih =>
        exact (ih (Nat.lt_of_succ_lt hlater)).tail (leads_chain_iff.mpr ⟨later, hlater, rfl, rfl⟩)

/-- A chain with a vertex describes a job. -/
theorem wellFormed_chain (hlength : 0 < length) (taskCount : Nat) : (chain length taskCount).WellFormed where
  nonempty := by
    rw [vertices_chain]
    simp [Nat.ne_of_gt hlength]
  names := nodup_names_chain length taskCount
  edges := by
    have hids : (chain length taskCount).edges.map (·.id) =
        (List.range (length - 1)).map (fun index => Builder.numberedId (index + 1)) := by
      rw [chain_eq, List.map_map]
      rfl
    rw [hids]
    exact List.nodup_range.map (Builder.numberedId_injective.comp (Nat.succ_injective))
  known := by
    intro edge hedge
    obtain ⟨index, hindex, rfl⟩ := mem_edges_chain.mp hedge
    rw [names_chain]
    exact ⟨List.mem_map_of_mem (List.mem_range.mpr (Nat.lt_of_succ_lt hindex)),
      List.mem_map_of_mem (List.mem_range.mpr hindex)⟩
  acyclic := by
    intro name hcycle
    obtain ⟨index, later, hlt, -, rfl, hsame⟩ := transGen_leads_chain.mp hcycle
    exact Nat.ne_of_lt hlt (chainName_injective hsame)

/-- One vertex of a chain is linked to another if this is the next. -/
theorem links_chain_iff {source target : VertexId} : (chain length taskCount).Links source target ↔
    target.index = source.index + 1 ∧ target.index < length := by
  constructor
  · rintro ⟨edge, hedge, hsource, htarget⟩
    obtain ⟨index, hindex, rfl⟩ := mem_edges_chain.mp hedge
    rw [vertexId?_chain (Nat.lt_of_succ_lt hindex)] at hsource
    rw [vertexId?_chain hindex] at htarget
    cases hsource
    cases htarget
    exact ⟨rfl, hindex⟩
  · rintro ⟨hnext, hlt⟩
    obtain ⟨index⟩ := source
    obtain ⟨_⟩ := target
    cases hnext
    exact ⟨_, mem_edges_chain.mpr ⟨index, hlt, rfl⟩, vertexId?_chain (Nat.lt_of_succ_lt hlt),
      vertexId?_chain hlt⟩

end Plan

namespace Graph

/-- A graph whose vertices stand in a line, each the only source of the next. -/
structure IsLine (graph : Graph) (length : Nat) : Prop where
  size : graph.size = length
  named : ∀ index < length,
    graph.vertexId? s!"v{index}" = some ⟨index⟩ ∧ graph.name? ⟨index⟩ = some s!"v{index}"
  sources : ∀ index < length, graph.sources ⟨index⟩ = if index = 0 then [] else [⟨index - 1⟩]
  targets : ∀ index < length, graph.targets ⟨index⟩ = if index + 1 = length then [] else [⟨index + 1⟩]
  depth : ∀ index < length, graph.depth? ⟨index⟩ = some index
  roots : graph.roots = [⟨0⟩]
  order : graph.order = (List.range length).map (⟨·⟩)

theorem eq_singleton_of_nodup {α : Type} {items : List α} {item : α} (hnodup : items.Nodup)
    (hmem : ∀ other, other ∈ items ↔ other = item) : items = [item] := by
  refine List.perm_singleton.mp ((List.perm_ext_iff_of_nodup hnodup (List.nodup_singleton item)).mpr ?_)
  simpa using hmem

theorem nodup_sources_ofPlan {plan : Plan} {graph : Graph} (hgraph : ofPlan plan = .ok graph)
    (vertex : VertexId) : (graph.sources vertex).Nodup := by
  obtain ⟨arcs, order, harcs, -, rfl⟩ := ofPlan_ok hgraph
  rw [sources_assemble order (Plan.joins_of_arcs harcs).2]
  exact nodup_eraseDups _

section Chain

variable {length taskCount : Nat} {graph : Graph} (hgraph : ofPlan (.chain length taskCount) = .ok graph)

include hgraph

theorem size_chain : graph.size = length := by
  rw [(sound_ofPlan hgraph).2, Plan.vertices_chain, List.length_map, List.length_range]

theorem mem_sources_chain {index : Nat} (hindex : index < length) {source : VertexId} :
    source ∈ graph.sources ⟨index⟩ ↔ index = source.index + 1 := by
  rw [mem_sources_ofPlan hgraph, Plan.links_chain_iff]
  exact and_iff_left hindex

theorem sources_chain {index : Nat} (hindex : index < length) :
    graph.sources ⟨index⟩ = if index = 0 then [] else [⟨index - 1⟩] := by
  cases index with
  | zero =>
      rw [if_pos rfl, List.eq_nil_iff_forall_not_mem]
      intro source hsource
      exact absurd ((mem_sources_chain hgraph hindex).mp hsource) (Nat.succ_ne_zero _).symm
  | succ index =>
      rw [if_neg index.succ_ne_zero]
      refine eq_singleton_of_nodup (nodup_sources_ofPlan hgraph _) (fun source => ?_)
      rw [mem_sources_chain hgraph hindex]
      obtain ⟨other⟩ := source
      simp [eq_comm]

theorem targets_chain {index : Nat} (hindex : index < length) :
    graph.targets ⟨index⟩ = if index + 1 = length then [] else [⟨index + 1⟩] := by
  have hmem : ∀ target, target ∈ graph.targets ⟨index⟩ ↔
      target.index = index + 1 ∧ target.index < length := by
    intro target
    rw [← (sound_ofPlan hgraph).1.linked, mem_sources_ofPlan hgraph, Plan.links_chain_iff]
  by_cases hlast : index + 1 = length
  · rw [if_pos hlast, List.eq_nil_iff_forall_not_mem]
    intro target htarget
    obtain ⟨hnext, hlt⟩ := (hmem target).mp htarget
    omega
  · rw [if_neg hlast]
    refine eq_singleton_of_nodup (nodup_targets_ofPlan hgraph _) (fun target => ?_)
    rw [hmem]
    constructor
    · rintro ⟨hnext, -⟩
      exact congrArg VertexId.mk hnext
    · rintro rfl
      exact ⟨rfl, Nat.lt_of_le_of_ne hindex hlast⟩

/-- Every vertex of a chain lies one below the vertex before it. -/
theorem depth_chain {index : Nat} (hindex : index < length) : graph.depth? ⟨index⟩ = some index := by
  obtain ⟨depths, hdepths⟩ := exists_depths hgraph
  rw [← (sound_ofPlan hgraph).2, size_chain hgraph] at hdepths
  have hdepth : depths.getD index 0 = index := by
    induction index with
    | zero =>
        rw [(hdepths ⟨0⟩ hindex).2, sources_chain hgraph hindex]
        rfl
    | succ index ih =>
        have hbefore := ih (Nat.lt_of_succ_lt hindex)
        rw [(hdepths ⟨index + 1⟩ hindex).2, sources_chain hgraph hindex, if_neg index.succ_ne_zero]
        simpa [depthBelow] using hbefore
  rw [(hdepths ⟨index⟩ hindex).1, hdepth]

theorem roots_chain (hlength : 0 < length) : graph.roots = [⟨0⟩] := by
  have hids : graph.vertexIds.Nodup := by
    rw [vertexIds, (sound_ofPlan hgraph).2]
    exact Plan.nodup_vertexIds
  refine eq_singleton_of_nodup (hids.filter _) (fun vertex => ?_)
  rw [mem_roots_iff hgraph]
  constructor
  · intro hroot
    obtain ⟨node, hnode, -⟩ := Option.map_eq_some_iff.mp hroot
    have hindex : vertex.index < length := size_chain hgraph ▸ (List.getElem?_eq_some_iff.mp hnode).1
    exact congrArg VertexId.mk (Option.some.inj ((depth_chain hgraph hindex).symm.trans hroot))
  · rintro rfl
    exact depth_chain hgraph hlength

/-- Every vertex of a chain stands before all later ones, and so there is one order only. -/
theorem order_chain : graph.order = (List.range length).map (⟨·⟩) := by
  have hperm := order_perm_ofPlan hgraph
  rw [vertexIds, size_chain hgraph] at hperm
  have hnodup : graph.order.Nodup :=
    hperm.nodup_iff.mpr (List.nodup_range.map (fun _ _ heq => congrArg VertexId.index heq))
  have hbefore : ∀ first last : VertexId, first.index < last.index → last.index < length →
      graph.order.idxOf first < graph.order.idxOf last := by
    intro first last hlt hlast
    obtain ⟨source, target, hsource, htarget, hordered⟩ := idxOf_lt_of_leads hgraph
      (Plan.transGen_leads_chain.mpr ⟨first.index, last.index, hlt, hlast, rfl, rfl⟩)
    rw [Plan.vertexId?_chain (hlt.trans hlast)] at hsource
    rw [Plan.vertexId?_chain hlast] at htarget
    cases hsource
    cases htarget
    exact hordered
  have hsorted : graph.order.Pairwise (fun first last => first.index ≤ last.index) := by
    refine List.pairwise_iff_getElem.mpr (fun place later hplace hlater hlt => ?_)
    by_contra hgt
    -- Then the vertex at the later place would have to stand before the other.
    have hfirst : (graph.order[place]).index < length := by
      obtain ⟨index, hindex, heq⟩ := List.mem_map.mp (hperm.mem_iff.mp (List.getElem_mem hplace))
      exact heq ▸ List.mem_range.mp hindex
    have hwrong := hbefore _ _ (Nat.not_le.mp hgt) hfirst
    rw [hnodup.idxOf_getElem, hnodup.idxOf_getElem] at hwrong
    exact Nat.lt_asymm hlt hwrong
  have hrange : ((List.range length).map VertexId.mk).Pairwise (fun first last => first.index ≤ last.index) :=
    .map _ (fun _ _ hlt => Nat.le_of_lt hlt) List.pairwise_lt_range
  refine hperm.eq_of_pairwise (fun first last _ _ hle hge => ?_) hsorted hrange
  exact congrArg VertexId.mk (Nat.le_antisymm hle hge)

theorem isLine_chain (hlength : 0 < length) : graph.IsLine length where
  size := size_chain hgraph
  named index hindex := by
    have hvertex : graph.vertexId? (Plan.chainName index) = some ⟨index⟩ := by
      rw [vertexId?_ofPlan hgraph, Plan.vertexId?_chain hindex]
    exact ⟨hvertex, (vertexId?_eq_some_iff_ofPlan hgraph).mp hvertex⟩
  sources index := sources_chain hgraph
  targets index := targets_chain hgraph
  depth index := depth_chain hgraph
  roots := roots_chain hgraph hlength
  order := order_chain hgraph

end Chain

/-- A chain of vertices is built as a line, whatever its length and the number of its tasks, and a chain
without vertices is refused. In every plan that is written call by call the identifiers that the builder
gives are all different, also if other edges are identified in between. -/
theorem chain_is_a_line :
    (∀ length taskCount, 0 < length →
      ∃ graph, ofPlan (.chain length taskCount) = .ok graph ∧ graph.IsLine length) ∧
    (∀ taskCount, ∃ defect, ofPlan (.chain 0 taskCount) = .error defect ∧
      defect.error = .malformedPlan "plan 'chain' must contain at least one vertex") ∧
    ∀ name calls, ((Plan.Builder.named name).generated calls).Nodup ∧
      ((Plan.Builder.named name).generated calls).length = calls.countP Plan.Builder.Call.isNumbered ∧
      ((Plan.Builder.named name).generated calls).Sublist
        ((Plan.Builder.build name calls).edges.map (·.id)) := by
  refine ⟨fun length taskCount hlength => ?_, fun taskCount => ?_, fun name calls => ⟨?_, ?_, ?_⟩⟩
  · obtain ⟨graph, hgraph⟩ := exists_ofPlan (Plan.wellFormed_chain hlength taskCount)
    exact ⟨graph, hgraph, isLine_chain hgraph hlength⟩
  · exact ⟨.noVertices "chain", rfl, rfl⟩
  · exact Plan.Builder.nodup_generated _ calls
  · rw [Plan.Builder.generated_eq, List.length_map, List.length_range']
  · rw [Plan.Builder.build, Plan.Builder.plan_foldl_apply]
    exact Plan.Builder.generated_sublist _ calls

theorem chain_is_a_line_three : 0 < 3 ∧ ∃ graph, ofPlan (.chain 3 7) = .ok graph ∧ graph.size = 3 ∧
    graph.vertexId? "v2" = some ⟨2⟩ ∧ graph.sources ⟨2⟩ = [⟨1⟩] ∧ graph.targets ⟨2⟩ = [] ∧
    graph.order = [⟨0⟩, ⟨1⟩, ⟨2⟩] := by
  have hlength : 0 < 3 := by decide
  obtain ⟨graph, hgraph, hline⟩ := chain_is_a_line.1 3 7 hlength
  exact ⟨hlength, graph, hgraph, hline.size, (hline.named 2 (by decide)).1, hline.sources 2 (by decide),
    hline.targets 2 (by decide), hline.order⟩

end Graph

end JobFlow
