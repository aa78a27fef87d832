import JobFlow.Proofs.Graph.Image

/-!
What a refused plan is refused for. A plan may be defective in many places at once; its vertices are looked
at before its edges, both in their order, and of an edge its identifier before its source and its source
before its destination. Main statement: the refusal shows the first defect in that order, whatever edges
follow it, and a coordinator is refused for nothing else.
-/

namespace JobFlow

/-! ### The first of some faults -/

namespace Error

/-- The fault at the first position that has one. -/
def FirstOf (error : Error) (fault? : Nat → Option Error) : Prop :=
  ∃ index, fault? index = some error ∧ ∀ earlier < index, fault? earlier = none

variable {error : Error} {fault? : Nat → Option Error}

theorem firstOf_iff : error.FirstOf fault? ↔
    fault? 0 = some error ∨ fault? 0 = none ∧ error.FirstOf (fun index => fault? (index + 1)) := by
  constructor
  · rintro ⟨index, hfault, hearlier⟩
    cases index with
    | zero => exact Or.inl hfault
    | succ index =>
        refine Or.inr ⟨hearlier 0 index.succ_pos, index, hfault, fun earlier hlt => ?_⟩
        exact hearlier (earlier + 1) (Nat.succ_lt_succ hlt)
  · rintro (hfault | ⟨hnone, index, hfault, hearlier⟩)
    · exact ⟨0, hfault, fun earlier hlt => absurd hlt earlier.not_lt_zero⟩
    · refine ⟨index + 1, hfault, fun earlier hlt => ?_⟩
      cases earlier with
      | zero => exact hnone
      | succ earlier => exact hearlier earlier (Nat.lt_of_succ_lt_succ hlt)

theorem exists_firstOf {index : Nat} (hfault : fault? index ≠ none) :
    ∃ error : Error, error.FirstOf fault? := by
  induction index using Nat.strongRecOn with
  | ind index ih =>
      by_cases hearlier : ∀ earlier < index, fault? earlier = none
      · obtain ⟨error, herror⟩ := Option.ne_none_iff_exists'.mp hfault
        exact ⟨error, index, herror, hearlier⟩
      · push Not at hearlier
        obtain ⟨earlier, hlt, hne⟩ := hearlier
        exact ih earlier hlt hne

end Error

/-- The fault of the item at a position, which may depend on the labels before it. -/
def faultAt? {α : Type} (label : α → String) (fault? : List String → α → Option Error)
    (seen : List String) (items : List α) (index : Nat) : Option Error :=
  (items[index]?).bind (fault? (seen ++ (items.take index).map label))

theorem firstOf_faultAt?_cons {α : Type} {label : α → String} {fault? : List String → α → Option Error}
    {seen : List String} {item : α} {rest : List α} {error : Error} :
    error.FirstOf (faultAt? label fault? seen (item :: rest)) ↔ fault? seen item = some error ∨
      fault? seen item = none ∧ error.FirstOf (faultAt? label fault? (seen ++ [label item]) rest) := by
  have hrest : (fun index => faultAt? label fault? seen (item :: rest) (index + 1)) =
      faultAt? label fault? (seen ++ [label item]) rest := by
    funext index
    simp [faultAt?]
  rw [Error.firstOf_iff, hrest]
  simp [faultAt?]

theorem not_firstOf_faultAt?_nil {α : Type} {label : α → String} {fault? : List String → α → Option Error}
    {seen : List String} {error : Error} : ¬ error.FirstOf (faultAt? label fault? seen []) := by
  rintro ⟨index, hfault, -⟩
  cases hfault

namespace Plan

/-- A vertex is at fault if its name occurred before. -/
def nameFault? (before : List String) (vertex : VertexSpec) : Option Error :=
  if vertex.name ∈ before then some (.duplicateVertex vertex.name) else none

/-- What is wrong with an edge, after edges with certain identifiers. -/
def edgeFault? (plan : Plan) (before : List String) (edge : EdgeSpec) : Option Error :=
  if edge.id ∈ before then some (.malformedPlan s!"duplicate edge id '{edge.id}'")
  else if edge.source ∉ plan.vertices.map (·.name) then some (.unknownVertex edge.id edge.source)
  else if edge.destination ∉ plan.vertices.map (·.name) then some (.unknownVertex edge.id edge.destination)
  else if edge.source = edge.destination then
    some (.cycle s!"edge '{edge.id}' connects vertex '{edge.source}' to itself")
  else none

def vertexFaultAt? (plan : Plan) : Nat → Option Error := faultAt? (·.name) nameFault? [] plan.vertices

def edgeFaultAt? (plan : Plan) : Nat → Option Error := faultAt? (·.id) plan.edgeFault? [] plan.edges

/-- The error that a plan is to be refused with. Each reason counts only if those before it do not apply. -/
inductive RefusedWith (plan : Plan) : Error → Prop
  | noVertices (hempty : plan.vertices = []) :
      RefusedWith plan (.malformedPlan s!"plan '{plan.name}' must contain at least one vertex")
  | vertex {error : Error} (hnonempty : plan.vertices ≠ []) (hfirst : error.FirstOf plan.vertexFaultAt?) :
      RefusedWith plan error
  | edge {error : Error} (hnonempty : plan.vertices ≠ []) (hnames : (plan.vertices.map (·.name)).Nodup)
      (hfirst : error.FirstOf plan.edgeFaultAt?) : RefusedWith plan error
  | order {arcs : List Arc} {vertex : VertexId} (hnonempty : plan.vertices ≠ [])
      (hnames : (plan.vertices.map (·.name)).Nodup) (hedges : ∀ index, plan.edgeFaultAt? index = none)
      (hends : plan.edges.map (fun edge => (plan.vertexId? edge.source, plan.vertexId? edge.destination)) =
        arcs.map (fun arc => (some arc.source, some arc.target)))
      (horder : Arc.order arcs plan.vertexIds = .error vertex) :
      RefusedWith plan
        (.cycle s!"cycle detected in vertex DAG involving vertex '{plan.nameAt vertex}'")

variable {plan : Plan}

/-! ### Vertices -/

/-- Looking through the names finds the first that occurred before. -/
theorem repeatedName?_iff {seen before : List String} {vertices : List VertexSpec} {error : Error}
    (hsame : ∀ name, name ∈ seen ↔ name ∈ before) :
    (∃ name, repeatedName? seen vertices = some name ∧ error = .duplicateVertex name) ↔
      error.FirstOf (faultAt? (·.name) nameFault? before vertices) := by
  induction vertices generalizing seen before with
  | nil => simp [repeatedName?, not_firstOf_faultAt?_nil]
  | cons vertex rest ih =>
      have hnext : ∀ name, name ∈ vertex.name :: seen ↔ name ∈ before ++ [vertex.name] := by
        intro name
        rw [List.mem_cons, List.mem_append, List.mem_singleton, hsame, or_comm]
      rw [firstOf_faultAt?_cons, ← ih hnext, repeatedName?, nameFault?]
      by_cases hmem : vertex.name ∈ seen
      · simp [hmem, (hsame _).mp hmem, eq_comm]
      · simp [hmem, mt (hsame _).mpr hmem]

/-! ### Edges -/

theorem edgeFault?_congr {seen before : List String} (hsame : ∀ id, id ∈ seen ↔ id ∈ before)
    (edge : EdgeSpec) : plan.edgeFault? seen edge = plan.edgeFault? before edge := by
  simp only [edgeFault?, hsame]

theorem vertexId?_inj {name other : String} {vertex : VertexId} (hname : plan.vertexId? name = some vertex)
    (hother : plan.vertexId? other = some vertex) : name = other :=
  (nameAt_of_vertexId? hname).symm.trans (nameAt_of_vertexId? hother)

theorem vertexId?_eq_none_iff {name : String} :
    plan.vertexId? name = none ↔ name ∉ plan.vertices.map (·.name) := by
  rw [← exists_vertexId?_iff, ← Option.isSome_iff_exists, Option.not_isSome_iff_eq_none]

theorem mem_names_of_vertexId? {name : String} {vertex : VertexId} (h : plan.vertexId? name = some vertex) :
    name ∈ plan.vertices.map (·.name) :=
  exists_vertexId?_iff.mp ⟨vertex, h⟩

/-- An edge is resolved unless there is something wrong with it, and is refused for that. -/
theorem resolveEdge_cases (plan : Plan) (seen : List String) (edge : EdgeSpec) :
    (∃ arc, plan.resolveEdge seen edge = .ok arc ∧ plan.edgeFault? seen edge = none) ∨
      ∃ defect, plan.resolveEdge seen edge = .error defect ∧
        plan.edgeFault? seen edge = some defect.error := by
  rw [resolveEdge, edgeFault?]
  by_cases hseen : edge.id ∈ seen
  · rw [if_pos hseen, if_pos hseen]
    exact Or.inr ⟨_, rfl, rfl⟩
  rw [if_neg hseen, if_neg hseen]
  cases hsource : plan.vertexId? edge.source with
  | none =>
      rw [if_pos (vertexId?_eq_none_iff.mp hsource)]
      exact Or.inr ⟨_, rfl, rfl⟩
  | some source =>
      rw [if_neg (not_not.mpr (mem_names_of_vertexId? hsource))]
      cases htarget : plan.vertexId? edge.destination with
      | none =>
          rw [if_pos (vertexId?_eq_none_iff.mp htarget)]
          exact Or.inr ⟨_, rfl, rfl⟩
      | some target =>
          rw [if_neg (not_not.mpr (mem_names_of_vertexId? htarget))]
          by_cases hloop : edge.source = edge.destination
          · rw [hloop, htarget] at hsource
            obtain rfl := Option.some.inj hsource
            rw [if_pos hloop]
            exact Or.inr ⟨_, if_pos rfl, rfl⟩
          · have hne : source ≠ target := by
              rintro rfl
              exact hloop (vertexId?_inj hsource htarget)
            rw [if_neg hloop]
            exact Or.inl ⟨_, if_neg hne, rfl⟩

/-- Going through the edges finds the first that is at fault. -/
theorem resolveEdges_iff {seen before : List String} {edges : List EdgeSpec} {error : Error}
    (hsame : ∀ id, id ∈ seen ↔ id ∈ before) :
    (∃ defect, plan.resolveEdges seen edges = .error defect ∧ error = defect.error) ↔
      error.FirstOf (faultAt? (·.id) plan.edgeFault? before edges) := by
  induction edges generalizing seen before with
  | nil => simp [resolveEdges, not_firstOf_faultAt?_nil]
  | cons edge rest ih =>
      have hnext : ∀ id, id ∈ edge.id :: seen ↔ id ∈ before ++ [edge.id] := by
        intro id
        rw [List.mem_cons, List.mem_append, List.mem_singleton, hsame, or_comm]
      rw [firstOf_faultAt?_cons, ← ih hnext, ← edgeFault?_congr hsame, resolveEdges]
      rcases plan.resolveEdge_cases seen edge with ⟨arc, hresolved, hfault⟩ | ⟨defect, hrefused, hfault⟩
      · rw [hresolved, hfault]
        cases plan.resolveEdges (edge.id :: seen) rest <;> simp [bind, Except.bind, pure, Except.pure]
      · rw [hrefused, hfault]
        simp [bind, Except.bind, eq_comm]

/-- Edges that follow a faulty one are not looked at. -/
theorem resolveEdges_append {seen : List String} {edges : List EdgeSpec} {defect : PlanDefect}
    (hrefused : plan.resolveEdges seen edges = .error defect) (later : List EdgeSpec) :
    plan.resolveEdges seen (edges ++ later) = .error defect := by
  induction edges generalizing seen with
  | nil => cases hrefused
  | cons edge rest ih =>
      rw [resolveEdges] at hrefused
      rw [List.cons_append, resolveEdges]
      cases hfirst : plan.resolveEdge seen edge with
      | error refused =>
          rw [hfirst] at hrefused
          exact hrefused
      | ok arc =>
          rw [hfirst] at hrefused
          cases hlater : plan.resolveEdges (edge.id :: seen) rest with
          | error refused =>
              rw [hlater] at hrefused
              cases hrefused
              simp only [bind, Except.bind, ih hlater]
          | ok arcs =>
              rw [hlater] at hrefused
              cases hrefused

/-- How edges are resolved depends on the vertices alone. -/
theorem resolveEdges_with (plan : Plan) (others edges : List EdgeSpec) (seen : List String) :
    { plan with edges := others }.resolveEdges seen edges = plan.resolveEdges seen edges := by
  induction edges generalizing seen with
  | nil => rfl
  | cons edge rest ih =>
      rw [resolveEdges, resolveEdges]
      simp only [ih]
      rfl

theorem exists_resolveEdges_take {index : Nat} (hfault : plan.edgeFaultAt? index ≠ none) :
    ∃ defect, plan.resolveEdges [] (plan.edges.take (index + 1)) = .error defect := by
  have hkept : faultAt? (·.id) plan.edgeFault? [] (plan.edges.take (index + 1)) index =
      plan.edgeFaultAt? index := by
    rw [edgeFaultAt?, faultAt?, faultAt?, List.getElem?_take_of_lt index.lt_succ_self, List.take_take,
      Nat.min_eq_left index.le_succ]
  obtain ⟨error, hfirst⟩ := Error.exists_firstOf (hkept ▸ hfault)
  obtain ⟨defect, hrefused, -⟩ := (resolveEdges_iff (fun _ => Iff.rfl)).mpr hfirst
  exact ⟨defect, hrefused⟩

/-- If nothing is wrong with the edges they are resolved, and if something is they are not. -/
theorem exists_resolveEdges_iff_faultless : (∃ arcs, plan.resolveEdges [] plan.edges = .ok arcs) ↔
    ∀ index, plan.edgeFaultAt? index = none := by
  constructor
  · rintro ⟨arcs, harcs⟩ index
    by_contra hfault
    obtain ⟨error, hfirst⟩ := Error.exists_firstOf hfault
    obtain ⟨defect, hrefused, -⟩ := (resolveEdges_iff (fun _ => Iff.rfl)).mpr hfirst
    rw [harcs] at hrefused
    cases hrefused
  · intro hfaultless
    cases hresolved : plan.resolveEdges [] plan.edges with
    | ok arcs => exact ⟨arcs, rfl⟩
    | error defect =>
        obtain ⟨index, hfault, -⟩ := (resolveEdges_iff (fun _ => Iff.rfl)).mp ⟨defect, hresolved, rfl⟩
        exact absurd (hfaultless index) (by rw [edgeFaultAt?, hfault]; exact Option.some_ne_none _)

/-! ### Whole plans -/

/-- Arcs are refused for the first reason that applies. -/
theorem arcs_error_iff {error : Error} : (∃ defect, plan.arcs = .error defect ∧ error = defect.error) ↔
    (plan.vertices = [] ∧
      error = .malformedPlan s!"plan '{plan.name}' must contain at least one vertex") ∨
    (plan.vertices ≠ [] ∧ error.FirstOf plan.vertexFaultAt?) ∨
    (plan.vertices ≠ [] ∧ (plan.vertices.map (·.name)).Nodup ∧ error.FirstOf plan.edgeFaultAt?) := by
  have hnames : repeatedName? [] plan.vertices = none ↔ (plan.vertices.map (·.name)).Nodup := by
    rw [repeatedName?_eq_none_iff]
    simp
  rw [arcs, vertexFaultAt?, edgeFaultAt?, ← repeatedName?_iff (fun _ => Iff.rfl),
    ← resolveEdges_iff (fun _ => Iff.rfl), ← hnames]
  by_cases hempty : plan.vertices = []
  · simp [hempty, PlanDefect.error, repeatedName?]
  · cases hrepeated : repeatedName? [] plan.vertices <;> simp [hempty, PlanDefect.error]

end Plan

namespace Graph

variable {plan : Plan}

theorem ofPlan_of_arcs_error {defect : PlanDefect} (h : plan.arcs = .error defect) :
    ofPlan plan = .error defect := by
  rw [ofPlan, h]
  rfl

theorem ofPlan_of_arcs_ok {arcs : List Arc} (h : plan.arcs = .ok arcs) : ofPlan plan =
    match Arc.order arcs plan.vertexIds with
    | .error vertex => .error (.cycle (plan.nameAt vertex))
    | .ok order => .ok (assemble plan arcs order) := by
  rw [ofPlan, h]
  rfl

/-- A plan is refused exactly with the error that it is to be refused with. -/
theorem ofPlan_error_iff {error : Error} :
    (∃ defect, ofPlan plan = .error defect ∧ error = defect.error) ↔ plan.RefusedWith error := by
  constructor
  · rintro ⟨defect, hrefused, rfl⟩
    cases harcs : plan.arcs with
    | error first =>
        cases (ofPlan_of_arcs_error harcs).symm.trans hrefused
        rcases Plan.arcs_error_iff.mp ⟨defect, harcs, rfl⟩ with
          ⟨hempty, hshown⟩ | ⟨hnonempty, hfirst⟩ | ⟨hnonempty, hnames, hfirst⟩
        · rw [hshown]
          exact .noVertices hempty
        · exact .vertex hnonempty hfirst
        · exact .edge hnonempty hnames hfirst
    | ok arcs =>
        obtain ⟨hnonempty, hnames, hresolved⟩ := Plan.arcs_ok_iff.mp harcs
        rw [ofPlan_of_arcs_ok harcs] at hrefused
        cases horder : Arc.order arcs plan.vertexIds with
        | ok order =>
            rw [horder] at hrefused
            cases hrefused
        | error vertex =>
            rw [horder] at hrefused
            cases hrefused
            exact .order hnonempty hnames (Plan.exists_resolveEdges_iff_faultless.mp ⟨arcs, hresolved⟩)
              (Plan.map_ends_of_resolveEdges hresolved) horder
  · have hearly : ∀ {shown : Error}, (∃ defect, plan.arcs = .error defect ∧ shown = defect.error) →
        ∃ defect, ofPlan plan = .error defect ∧ shown = defect.error := by
      rintro shown ⟨defect, harcs, hshown⟩
      exact ⟨defect, ofPlan_of_arcs_error harcs, hshown⟩
    rintro (hempty | ⟨hnonempty, hfirst⟩ | ⟨hnonempty, hnames, hfirst⟩ |
      ⟨hnonempty, hnames, hfaultless, hends, horder⟩)
    · exact hearly (Plan.arcs_error_iff.mpr (Or.inl ⟨hempty, rfl⟩))
    · exact hearly (Plan.arcs_error_iff.mpr (Or.inr (Or.inl ⟨hnonempty, hfirst⟩)))
    · exact hearly (Plan.arcs_error_iff.mpr (Or.inr (Or.inr ⟨hnonempty, hnames, hfirst⟩)))
    · obtain ⟨arcs, hresolved⟩ := Plan.exists_resolveEdges_iff_faultless.mpr hfaultless
      -- The ends of the edges leave no choice of arcs.
      have hsame := (Plan.map_ends_of_resolveEdges hresolved).symm.trans hends
      have harcs := List.map_injective_iff.mpr (fun (arc other : Arc) heq => by
        cases arc
        cases other
        simpa using heq) hsame
      subst harcs
      refine ⟨.cycle (plan.nameAt _), ?_, rfl⟩
      rw [ofPlan_of_arcs_ok (Plan.arcs_ok_iff.mpr ⟨hnonempty, hnames, hresolved⟩), horder]

/-- What follows a faulty edge does not matter. -/
theorem ofPlan_of_fault {index : Nat} (hfault : plan.edgeFaultAt? index ≠ none) (edges : List EdgeSpec) :
    ofPlan { plan with edges := plan.edges.take (index + 1) ++ edges } = ofPlan plan := by
  obtain ⟨defect, hrefused⟩ := Plan.exists_resolveEdges_take hfault
  have hfollowed := Plan.resolveEdges_append hrefused
  have hwhole := hfollowed (plan.edges.drop (index + 1))
  rw [List.take_append_drop] at hwhole
  have hother := plan.resolveEdges_with (plan.edges.take (index + 1) ++ edges)
    (plan.edges.take (index + 1) ++ edges) []
  rw [hfollowed edges] at hother
  have harcs : { plan with edges := plan.edges.take (index + 1) ++ edges }.arcs = plan.arcs := by
    rw [Plan.arcs, Plan.arcs, hwhole, hother]
  have herror : ∃ first, plan.arcs = .error first := by
    rw [Plan.arcs, hwhole]
    split
    · exact ⟨_, rfl⟩
    · split <;> exact ⟨_, rfl⟩
  obtain ⟨first, hfirst⟩ := herror
  rw [ofPlan_of_arcs_error hfirst, ofPlan_of_arcs_error (harcs.trans hfirst)]

/-- A plan is refused for its first defect. The error shows which it is, and one that a plan has is always
shown. Edges after a faulty one are of no account, so that others may stand in their place. Where a graph is
built of the plan its coordinator is set up with it, and where it is refused the coordinator is refused in
the same way. -/
theorem rejected_for_first_defect (plan : Plan) :
    (∀ error, (∃ defect, ofPlan plan = .error defect ∧ error = defect.error) ↔ plan.RefusedWith error) ∧
    (∀ index, plan.edgeFaultAt? index ≠ none → ∀ edges,
      ofPlan { plan with edges := plan.edges.take (index + 1) ++ edges } = ofPlan plan) ∧
    ∀ id config, (Coordinator.submit id plan config).map (·.graph) = ofPlan plan := by
  refine ⟨fun error => ofPlan_error_iff, fun index hfault => ofPlan_of_fault hfault, fun id config => ?_⟩
  rw [Coordinator.submit]
  cases ofPlan plan <;> rfl

end Graph

/-- A plan of two vertices whose edges are at fault in four ways, from the second edge on. -/
def Plan.tangle : Plan where
  name := "tangle"
  vertices := [⟨"a", 1, {}⟩, ⟨"b", 1, {}⟩]
  edges := [⟨"e1", "a", "b", .bipartite, .stable⟩, ⟨"e2", "b", "c", .bipartite, .stable⟩,
    ⟨"e1", "b", "a", .bipartite, .stable⟩, ⟨"e3", "a", "a", .bipartite, .stable⟩]

namespace Graph

/-- The vertex that does not exist is the first defect, also when a cycle is all that follows. -/
theorem rejected_for_first_defect_tangle : Plan.tangle.edgeFaultAt? 1 ≠ none ∧
    (∃ defect, ofPlan .tangle = .error defect ∧ .unknownVertex "e2" "c" = defect.error) ∧
    ofPlan { Plan.tangle with
      edges := Plan.tangle.edges.take 2 ++ [⟨"e3", "b", "a", .bipartite, .stable⟩] } = ofPlan .tangle := by
  obtain ⟨hrefused, hfollowed, -⟩ := rejected_for_first_defect .tangle
  have hfault : Plan.tangle.edgeFaultAt? 1 = some (.unknownVertex "e2" "c") := by decide
  have hearlier : ∀ earlier < 1, Plan.tangle.edgeFaultAt? earlier = none := by decide
  have hne : Plan.tangle.edgeFaultAt? 1 ≠ none := by simp [hfault]
  exact ⟨hne, (hrefused _).mpr (.edge (by decide) (by decide) ⟨1, hfault, hearlier⟩), hfollowed 1 hne _⟩

end Graph

end JobFlow
