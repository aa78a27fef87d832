import Mathlib
import JobFlow.Plan.Builder

/-!
Plans written call by call. A builder adds to a plan what its calls say, in their order, and only counts
the edges that it numbers itself, so that no two of these have the same identifier, whatever is called in
between. Main statement: the plan of a chain, vertex by vertex and edge by edge.
-/

namespace JobFlow.Plan

/-! ### Names with a number -/

/-- The identifier of a numbered edge. -/
def Builder.numberedId (number : Nat) : String := s!"e{number}"

theorem Builder.numberedId_injective : Function.Injective numberedId := by
  intro number other h
  simpa [numberedId, toString, Nat.repr_inj] using h

theorem chainName_injective : Function.Injective chainName := by
  intro index other h
  simpa [chainName, toString, Nat.repr_inj] using h

namespace Builder

/-! ### What calls add -/

namespace Call

def vertex? : Call → Option VertexSpec
  | .vertex name taskCount => some { name := name, taskCount := taskCount }
  | .add spec => some spec
  | .link _ _ | .linkAs _ _ _ => none

/-- A call that leaves it to the builder to identify its edge. -/
def isNumbered : Call → Bool
  | .link _ _ => true
  | .vertex _ _ | .add _ | .linkAs _ _ _ => false

/-- The edge of a call, if the edges before it were numbered up to a certain number. -/
def edge? (numbered : Nat) : Call → Option EdgeSpec
  | .link source destination => some ⟨numberedId (numbered + 1), source, destination, .bipartite, .stable⟩
  | .linkAs id source destination => some ⟨id, source, destination, .bipartite, .stable⟩
  | .vertex _ _ | .add _ => none

end Call

/-- The edges of some calls. -/
def edgesFrom (numbered : Nat) : List Call → List EdgeSpec
  | [] => []
  | call :: rest =>
    (call.edge? numbered).toList ++ edgesFrom (numbered + if call.isNumbered then 1 else 0) rest

theorem apply_eq (builder : Builder) (call : Call) : builder.apply call =
    { plan := { builder.plan with
        vertices := builder.plan.vertices ++ call.vertex?.toList
        edges := builder.plan.edges ++ (call.edge? builder.numbered).toList }
      numbered := builder.numbered + if call.isNumbered then 1 else 0 } := by
  cases call <;>
    simp [apply, vertex, add, link, linkAs, Call.vertex?, Call.edge?, Call.isNumbered, numberedId]

/-- Calls add their vertices and their edges to a plan and leave all else as it is. -/
theorem plan_foldl_apply (builder : Builder) (calls : List Call) : (calls.foldl apply builder).plan =
    { builder.plan with
      vertices := builder.plan.vertices ++ calls.filterMap Call.vertex?
      edges := builder.plan.edges ++ edgesFrom builder.numbered calls } := by
  induction calls generalizing builder with
  | nil => simp [edgesFrom]
  | cons call rest ih =>
      rw [List.foldl_cons, ih, apply_eq, edgesFrom]
      cases hvertex : call.vertex? <;> simp [hvertex]

theorem edgesFrom_append (numbered : Nat) (calls later : List Call) : edgesFrom numbered (calls ++ later) =
    edgesFrom numbered calls ++ edgesFrom (numbered + calls.countP Call.isNumbered) later := by
  induction calls generalizing numbered with
  | nil => rfl
  | cons call rest ih =>
      rw [List.cons_append, edgesFrom, edgesFrom, ih, List.append_assoc, List.countP_cons]
      congr 3
      omega

/-! ### Numbered edges -/

/-- The identifiers that a builder gives to the edges of some calls. -/
def generated (builder : Builder) : List Call → List String
  | [] => []
  | call :: rest =>
    let added := (builder.apply call).plan.edges.drop builder.plan.edges.length
    (if call.isNumbered then added.map (·.id) else []) ++ (builder.apply call).generated rest

/-- The identifiers are numbered one after the other, whatever is called in between. -/
theorem generated_eq (builder : Builder) (calls : List Call) : builder.generated calls =
    (List.range' (builder.numbered + 1) (calls.countP Call.isNumbered)).map numberedId := by
  induction calls generalizing builder with
  | nil => rfl
  | cons call rest ih =>
      rw [generated, ih, apply_eq, List.countP_cons]
      cases call <;> simp [Call.isNumbered, Call.edge?, List.range'_succ]

theorem nodup_generated (builder : Builder) (calls : List Call) : (builder.generated calls).Nodup := by
  rw [generated_eq]
  exact (List.nodup_range' 1).map numberedId_injective

/-- The identifiers that a builder gives are found in the plan that it builds, in the same order. -/
theorem generated_sublist (builder : Builder) (calls : List Call) :
    (builder.generated calls).Sublist ((edgesFrom builder.numbered calls).map (·.id)) := by
  induction calls generalizing builder with
  | nil => exact List.Sublist.refl _
  | cons call rest ih =>
      rw [generated, edgesFrom, List.map_append, apply_eq]
      refine List.Sublist.append ?_ (ih _)
      simp only [List.drop_left]
      split
      · exact List.Sublist.refl _
      · exact List.nil_sublist _

end Builder

/-! ### Chains -/

namespace Builder

theorem edgesFrom_vertices (numbered taskCount count : Nat) (name : Nat → String) :
    edgesFrom numbered ((List.range count).map (fun index => .vertex (name index) taskCount)) = [] := by
  induction List.range count with
  | nil => rfl
  | cons index rest ih => exact ih

/-- The edges of links that are made one after the other. -/
theorem edgesFrom_links (numbered count : Nat) (source destination : Nat → String) :
    edgesFrom numbered ((List.range count).map (fun index => .link (source index) (destination index))) =
      (List.range count).map (fun index =>
        ⟨numberedId (numbered + index + 1), source index, destination index, .bipartite, .stable⟩) := by
  -- The last link is taken off, for its number is the count of the links before it.
  induction count with
  | zero => rfl
  | succ count ih =>
      have hcount : ((List.range count).map
          (fun index => Call.link (source index) (destination index))).countP Call.isNumbered = count := by
        simp [List.countP_map, Function.comp_def, Call.isNumbered]
      rw [List.range_succ, List.map_append, List.map_append, edgesFrom_append, ih, hcount]
      rfl

end Builder

open Builder in
theorem chain_eq (length taskCount : Nat) : chain length taskCount =
    { name := "chain"
      vertices := (List.range length).map (fun index => ⟨chainName index, taskCount, {}⟩)
      edges := (List.range (length - 1)).map (fun index =>
        ⟨numberedId (index + 1), chainName index, chainName (index + 1), .bipartite, .stable⟩) } := by
  have hnumbered : ((List.range length).map
      (fun index => Call.vertex (chainName index) taskCount)).countP Call.isNumbered = 0 := by
    simp [List.countP_map, Function.comp_def, Call.isNumbered]
  rw [chain, build, plan_foldl_apply, edgesFrom_append, edgesFrom_vertices, edgesFrom_links, hnumbered]
  simp [named, Call.vertex?, Function.comp_def]

end JobFlow.Plan
