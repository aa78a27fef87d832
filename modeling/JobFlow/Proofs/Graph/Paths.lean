import Mathlib.Order.Bounds.Basic
import JobFlow.Proofs.Graph.Acceptance

/-!
Paths along the edges of a plan. A path can be cut short until it visits no vertex twice, and a rank that
goes up along every edge bounds the length of the paths that end in a vertex. Main statement: if moreover a
vertex of positive rank is entered by an edge from the rank below, its rank is the length of the longest path.
-/

namespace JobFlow.Plan

/-- Edges of the plan, each going on where the one before it ends, that lead from one vertex to another. -/
def IsPath (plan : Plan) : List EdgeSpec → String → String → Prop
  | [], source, target => source = target
  | edge :: rest, source, target =>
    edge ∈ plan.edges ∧ edge.source = source ∧ plan.IsPath rest edge.destination target

instance decidableIsPath (plan : Plan) : (path : List EdgeSpec) → (source target : String) →
    Decidable (plan.IsPath path source target)
  | [], source, target => inferInstanceAs (Decidable (source = target))
  | edge :: rest, source, target =>
    have := decidableIsPath plan rest edge.destination target
    inferInstanceAs (Decidable (edge ∈ plan.edges ∧ edge.source = source ∧
      plan.IsPath rest edge.destination target))

/-- The lengths of the paths that end in a vertex. -/
def pathLengths (plan : Plan) (target : String) : Set Nat :=
  { length | ∃ path source, plan.IsPath path source target ∧ path.length = length }

variable {plan : Plan} {path : List EdgeSpec} {source target : String}

theorem isPath_append {first second : List EdgeSpec} : plan.IsPath (first ++ second) source target ↔
    ∃ middle, plan.IsPath first source middle ∧ plan.IsPath second middle target := by
  induction first generalizing source with
  | nil => simp [IsPath]
  | cons edge rest ih => simp [IsPath, ih, and_assoc]

theorem IsPath.concat {edge : EdgeSpec} (hpath : plan.IsPath path source edge.source)
    (hedge : edge ∈ plan.edges) : plan.IsPath (path ++ [edge]) source edge.destination :=
  isPath_append.mpr ⟨edge.source, hpath, hedge, rfl, rfl⟩

theorem exists_isPath (h : Relation.ReflTransGen plan.Leads source target) :
    ∃ path, plan.IsPath path source target := by
  induction h using Relation.ReflTransGen.head_induction_on with
  | refl => exact ⟨[], rfl⟩
  | head hlead _ ih =>
      obtain ⟨edge, hedge, rfl, rfl⟩ := hlead
      obtain ⟨path, hpath⟩ := ih
      exact ⟨edge :: path, hedge, rfl, hpath⟩

/-- Edges that lead from the same names to the same names make paths of the same lengths. -/
theorem IsPath.exists_of_leads {other : Plan} (hpath : plan.IsPath path source target)
    (hleads : ∀ first second, plan.Leads first second → other.Leads first second) :
    ∃ image, other.IsPath image source target ∧ image.length = path.length := by
  induction path generalizing source with
  | nil => exact ⟨[], hpath, rfl⟩
  | cons edge rest ih =>
      obtain ⟨hedge, rfl, hrest⟩ := hpath
      obtain ⟨image, himage, hlength⟩ := ih hrest
      obtain ⟨first, hfirst, hsource, hdestination⟩ :=
        hleads edge.source edge.destination ⟨edge, hedge, rfl, rfl⟩
      exact ⟨first :: image, ⟨hfirst, hsource, hdestination ▸ himage⟩, congrArg (· + 1) hlength⟩

theorem pathLengths_congr {other : Plan}
    (hleads : ∀ first second, other.Leads first second ↔ plan.Leads first second) (target : String) :
    other.pathLengths target = plan.pathLengths target := by
  ext length
  constructor
  · rintro ⟨path, source, hpath, rfl⟩
    obtain ⟨image, himage, hlength⟩ := hpath.exists_of_leads (fun _ _ => (hleads _ _).mp)
    exact ⟨image, source, himage, hlength⟩
  · rintro ⟨path, source, hpath, rfl⟩
    obtain ⟨image, himage, hlength⟩ := hpath.exists_of_leads (fun _ _ => (hleads _ _).mpr)
    exact ⟨image, source, himage, hlength⟩

/-! ### Paths without repetition -/

/-- From any vertex that it visits, a path goes on to its end. -/
theorem IsPath.exists_suffix (hpath : plan.IsPath path source target) {name : String}
    (hname : name ∈ path.map (·.source) ++ [target]) :
    ∃ later, later <:+ path ∧ plan.IsPath later name target := by
  induction path generalizing source with
  | nil => exact ⟨[], List.suffix_refl _, List.mem_singleton.mp hname⟩
  | cons edge rest ih =>
      rcases List.mem_cons.mp hname with rfl | hrest
      · exact ⟨edge :: rest, List.suffix_refl _, hpath.1, rfl, hpath.2.2⟩
      · obtain ⟨later, hsuffix, hlater⟩ := ih hpath.2.2 hrest
        exact ⟨later, hsuffix.trans (List.suffix_cons _ _), hlater⟩

/-- A path can be cut short until it visits no vertex twice. -/
theorem IsPath.exists_simple (hpath : plan.IsPath path source target) :
    ∃ short, plan.IsPath short source target ∧ (short.map (·.source) ++ [target]).Nodup := by
  induction path generalizing source with
  | nil => exact ⟨[], hpath, List.pairwise_singleton _ _⟩
  | cons edge rest ih =>
      obtain ⟨hedge, rfl, hrest⟩ := hpath
      obtain ⟨short, hshort, hnodup⟩ := ih hrest
      by_cases hvisited : edge.source ∈ short.map (·.source) ++ [target]
      · obtain ⟨later, hsuffix, hlater⟩ := hshort.exists_suffix hvisited
        have hsub : (later.map (·.source) ++ [target]).Sublist (short.map (·.source) ++ [target]) :=
          (hsuffix.sublist.map _).append_right _
        exact ⟨later, hlater, hnodup.sublist hsub⟩
      · exact ⟨edge :: short, ⟨hedge, rfl, hshort⟩, List.nodup_cons.mpr ⟨hvisited, hnodup⟩⟩

/-! ### Ranks -/

section Rank

variable {rank : String → Nat} (hrank : ∀ edge ∈ plan.edges, rank edge.source < rank edge.destination)

include hrank

theorem IsPath.add_length_le (hpath : plan.IsPath path source target) :
    rank source + path.length ≤ rank target := by
  induction path generalizing source with
  | nil => exact Nat.le_of_eq (congrArg rank hpath)
  | cons edge rest ih =>
      obtain ⟨hedge, rfl, hrest⟩ := hpath
      calc rank edge.source + (rest.length + 1)
          = rank edge.source + 1 + rest.length := by omega
        _ ≤ rank edge.destination + rest.length := Nat.add_le_add_right (hrank edge hedge) _
        _ ≤ rank target := ih hrest

/-- A rank that goes up along every edge, and from one to the next along some edge into each vertex that
is not of the lowest rank, is the length of the longest path. -/
theorem isGreatest_pathLengths (hentered : ∀ name, rank name ≠ 0 →
    ∃ edge ∈ plan.edges, edge.destination = name ∧ rank name = rank edge.source + 1) (name : String) :
    IsGreatest (plan.pathLengths name) (rank name) := by
  constructor
  · induction hlevel : rank name generalizing name with
    | zero => exact ⟨[], name, rfl, rfl⟩
    | succ level ih =>
        obtain ⟨edge, hedge, rfl, hnext⟩ := hentered name (by omega)
        obtain ⟨path, source, hpath, hlength⟩ := ih edge.source (by omega)
        refine ⟨path ++ [edge], source, hpath.concat hedge, ?_⟩
        rw [List.length_append, hlength, List.length_singleton]
  · rintro length ⟨path, source, hpath, rfl⟩
    exact Nat.le_trans (Nat.le_add_left _ _) (hpath.add_length_le hrank)

end Rank

end JobFlow.Plan
