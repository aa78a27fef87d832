import Mathlib.Logic.Relation
import JobFlow.Proofs.Graph.Search

/-!
Finishing times. While the first pass explores, a node that was met and has not finished reaches
everything that stands above it on the stack, so that each of its targets has finished before it or
leads back to it. Main statement: the order of the two passes lists every node once, and it is refused
only because of a node on a cycle.
-/

namespace JobFlow.Search

variable {α : Type} {next : α → List α}

def Reaches (next : α → List α) : α → α → Prop :=
  Relation.ReflTransGen (fun node target => target ∈ next node)

/-- In a list of nodes by decreasing finishing time, each target of a node has finished before it or
leads back to it. -/
def Settled (next : α → List α) : List α → Prop
  | [] => True
  | node :: later => (∀ target ∈ next node, target ∈ later ∨ Reaches next target node) ∧ Settled next later

/-- A target that stands before its node in such a list leads back to the node. -/
theorem Settled.reaches {earlier later : List α} {node target : α} (hsettled : Settled next (earlier ++ node :: later))
    (htarget : target ∈ next node) (hlater : target ∉ later) : Reaches next target node := by
  induction earlier with
  | nil => exact (hsettled.1 target htarget).resolve_left hlater
  | cons first earlier ih => exact ih hsettled.2

/-- What the first pass keeps: a node that was met and has not finished stands on the stack, reaches what
stands above it there, and each of its targets has finished, stands above it or leads back to it. -/
structure Exploring (next : α → List α) (nodes fresh stack finished : List α) : Prop where
  freshNodup : fresh.Nodup
  finishedNodup : finished.Nodup
  known : ∀ node, node ∈ fresh ∨ node ∈ stack ∨ node ∈ finished → node ∈ nodes
  covers : ∀ node ∈ nodes, node ∈ fresh ∨ node ∈ stack ∨ node ∈ finished
  pending : ∀ above node below, stack = above ++ node :: below → node ∉ above → node ∉ fresh →
    node ∉ finished → (∀ other ∈ above, Reaches next node other) ∧
      ∀ target ∈ next node, target ∈ finished ∨ target ∈ above ∨ Reaches next target node
  settled : Settled next finished

namespace Exploring

variable {nodes fresh stack finished : List α}

theorem start (hnodup : nodes.Nodup) : Exploring next nodes nodes [] [] where
  freshNodup := hnodup
  finishedNodup := List.nodup_nil
  known node hnode := by simpa using hnode
  covers node hnode := Or.inl hnode
  pending above node below hstack := by simp at hstack
  settled := trivial

theorem push (h : Exploring next nodes fresh [] finished) {node : α} (hnode : node ∈ fresh) :
    Exploring next nodes fresh [node] finished where
  freshNodup := h.freshNodup
  finishedNodup := h.finishedNodup
  known other hother := by
    rcases hother with hfresh | hstack | hfinished
    · exact h.known other (Or.inl hfresh)
    · rw [List.mem_singleton.mp hstack]
      exact h.known node (Or.inl hnode)
    · exact h.known other (Or.inr (Or.inr hfinished))
  covers other hother := (h.covers other hother).imp_right (Or.inr ∘ fun hrest =>
    hrest.resolve_left List.not_mem_nil)
  pending above other below hstack _ hother := by
    obtain ⟨rfl, rfl⟩ : above = [] ∧ other = node := by
      cases above with
      | nil => exact ⟨rfl, (List.cons.inj hstack).1.symm⟩
      | cons first above => simp at hstack
    exact absurd hnode hother
  settled := h.settled

/-- A node that was met and has not finished stands below the top of the stack, and so leads to it. -/
theorem reaches_top {top node : α} {below : List α} (h : Exploring next nodes fresh (top :: below) finished)
    (hnode : node ∈ nodes) (hmet : node ∉ fresh) : node ∈ finished ∨ Reaches next node top := by
  by_cases hdone : node ∈ finished
  · exact Or.inl hdone
  · have hstack := ((h.covers node hnode).resolve_left hmet).resolve_right hdone
    obtain ⟨above, rest, hsplit, habove⟩ := List.eq_append_cons_of_mem hstack
    obtain ⟨hreach, -⟩ := h.pending above node rest hsplit habove hmet hdone
    cases above with
    | nil =>
        obtain ⟨rfl, -⟩ := List.cons.inj hsplit
        exact Or.inr .refl
    | cons first above =>
        obtain ⟨rfl, -⟩ := List.cons.inj hsplit
        exact Or.inr (hreach top List.mem_cons_self)

variable [DecidableEq α]

theorem mark (hclosed : ∀ node ∈ nodes, ∀ target ∈ next node, target ∈ nodes) {top : α} {below : List α}
    (h : Exploring next nodes fresh (top :: below) finished) (htop : top ∈ fresh) {targets : List α}
    (htargets : ∀ node, node ∈ targets ↔ node ∈ next top ∧ node ∈ fresh.erase top) :
    Exploring next nodes (fresh.erase top) (targets ++ top :: below) finished := by
  refine ⟨h.freshNodup.erase top, h.finishedNodup, ?_, ?_, ?_, h.settled⟩
  · rintro node (hfresh | hstack | hfinished)
    · exact h.known node (Or.inl (List.mem_of_mem_erase hfresh))
    · rcases List.mem_append.mp hstack with hnew | hold
      · exact h.known node (Or.inl (List.mem_of_mem_erase ((htargets node).mp hnew).2))
      · exact h.known node (Or.inr (Or.inl hold))
    · exact h.known node (Or.inr (Or.inr hfinished))
  · intro node hmem
    rcases h.covers node hmem with hfresh | hstack | hfinished
    · by_cases heq : node = top
      · exact Or.inr (Or.inl (by simp [heq]))
      · exact Or.inl ((List.mem_erase_of_ne heq).mpr hfresh)
    · exact Or.inr (Or.inl (List.mem_append_right _ hstack))
    · exact Or.inr (Or.inr hfinished)
  · intro above node rest hstack habove hfresh hfinished
    -- A target that was put on the stack is fresh, so the place of the node is below the targets.
    obtain ⟨high, rfl, hrest⟩ : ∃ high, above = targets ++ high ∧ top :: below = high ++ node :: rest := by
      rcases List.append_eq_append_iff.mp hstack with ⟨high, habove, hrest⟩ | ⟨high, hsplit, hrest⟩
      · exact ⟨high, habove, hrest⟩
      · cases high with
        | nil => exact ⟨[], by simpa using hsplit.symm, by simpa using hrest.symm⟩
        | cons first high =>
            obtain ⟨rfl, -⟩ := List.cons.inj hrest
            have hnew := (htargets node).mp (hsplit ▸ List.mem_append_right above List.mem_cons_self)
            exact absurd hnew.2 hfresh
    cases high with
    | nil =>
        obtain ⟨rfl, rfl⟩ := List.cons.inj hrest
        rw [List.append_nil]
        refine ⟨fun other hother => .single ((htargets other).mp hother).1, fun target htarget => ?_⟩
        by_cases hleft : target ∈ fresh.erase top
        · exact Or.inr (Or.inl ((htargets target).mpr ⟨htarget, hleft⟩))
        by_cases hsame : target = top
        · exact Or.inr (Or.inr (hsame ▸ .refl))
        · have hmet : target ∉ fresh := fun hmem => hleft ((List.mem_erase_of_ne hsame).mpr hmem)
          have hnode := hclosed top (h.known top (Or.inl htop)) target htarget
          exact (h.reaches_top hnode hmet).imp_right Or.inr
    | cons first high =>
        obtain ⟨rfl, hbelow⟩ := List.cons.inj hrest
        have hne : node ≠ top := fun heq => habove (heq ▸ by simp)
        have hmet : node ∉ fresh := fun hmem => hfresh ((List.mem_erase_of_ne hne).mpr hmem)
        obtain ⟨hreach, hends⟩ := h.pending (top :: high) node rest hrest
          (fun hmem => habove (List.mem_append_right _ hmem)) hmet hfinished
        refine ⟨fun other hother => ?_, fun target htarget => ?_⟩
        · rcases List.mem_append.mp hother with hmem | hmem
          · exact (hreach top List.mem_cons_self).tail ((htargets other).mp hmem).1
          · exact hreach other hmem
        · exact (hends target htarget).imp_right (Or.imp_left (List.mem_append_right _))

/-- Taking the top of the stack off, which has been met before and has finished by now. -/
theorem pop {top : α} {below : List α} (h : Exploring next nodes fresh (top :: below) finished)
    (htop : top ∉ fresh) : Exploring next nodes fresh below
      (if top ∈ finished then finished else top :: finished) := by
  have hmem : ∀ node, node ∈ (if top ∈ finished then finished else top :: finished) ↔
      node = top ∨ node ∈ finished := by
    intro node
    split
    next hdone =>
      constructor
      · exact Or.inr
      · rintro (rfl | hnode)
        · exact hdone
        · exact hnode
    next => exact List.mem_cons
  refine ⟨h.freshNodup, ?_, ?_, ?_, ?_, ?_⟩
  · split
    next => exact h.finishedNodup
    next hdone => exact List.nodup_cons.mpr ⟨hdone, h.finishedNodup⟩
  · intro node hnode
    rw [hmem] at hnode
    apply h.known
    rcases hnode with hfresh | hbelow | rfl | hfinished
    · exact Or.inl hfresh
    · exact Or.inr (Or.inl (List.mem_cons_of_mem top hbelow))
    · exact Or.inr (Or.inl List.mem_cons_self)
    · exact Or.inr (Or.inr hfinished)
  · intro node hnode
    rw [hmem]
    rcases h.covers node hnode with hfresh | hstack | hfinished
    · exact Or.inl hfresh
    · rcases List.mem_cons.mp hstack with heq | hbelow
      · exact Or.inr (Or.inr (Or.inl heq))
      · exact Or.inr (Or.inl hbelow)
    · exact Or.inr (Or.inr (Or.inr hfinished))
  · intro above node rest hstack habove hfresh hfinished
    rw [hmem, not_or] at hfinished
    have hsplit : top :: below = (top :: above) ++ node :: rest := by rw [hstack, List.cons_append]
    obtain ⟨hreach, htargets⟩ := h.pending (top :: above) node rest hsplit
      (by simpa using ⟨hfinished.1, habove⟩) hfresh hfinished.2
    refine ⟨fun other hother => hreach other (List.mem_cons_of_mem top hother),
      fun target htarget => ?_⟩
    rw [hmem]
    rcases htargets target htarget with hdone | hplace | hback
    · exact Or.inl (Or.inr hdone)
    · rcases List.mem_cons.mp hplace with heq | hhigh
      · exact Or.inl (Or.inl heq)
      · exact Or.inr (Or.inl hhigh)
    · exact Or.inr (Or.inr hback)
  · split
    next => exact h.settled
    next hdone =>
      refine ⟨fun target htarget => ?_, h.settled⟩
      obtain ⟨-, htargets⟩ := h.pending [] top below rfl List.not_mem_nil htop hdone
      rcases htargets target htarget with hfinished | habove | hback
      · exact Or.inl hfinished
      · cases habove
      · exact Or.inr hback

theorem explore (hclosed : ∀ node ∈ nodes, ∀ target ∈ next node, target ∈ nodes)
    (h : Exploring next nodes fresh stack finished) :
    Exploring next nodes (Search.explore next fresh stack finished).1 []
      (Search.explore next fresh stack finished).2 := by
  fun_induction Search.explore next fresh stack finished with
  | case1 fresh finished => exact h
  | case2 fresh finished top below htop rest ih => exact ih (h.mark hclosed htop (by simp [rest]))
  | case3 fresh finished top below htop ih => exact ih (h.pop htop)

theorem foldl_startFrom (hclosed : ∀ node ∈ nodes, ∀ target ∈ next node, target ∈ nodes) (starts : List α)
    {state : List α × List α} (h : Exploring next nodes state.1 [] state.2) :
    Exploring next nodes (starts.foldl (startFrom next) state).1 []
      (starts.foldl (startFrom next) state).2 := by
  induction starts generalizing state with
  | nil => exact h
  | cons start later ih =>
      rw [List.foldl_cons]
      apply ih
      unfold startFrom
      split
      next hstart => exact (h.push hstart).explore hclosed
      next => exact h

end Exploring

/-! ### The second pass -/

variable [DecidableEq α]

/-- A fresh start visits itself, and next one of its predecessors that are fresh, if there are any. -/
theorem unwind_start (previous : α → List α) {fresh : List α} {start : α} (hstart : start ∈ fresh) :
    unwind previous fresh [start] = (fresh.erase start, [start]) ∨
      ∃ left second rest, unwind previous fresh [start] = (left, start :: second :: rest) ∧
        second ∈ previous start ∧ second ∈ fresh.erase start := by
  rw [unwind, if_pos hstart]
  cases hstack : ((previous start).filter (· ∈ fresh.erase start)).reverse with
  | nil =>
      left
      simp only [hstack, List.append_nil]
      rw [unwind]
  | cons top below =>
      right
      have hmem : top ∈ ((previous start).filter (· ∈ fresh.erase start)).reverse :=
        hstack ▸ List.mem_cons_self
      obtain ⟨hprevious, hfresh⟩ : top ∈ previous start ∧ top ∈ fresh.erase start := by simpa using hmem
      simp only [hstack, List.cons_append]
      rw [unwind, if_pos hfresh]
      exact ⟨_, top, _, rfl, hprevious, hfresh⟩

/-- The second node that a start reaches is a predecessor of the start that comes after it in the order. -/
theorem of_secondVisited? (previous : α → List α) (order : List α) {fresh : List α} (hnodup : fresh.Nodup)
    (hfresh : ∀ node ∈ fresh, node ∈ order) {second : α}
    (hsecond : secondVisited? previous fresh order = some second) :
    ∃ earlier start later, order = earlier ++ start :: later ∧ second ∈ later ∧
      second ∈ previous start := by
  induction order generalizing fresh with
  | nil => cases hsecond
  | cons start later ih =>
      have hlater : ∀ node ∈ fresh.erase start, node ∈ later := by
        intro node hnode
        obtain ⟨hne, hmem⟩ := hnodup.mem_erase_iff.mp hnode
        exact (List.mem_cons.mp (hfresh node hmem)).resolve_left hne
      have hrest : secondVisited? previous (fresh.erase start) later = some second →
          ∃ earlier first rest, start :: later = earlier ++ first :: rest ∧ second ∈ rest ∧
            second ∈ previous first := by
        intro hsome
        obtain ⟨earlier, first, rest, rfl, hplace⟩ := ih (hnodup.erase start) hlater hsome
        exact ⟨start :: earlier, first, rest, rfl, hplace⟩
      rw [secondVisited?] at hsecond
      by_cases hstart : start ∈ fresh
      · rcases unwind_start previous hstart with halone | ⟨left, top, rest, hfound, hprevious, hmem⟩
        · rw [halone] at hsecond
          exact hrest hsecond
        · rw [hfound] at hsecond
          obtain rfl := Option.some.inj hsecond
          exact ⟨[], start, later, rfl, hlater top hmem, hprevious⟩
      · rw [unwind, if_neg hstart, unwind] at hsecond
        rw [List.erase_of_not_mem hstart] at hrest
        exact hrest hsecond

/-! ### Both passes -/

section Passes

variable {nodes : List α} (hnodup : nodes.Nodup)

include hnodup

theorem settled_finishingOrder (hclosed : ∀ node ∈ nodes, ∀ target ∈ next node, target ∈ nodes) :
    (finishingOrder next nodes).Perm nodes ∧ Settled next (finishingOrder next nodes) := by
  have hstart : Exploring next nodes (nodes, ([] : List α)).1 [] (nodes, ([] : List α)).2 := .start hnodup
  have hexplored := hstart.foldl_startFrom hclosed nodes
  refine ⟨(List.perm_ext_iff_of_nodup hexplored.finishedNodup hnodup).mpr ?_, hexplored.settled⟩
  exact fun node => ⟨fun hnode => hexplored.known node (Or.inr (Or.inr hnode)),
    mem_finishingOrder next hnodup⟩

/-- A node for which the order is refused lies on a cycle of two nodes or more. -/
theorem cycle_of_topologicalOrder {previous : α → List α}
    (hclosed : ∀ node ∈ nodes, ∀ target ∈ next node, target ∈ nodes)
    (hprevious : ∀ source target, source ∈ previous target → target ∈ next source) {node : α}
    (hrefused : topologicalOrder next previous nodes = .error node) :
    node ∈ nodes ∧ ∃ other, other ≠ node ∧ other ∈ next node ∧ Reaches next other node := by
  obtain ⟨hperm, hsettled⟩ := settled_finishingOrder hnodup hclosed
  unfold topologicalOrder at hrefused
  dsimp only at hrefused
  split at hrefused
  next second hsecond =>
    cases hrefused
    obtain ⟨earlier, start, later, horder, hlater, hsource⟩ := of_secondVisited? previous _ hnodup
      (fun node hnode => hperm.mem_iff.mpr hnode) hsecond
    have hstart : start ∉ later := by
      have hdistinct : (earlier ++ start :: later).Nodup := horder ▸ hperm.nodup_iff.mpr hnodup
      exact (List.nodup_cons.mp (List.nodup_append.mp hdistinct).2.1).1
    rw [horder] at hperm hsettled
    refine ⟨hperm.mem_iff.mp (by simp [hlater]), start, ?_, hprevious node start hsource, ?_⟩
    · exact fun heq => hstart (heq ▸ hlater)
    · -- The start stands before the node, of which it is a target.
      obtain ⟨before, after, rfl⟩ := List.append_of_mem hlater
      have hplace : Settled next ((earlier ++ start :: before) ++ node :: after) := by
        simpa using hsettled
      exact hplace.reaches (hprevious node start hsource) (fun hafter => hstart (by simp [hafter]))
  next => cases hrefused

theorem perm_of_topologicalOrder {previous : α → List α}
    (hclosed : ∀ node ∈ nodes, ∀ target ∈ next node, target ∈ nodes) {order : List α}
    (horder : topologicalOrder next previous nodes = .ok order) : order.Perm nodes := by
  unfold topologicalOrder at horder
  dsimp only at horder
  split at horder
  next => cases horder
  next =>
    cases horder
    exact (settled_finishingOrder hnodup hclosed).1

end Passes

end JobFlow.Search
