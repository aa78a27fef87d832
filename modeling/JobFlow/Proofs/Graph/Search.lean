import Mathlib.Data.List.Basic
import JobFlow.Graph.Order

/-!
What the two searches guarantee. The first pass lists every node, and the second accepts a list only if
each node comes after all of its predecessors, because unwinding from a node whose predecessor was
still fresh would have visited that predecessor too.
-/

namespace JobFlow.Search

variable {α : Type} [DecidableEq α]

theorem explore_covers (next : α → List α) (fresh stack finished : List α) {node : α}
    (h : node ∈ fresh ∨ node ∈ stack ∨ node ∈ finished) :
    node ∈ (explore next fresh stack finished).1 ∨ node ∈ (explore next fresh stack finished).2 := by
  fun_induction explore next fresh stack finished with
  | case1 fresh finished =>
      rcases h with hfresh | hstack | hfinished
      · exact Or.inl hfresh
      · cases hstack
      · exact Or.inr hfinished
  | case2 fresh finished top below htop rest ih =>
      apply ih
      rcases h with hfresh | hstack | hfinished
      · by_cases heq : node = top
        · exact Or.inr (Or.inl (by simp [heq]))
        · exact Or.inl ((List.mem_erase_of_ne heq).mpr hfresh)
      · exact Or.inr (Or.inl (List.mem_append_right _ hstack))
      · exact Or.inr (Or.inr hfinished)
  | case3 fresh finished top below htop ih =>
      apply ih
      rcases h with hfresh | hstack | hfinished
      · exact Or.inl hfresh
      · rcases List.mem_cons.mp hstack with rfl | hbelow
        · refine Or.inr (Or.inr ?_)
          split
          next hmem => exact hmem
          next => exact List.mem_cons_self
        · exact Or.inr (Or.inl hbelow)
      · refine Or.inr (Or.inr ?_)
        split
        next => exact hfinished
        next => exact List.mem_cons_of_mem _ hfinished

/-- What exploring leaves fresh was fresh before and was not on the stack. -/
theorem explore_fresh (next : α → List α) (fresh stack finished : List α) (hnodup : fresh.Nodup) :
    (explore next fresh stack finished).1.Nodup ∧
      ∀ node ∈ (explore next fresh stack finished).1, node ∈ fresh ∧ node ∉ stack := by
  fun_induction explore next fresh stack finished with
  | case1 fresh finished => exact ⟨hnodup, fun node hnode => ⟨hnode, by simp⟩⟩
  | case2 fresh finished top below htop rest ih =>
      obtain ⟨hleft, hsub⟩ := ih (hnodup.erase top)
      refine ⟨hleft, fun node hnode => ?_⟩
      obtain ⟨hfresh, hstack⟩ := hsub node hnode
      exact ⟨List.mem_of_mem_erase hfresh, fun h => hstack (List.mem_append_right _ h)⟩
  | case3 fresh finished top below htop ih =>
      obtain ⟨hleft, hsub⟩ := ih hnodup
      refine ⟨hleft, fun node hnode => ?_⟩
      obtain ⟨hfresh, hbelow⟩ := hsub node hnode
      refine ⟨hfresh, fun h => ?_⟩
      rcases List.mem_cons.mp h with rfl | h
      · exact htop hfresh
      · exact hbelow h

def startFrom (next : α → List α) (state : List α × List α) (node : α) : List α × List α :=
  if node ∈ state.1 then explore next state.1 [node] state.2 else state

/-- After some starts, none of them is fresh any more and no node got lost. -/
theorem foldl_startFrom (next : α → List α) (starts : List α) (state : List α × List α)
    (hnodup : state.1.Nodup) :
    (∀ node, node ∈ state.1 ∨ node ∈ state.2 → node ∈ (starts.foldl (startFrom next) state).1 ∨
      node ∈ (starts.foldl (startFrom next) state).2) ∧
    ∀ node ∈ (starts.foldl (startFrom next) state).1, node ∈ state.1 ∧ node ∉ starts := by
  induction starts generalizing state with
  | nil => exact ⟨fun _ h => h, fun _ h => ⟨h, by simp⟩⟩
  | cons start later ih =>
      rw [List.foldl_cons]
      by_cases hstart : start ∈ state.1
      · have hexplored := explore_fresh next state.1 [start] state.2 hnodup
        obtain ⟨hcovers, hfresh⟩ := ih (explore next state.1 [start] state.2) hexplored.1
        unfold startFrom at hcovers hfresh ⊢
        rw [if_pos hstart]
        constructor
        · intro node hnode
          apply hcovers
          apply explore_covers
          exact hnode.imp_right Or.inr
        · intro node hnode
          obtain ⟨hleft, hlater⟩ := hfresh node hnode
          obtain ⟨hbefore, hnotStart⟩ := hexplored.2 node hleft
          refine ⟨hbefore, fun h => ?_⟩
          rcases List.mem_cons.mp h with rfl | h
          · exact hnotStart (List.mem_singleton.mpr rfl)
          · exact hlater h
      · obtain ⟨hcovers, hfresh⟩ := ih state hnodup
        have hsame : startFrom next state start = state := if_neg hstart
        rw [hsame]
        refine ⟨hcovers, fun node hnode => ?_⟩
        obtain ⟨hleft, hlater⟩ := hfresh node hnode
        refine ⟨hleft, fun h => ?_⟩
        rcases List.mem_cons.mp h with rfl | h
        · exact hstart hleft
        · exact hlater h

theorem mem_finishingOrder (next : α → List α) {nodes : List α} (hnodup : nodes.Nodup) {node : α}
    (hnode : node ∈ nodes) : node ∈ finishingOrder next nodes := by
  obtain ⟨hcovers, hfresh⟩ := foldl_startFrom next nodes (nodes, []) hnodup
  rcases hcovers node (Or.inl hnode) with hleft | hfinished
  · exact absurd hnode (hfresh node hleft).2
  · exact hfinished

theorem unwind_cons_ne_nil (previous : α → List α) {fresh : List α} {top : α} (below : List α)
    (htop : top ∈ fresh) : (unwind previous fresh (top :: below)).2 ≠ [] := by
  rw [unwind, if_pos htop]
  simp

/-- A start that reaches at most itself has no fresh predecessor but itself. -/
theorem unwind_alone (previous : α → List α) {fresh left visited : List α} {start : α}
    (hstart : start ∈ fresh) (hunwind : unwind previous fresh [start] = (left, visited))
    (hfew : ∀ first second rest, visited ≠ first :: second :: rest) :
    left = fresh.erase start ∧ ∀ node ∈ previous start, node ∉ fresh.erase start := by
  rw [unwind, if_pos hstart] at hunwind
  simp only [List.append_nil, Prod.mk.injEq] at hunwind
  obtain ⟨hleft, hvisited⟩ := hunwind
  cases hstack : ((previous start).filter (· ∈ fresh.erase start)).reverse with
  | nil =>
      rw [hstack, unwind] at hleft
      refine ⟨hleft.symm, fun node hnode hfresh => ?_⟩
      have hmem : node ∈ ((previous start).filter (· ∈ fresh.erase start)).reverse := by
        rw [List.mem_reverse, List.mem_filter]
        exact ⟨hnode, decide_eq_true hfresh⟩
      rw [hstack] at hmem
      cases hmem
  | cons top below =>
      have htop : top ∈ ((previous start).filter (· ∈ fresh.erase start)).reverse := by
        rw [hstack]
        exact List.mem_cons_self
      rw [List.mem_reverse, List.mem_filter, decide_eq_true_iff] at htop
      have hne := unwind_cons_ne_nil previous below htop.2
      rw [hstack] at hvisited
      obtain ⟨second, rest, hrest⟩ := List.exists_cons_of_ne_nil hne
      rw [hrest] at hvisited
      exact absurd hvisited.symm (hfew start second rest)

/-- In a list that the second pass accepts, a node comes after its predecessors. The predecessor was
fresh at first and is not any more when the node is started, so it was started before. -/
theorem idxOf_lt_of_secondVisited? (previous : α → List α) (order : List α) {fresh : List α}
    (hnone : secondVisited? previous fresh order = none) {source node : α} (hnode : node ∈ fresh)
    (horder : node ∈ order) (hsource : source ∈ fresh) (hprevious : source ∈ previous node)
    (hne : source ≠ node) : order.idxOf source < order.idxOf node := by
  induction order generalizing fresh with
  | nil => cases horder
  | cons start later ih =>
      rw [secondVisited?] at hnone
      rcases hunwind : unwind previous fresh [start] with ⟨left, visited⟩
      rw [hunwind] at hnone
      have hfew : ∀ first second rest, visited ≠ first :: second :: rest := by
        rintro first second rest rfl
        simp at hnone
      have hlater : secondVisited? previous left later = none := by
        rcases visited with - | ⟨first, - | ⟨second, rest⟩⟩
        · exact hnone
        · exact hnone
        · exact absurd rfl (hfew first second rest)
      by_cases hstart : start ∈ fresh
      · obtain ⟨rfl, halone⟩ := unwind_alone previous hstart hunwind hfew
        by_cases hself : node = start
        · subst hself
          exact absurd ((List.mem_erase_of_ne hne).mpr hsource) (halone source hprevious)
        · have hmem := (List.mem_cons.mp horder).resolve_left hself
          rw [List.idxOf_cons_ne _ (Ne.symm hself)]
          by_cases hfirst : source = start
          · rw [hfirst, List.idxOf_cons_self]
            exact Nat.succ_pos _
          · rw [List.idxOf_cons_ne _ (Ne.symm hfirst)]
            exact Nat.succ_lt_succ (ih hlater ((List.mem_erase_of_ne hself).mpr hnode) hmem
              ((List.mem_erase_of_ne hfirst).mpr hsource))
      · have hleft : left = fresh := by
          rw [unwind, if_neg hstart, unwind] at hunwind
          exact (Prod.mk.inj hunwind).1.symm
        have hself : node ≠ start := fun h => hstart (h ▸ hnode)
        have hfirst : source ≠ start := fun h => hstart (h ▸ hsource)
        rw [List.idxOf_cons_ne _ (Ne.symm hself), List.idxOf_cons_ne _ (Ne.symm hfirst)]
        exact Nat.succ_lt_succ (ih (hleft ▸ hlater) hnode
          ((List.mem_cons.mp horder).resolve_left hself) hsource)

/-- In a topological order a node comes after its predecessors. -/
theorem idxOf_lt_of_topologicalOrder {next previous : α → List α} {nodes order : List α}
    (hnodup : nodes.Nodup) (horder : topologicalOrder next previous nodes = .ok order)
    {source node : α} (hnode : node ∈ nodes) (hsource : source ∈ nodes)
    (hprevious : source ∈ previous node) (hne : source ≠ node) :
    order.idxOf source < order.idxOf node := by
  unfold topologicalOrder at horder
  dsimp only at horder
  split at horder
  next => cases horder
  next hnone =>
    cases horder
    exact idxOf_lt_of_secondVisited? previous _ hnone hnode (mem_finishingOrder next hnodup hnode)
      hsource hprevious hne

end JobFlow.Search
