import JobFlow.Id

/-!
Depth-first search over a finite directed graph given by its neighbours, and the topological order
made from two passes of it. The first pass lists the nodes by decreasing finishing time. The second
unwinds the reversed graph in that order: each start reaches nothing new beyond itself exactly when
no cycle is left, and otherwise the first further node lies on one.
-/

namespace JobFlow.Search

variable {α : Type} [DecidableEq α]

/-- Explores from a stack. A node that is still fresh is marked and stays below its fresh
neighbours, of which the last is taken first; a node that is met again is finished, once, and put
before those that finished earlier. The answer holds the nodes left fresh and those finished. -/
def explore (next : α → List α) (fresh stack finished : List α) : List α × List α :=
  match stack with
  | [] => (fresh, finished)
  | node :: below =>
    if node ∈ fresh then
      let rest := fresh.erase node
      explore next rest (((next node).filter (· ∈ rest)).reverse ++ node :: below) finished
    else
      explore next fresh below (if node ∈ finished then finished else node :: finished)
termination_by (fresh.length, stack.length)
decreasing_by
  · have length := List.length_erase_of_mem ‹node ∈ fresh›
    have positive := List.length_pos_of_mem ‹node ∈ fresh›
    exact Prod.Lex.left _ _ (by omega)
  · exact Prod.Lex.right _ (by simp)

/-- All nodes by decreasing finishing time, the search starting from each fresh node in turn. -/
def finishingOrder (next : α → List α) (nodes : List α) : List α :=
  (nodes.foldl (fun (fresh, finished) node =>
    if node ∈ fresh then explore next fresh [node] finished else (fresh, finished))
    (nodes, [])).2

/-- Takes nodes from a stack and lists those that were fresh, each replaced by its fresh neighbours.
The answer also holds the nodes left fresh. -/
def unwind (next : α → List α) (fresh stack : List α) : List α × List α :=
  match stack with
  | [] => (fresh, [])
  | node :: below =>
    if node ∈ fresh then
      let rest := fresh.erase node
      let (left, visited) := unwind next rest (((next node).filter (· ∈ rest)).reverse ++ below)
      (left, node :: visited)
    else
      unwind next fresh below
termination_by (fresh.length, stack.length)
decreasing_by
  · have length := List.length_erase_of_mem ‹node ∈ fresh›
    have positive := List.length_pos_of_mem ‹node ∈ fresh›
    exact Prod.Lex.left _ _ (by omega)
  · exact Prod.Lex.right _ (by simp)

/-- The second node that some start reaches, for the first start that reaches two. -/
def secondVisited? (previous : α → List α) (fresh : List α) : List α → Option α
  | [] => none
  | start :: later =>
    match unwind previous fresh [start] with
    | (_, _ :: second :: _) => some second
    | (left, _) => secondVisited? previous left later

/-- The nodes with every source before its targets, or a node of a cycle. -/
def topologicalOrder (next previous : α → List α) (nodes : List α) : Except α (List α) :=
  let order := finishingOrder next nodes
  match secondVisited? previous nodes order with
  | some node => .error node
  | none => .ok order

end JobFlow.Search
