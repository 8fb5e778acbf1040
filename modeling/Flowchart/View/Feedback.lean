import Flowchart.View.Basic

/-!
# Feedback edges

A depth-first search walks through the chart, first from the roots and then from every node it has
not seen yet.  An arc that leads back to a vertex on the current path closes a cycle: it is a
*feedback* arc.  Without the feedback arcs the part of the chart that can be reached has no cycle.

The search keeps a stack of vertices, each with the arcs out of it that have not been followed yet,
and the list of vertices it has not seen.  Each step shortens the list or the stack's arcs.
-/

namespace Flowchart
namespace View

/-- A vertex on the current path and the arcs out of it that are still to be followed. -/
structure Frame where
  vertex : String
  arcs : List Arc
deriving Repr

/-- The number of steps a stack takes if nothing new is seen. -/
def Frame.weight : List Frame → Nat
  | [] => 0
  | f :: stack => f.arcs.length + 1 + weight stack

/-- Search until the stack is empty: the ids of the feedback arcs, in the order of their discovery,
and the vertices that are still not seen. -/
def search (v : View) (stack : List Frame) (unseen : List String) : List String × List String :=
  match stack with
  | [] => ([], unseen)
  | ⟨_, []⟩ :: stack => search v stack unseen
  | ⟨x, a :: arcs⟩ :: stack =>
    if a.target = x ∨ a.target ∈ stack.map Frame.vertex then
      let (later, unseen) := search v (⟨x, arcs⟩ :: stack) unseen
      (a.key :: later, unseen)
    else if a.target ∈ unseen then
      search v (⟨a.target, v.outArcs a.target⟩ :: ⟨x, arcs⟩ :: stack) (unseen.erase a.target)
    else search v (⟨x, arcs⟩ :: stack) unseen
termination_by (unseen.length, Frame.weight stack)
decreasing_by
  · simp [Frame.weight, Prod.lex_def]
  · simp [Frame.weight, Prod.lex_def]
  · rename_i h
    have hpos := List.length_pos_of_mem h
    simp only [Prod.lex_def, List.length_erase_of_mem h]
    omega
  · simp [Frame.weight, Prod.lex_def]

/-- Search from each of some vertices that has not been seen when its turn comes. -/
def searchFrom (v : View) : List String → List String → List String
  | [], _ => []
  | x :: starts, unseen =>
    if x ∈ unseen then
      let (found, unseen) := v.search [⟨x, v.outArcs x⟩] (unseen.erase x)
      found ++ v.searchFrom starts unseen
    else v.searchFrom starts unseen

/-- The ids of the feedback edges, in the order of their discovery. -/
def feedback (v : View) : List String :=
  v.searchFrom (v.roots ++ v.graph.nodeIds) v.vertices

end View
end Flowchart
