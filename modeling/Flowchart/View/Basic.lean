import Flowchart.Chart.Graph

/-!
# The structure of a chart

A view forgets how a chart looks and keeps how it is connected: its vertices and its arcs.  The
vertices are the ids of the nodes and, after them, the ids that only edges mention.  The arcs are the
edges, told apart by source, target and id; an edge that repeats all three of another one replaces
its label and stays in its place.

Everything is in the order of the first mention, and so are the answers: neighbours, roots and
leaves.
-/

namespace Flowchart

/-- A connection between two vertices. -/
structure Arc where
  source : String
  target : String
  /-- The id of the edge. -/
  key : String
  label : Option String
deriving DecidableEq, Repr

/-- Two arcs that are the same connection. -/
def Arc.same (a b : Arc) : Bool :=
  a.source = b.source && a.target = b.target && a.key = b.key

/-- Add an arc, or replace the label of the same connection. -/
def Arc.addTo (a : Arc) : List Arc → List Arc
  | [] => [a]
  | b :: arcs => if a.same b then a :: arcs else b :: a.addTo arcs

/-- The arc of an edge. -/
def Arc.ofEdge (e : Edge) : Arc := ⟨e.source, e.target, e.id, e.label⟩

/-- A chart and its arcs. -/
structure View where
  graph : Graph
  arcs : List Arc
deriving Repr

namespace View

/-- The view of a chart. -/
def ofGraph (g : Graph) : View :=
  ⟨g, g.edges.foldl (fun arcs e => (Arc.ofEdge e).addTo arcs) []⟩

/-- The vertices, in the order of their first mention. -/
def vertices (v : View) : List String :=
  (v.graph.nodeIds ++ v.graph.edges.flatMap fun e => [e.source, e.target]).eraseDups

/-! ### Neighbours -/

/-- The arcs that leave a vertex, in the order of their first mention. -/
def arcsFrom (v : View) (x : String) : List Arc := v.arcs.filter fun a => a.source = x

/-- The arcs that enter a vertex, in the order of their first mention. -/
def arcsTo (v : View) (x : String) : List Arc := v.arcs.filter fun a => a.target = x

/-- The vertices that a vertex points to. -/
def successors (v : View) (x : String) : List String := ((v.arcsFrom x).map Arc.target).eraseDups

/-- The vertices that point to a vertex. -/
def predecessors (v : View) (x : String) : List String := ((v.arcsTo x).map Arc.source).eraseDups

/-- The arcs that leave a vertex, those with the same target together. -/
def outArcs (v : View) (x : String) : List Arc :=
  let out := v.arcsFrom x
  (out.map Arc.target).eraseDups.flatMap fun y => out.filter fun a => a.target = y

/-- The arcs, vertex by vertex. -/
def allArcs (v : View) : List Arc := v.vertices.flatMap v.outArcs

/-- The ids of the nodes that no edge enters, in node order. -/
def roots (v : View) : List String :=
  v.graph.nodeIds.filter fun x => (v.arcsTo x).isEmpty

/-- The ids of the nodes that no edge leaves, in node order. -/
def leaves (v : View) : List String :=
  v.graph.nodeIds.filter fun x => (v.arcsFrom x).isEmpty

end View
end Flowchart
