import Flowchart.Chart.Style

/-!
# Charts

A chart is a list of nodes, a list of edges that name their ends by node ids, and the layout
options.  The lists keep the order in which things first appeared.  Nothing forces the ids to be
distinct or the ends of an edge to be listed: a chart that was read satisfies both, and the
operations here say what happens when one does not.
-/

namespace Flowchart

/-- A node of a chart. -/
structure Node where
  /-- The identifier by which edges refer to the node. -/
  id : String
  shape : Shape
  label : String
  style : Option NodeStyle := none
deriving DecidableEq, Repr, Inhabited

/-- What makes two mentions in a text the same node: shape and label. -/
abbrev Node.Key := Shape × String

/-- The key of a node. -/
def Node.key (n : Node) : Node.Key := (n.shape, n.label)

/-- A directed connection between two nodes. -/
structure Edge where
  id : String
  /-- The id of the node where the connection starts. -/
  source : String
  /-- The id of the node where the connection ends. -/
  target : String
  label : Option String := none
  style : Option EdgeStyle := none
deriving DecidableEq, Repr, Inhabited

/-- Whether a connection is drawn dashed. -/
def Edge.dashed (e : Edge) : Bool :=
  (e.style.bind EdgeStyle.strokeStyle) = some .dashed

/-- A chart. -/
structure Graph where
  nodes : List Node := []
  edges : List Edge := []
  options : Options := {}
deriving DecidableEq, Repr, Inhabited

namespace Graph

/-- The ids of the nodes, in node order. -/
def nodeIds (g : Graph) : List String := g.nodes.map Node.id

/-- The first node with an id. -/
def node? (g : Graph) (id : String) : Option Node :=
  g.nodes.find? fun n => n.id = id

/-- The last node with an id. -/
def lastNode? (g : Graph) (id : String) : Option Node :=
  g.nodes.reverse.find? fun n => n.id = id

/-- The first node with a label and, if one is given, a shape. -/
def nodeLabelled? (g : Graph) (label : String) (shape : Option Shape) : Option Node :=
  g.nodes.find? fun n => n.label = label ∧ (shape = none ∨ shape = some n.shape)

/-- The edges that leave a node. -/
def edgesFrom (g : Graph) (id : String) : List Edge :=
  g.edges.filter fun e => e.source = id

/-- The edges that enter a node. -/
def edgesTo (g : Graph) (id : String) : List Edge :=
  g.edges.filter fun e => e.target = id

end Graph
end Flowchart
