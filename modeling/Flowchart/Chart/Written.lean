import Flowchart.Chart.Graph
import Flowchart.Text.Quoted

/-!
# Charts as text

The canonical text of a chart: first the directives for options that differ from the usual ones,
then a line for each edge, then a line for each node that takes part in no edge.  Nodes are written
in the brackets of their shape and edge labels in quotes, so that scanning finds them again.  There
is no text if the spacing has too many digits or an edge names a node that is not there; the spacing
comes first.

Two labels need a space to keep their brackets apart from those of the shape: a rectangle whose
label starts with `[` would otherwise open as a database, and a database whose label ends with `]`
would close too early.
-/

namespace Flowchart

/-- The text before a label. -/
def Shape.opening : Shape → List Char
  | .rectangle => ['[']
  | .diamond => ['{']
  | .ellipse => ['(']
  | .database => ['[', '[']

/-- The text after a label. -/
def Shape.closing : Shape → List Char
  | .rectangle => [']']
  | .diamond => ['}']
  | .ellipse => [')']
  | .database => [']', ']']

/-- A label with the space that keeps it apart from the brackets of its shape. -/
def Shape.pad (shape : Shape) (label : List Char) : List Char :=
  match shape with
  | .rectangle => if label.head? = some '[' then ' ' :: label else label
  | .database => if label.getLast? = some ']' then label ++ [' '] else label
  | _ => label

namespace Written

/-- A node with a shape and a label, as text. -/
def node (shape : Shape) (label : String) : List Char :=
  shape.opening ++ shape.pad label.toList ++ shape.closing

/-- A character of an edge label, as text. -/
def labelChar (c : Char) : List Char :=
  if c = '\\' ∨ c = '"' then ['\\', c] else [c]

/-- An edge label, as text. -/
def label (s : String) : List Char :=
  '"' :: s.toList.flatMap labelChar ++ ['"']

/-- An arrow, as text. -/
def arrow (dashed : Bool) : List Char :=
  if dashed then ['-', '-', '>'] else ['-', '>']

/-- A connection between two nodes, as text; an empty label is not written. -/
def connection (source target : Node.Key) (text : Option String) (dashed : Bool) : List Char :=
  let labelled :=
    match text.filter (· ≠ "") with
    | some s => label s ++ ' ' :: arrow dashed ++ [' ']
    | none => []
  node source.1 source.2 ++ ' ' :: arrow dashed ++ ' ' :: labelled ++ node target.1 target.2

/-- The line for a direction that is not the usual one. -/
def direction (o : Options) : List (List Char) :=
  if o.direction = ({} : Options).direction then []
  else [s!"@direction {o.direction.name}".toList]

/-- The line for a spacing that is not the usual one. -/
def spacing (o : Options) : Except Number.TooLong (List (List Char)) :=
  if o.nodeSpacing = ({} : Options).nodeSpacing then .ok []
  else (Number.write o.nodeSpacing).map fun n => [s!"@spacing {n}".toList]

/-- The lines for options that differ from the usual ones. -/
def directives (o : Options) : Except Number.TooLong (List (List Char)) :=
  (spacing o).map (direction o ++ ·)

/-- Lines as a text, in which each of them ends with a line feed. -/
def text (lines : List (List Char)) : String :=
  String.ofList (lines.flatMap (· ++ ['\n']))

end Written

/-! ### Whole charts -/

/-- An edge names a node that is not there. -/
structure UnknownNode where
  id : String
deriving DecidableEq, Repr

/-- What is reported for an unknown node. -/
def UnknownNode.message (e : UnknownNode) : String := Text.quote e.id

/-- Why a chart has no text. -/
inductive Unwritable where
  /-- The spacing has too many digits. -/
  | number (e : Number.TooLong)
  /-- An edge names a node that is not there. -/
  | unknownNode (e : UnknownNode)
deriving DecidableEq, Repr

namespace Graph

/-- The node an edge refers to.  Of several nodes with one id, the last is meant. -/
def endpoint (g : Graph) (id : String) : Except UnknownNode Node :=
  match g.lastNode? id with
  | some n => .ok n
  | none => .error ⟨id⟩

/-- The line of an edge. -/
def edgeLine (g : Graph) (e : Edge) : Except UnknownNode (List Char) := do
  let source ← g.endpoint e.source
  let target ← g.endpoint e.target
  return Written.connection source.key target.key e.label e.dashed

/-- Whether a node takes part in no edge. -/
def isIsolated (g : Graph) (n : Node) : Bool :=
  g.edges.all fun e => e.source ≠ n.id ∧ e.target ≠ n.id

/-- The lines of the canonical text after the directives. -/
def body (g : Graph) : Except UnknownNode (List (List Char)) := do
  let edges ← g.edges.mapM g.edgeLine
  let isolated := (g.nodes.filter g.isIsolated).map fun n => Written.node n.shape n.label
  return edges ++ isolated

/-- The lines of the canonical text. -/
def lines (g : Graph) : Except Unwritable (List (List Char)) := do
  let directives ← (Written.directives g.options).mapError .number
  let body ← g.body.mapError .unknownNode
  return directives ++ body

/-- The canonical text of a chart. -/
def render (g : Graph) : Except Unwritable String :=
  g.lines.map Written.text

end Graph
end Flowchart
