import Flowchart.Build.Ids
import Flowchart.Exchange.Records
import Flowchart.Text.Quoted

/-!
# Charts from JSON

A chart is taken from JSON in two steps.  First the records are checked, and everything that is wrong
with them is reported at once.  Then the references are resolved: every end of an edge has to name a
node.

* `Graph.ofJson` reads a stored chart and keeps its ids;
* `Graph.ofInput` reads a chart that is put in from outside, whose ids have to be distinct, and gives
  it fresh ids;
* `Graph.toJson` writes a chart to be stored.
-/

namespace Flowchart

namespace Exchange

/-- The forms in which records are given. -/
inductive Form where
  | layoutOptions
  | storedGraph
  | inputGraph
deriving DecidableEq, Repr

/-- The name of a form in reports. -/
def Form.name : Form → String
  | layoutOptions => "layout options"
  | storedGraph => "graph data"
  | inputGraph => "flowchart input"

/-- Why records are not accepted. -/
inductive InputError where
  /-- The records do not have the right form. -/
  | invalid (form : Form) (issues : List Issue)
  /-- Two nodes have the same id. -/
  | duplicateNode (id : String)
  /-- An edge names a node that is not there. -/
  | unknownNode (id : String)
  /-- An edge with an id names a node that is not there. -/
  | unknownEnd (edge id : String)
  /-- There is no fresh id. -/
  | noFreshId (e : Number.TooLong)
deriving DecidableEq, Repr

/-- What is reported for records that are not accepted. -/
def InputError.message : InputError → String
  | invalid form issues => s!"Invalid {form.name}: " ++ "; ".intercalate (issues.map Issue.text)
  | duplicateNode id => s!"Duplicate node id: {Text.quote id}"
  | unknownNode id => s!"Edge refers to unknown node {Text.quote id}"
  | unknownEnd edge id => s!"Edge {Text.quote edge} refers to unknown node {Text.quote id}"
  | noFreshId e => e.message

/-- The outcome of a check, as a result with an error. -/
def Checked.toExcept {α : Type} (form : Form) : Checked α → Except InputError α
  | ok a => .ok a
  | bad issues => .error (.invalid form issues)

/-- The first end of an edge that is not among the given ids; the source is looked at first. -/
def missingEnd? (ids : List String) (e : Edge) : Option String :=
  [e.source, e.target].find? fun id => id ∉ ids

/-- Give fresh ids to nodes.  The names are the ids that were given, each with the fresh one; a node
whose given id is already among them is an error. -/
def renameNodes (ids : IdSupply) (names : List (String × String)) :
    List Node → IdSupply × Except InputError (List Node × List (String × String))
  | [] => (ids, .ok ([], names))
  | n :: ns =>
    if (names.lookup n.id).isSome then (ids, .error (.duplicateNode n.id))
    else
      match ids.draw with
      | .error e => (ids, .error (.noFreshId e))
      | .ok (id, rest) =>
        let (rest, r) := renameNodes rest (names ++ [(n.id, id)]) ns
        (rest, r.map fun (ms, names) => ({ n with id } :: ms, names))

/-- Give fresh ids to edges and resolve their ends. -/
def renameEdges (ids : IdSupply) (names : List (String × String)) :
    List Edge → IdSupply × Except InputError (List Edge)
  | [] => (ids, .ok [])
  | e :: es =>
    match names.lookup e.source, names.lookup e.target with
    | none, _ => (ids, .error (.unknownNode e.source))
    | _, none => (ids, .error (.unknownNode e.target))
    | some source, some target =>
      match ids.draw with
      | .error e => (ids, .error (.noFreshId e))
      | .ok (id, rest) =>
        let (rest, r) := renameEdges rest names es
        (rest, r.map ({ e with id, source, target } :: ·))

end Exchange

open Exchange

/-- Layout options from JSON; null stands for the usual ones. -/
def Options.ofJson : Json → Except InputError Options
  | .null => .ok {}
  | v => (options v).toExcept .layoutOptions

namespace Graph

/-- The JSON value under which a chart is stored. -/
def toJson (g : Graph) : Json := graphJson g

/-- A stored chart, with its ids. -/
def ofJson (v : Json) : Except InputError Graph := do
  let g ← (graph v).toExcept .storedGraph
  match g.edges.findSome? fun e => (missingEnd? g.nodeIds e).map (e.id, ·) with
  | some (edge, id) => .error (.unknownEnd edge id)
  | none => .ok g

/-- A chart that is put in from outside, with fresh ids: first for the nodes, then for the edges.
What was drawn from the supply stays drawn when an error is found. -/
def ofInput (ids : IdSupply) (v : Json) : IdSupply × Except InputError Graph :=
  match (inputGraph v).toExcept .inputGraph with
  | .error e => (ids, .error e)
  | .ok g =>
    match renameNodes ids [] g.nodes with
    | (ids, .error e) => (ids, .error e)
    | (ids, .ok (nodes, names)) =>
      let (ids, edges) := renameEdges ids names g.edges
      (ids, edges.map fun edges => { g with nodes, edges })

end Graph
end Flowchart
