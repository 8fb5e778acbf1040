import Flowchart.Build.Decision
import Flowchart.Build.Ids
import Flowchart.Token.Scan

/-!
# From tokens to a chart

A chart is built in one pass over its tokens.  A node token stands for the node with its shape and
label, which is created at the first mention.  Two node tokens on one line are connected, whether or
not an arrow stands between them: arrows decide whether the connection is dashed, quoted labels what
it is called.  The end of a line breaks the chain, and what was left open is dropped.

The state of the pass has two parts that hardly touch: the chart with its supply of ids, and the
`Chain`, which is what the current line has left for the next node.

* `step` handles one token;
* `run` handles a list of tokens, and stops at the one error there is, a number with too many digits:
  a spacing, or the next id of a supply that counts;
* `build` runs over the tokens of one chart, and `parse` scans a text first.
-/

namespace Flowchart
namespace Build

/-! ### The state -/

/-- What the current line has left for its next node. -/
structure Chain where
  /-- The last node of the line. -/
  last : Option Node := none
  /-- The label the next connection will have. -/
  label : Option String := none
  /-- Whether the next connection will be dashed. -/
  dashed : Bool := false
  /-- Whether an arrow has been read since the last node. -/
  arrow : Bool := false
deriving DecidableEq, Repr

/-- Whether the line would leave something open if it ended here. -/
def Chain.isOpen (c : Chain) : Bool :=
  c.arrow || c.label.isSome

/-- The state of a pass. -/
structure State where
  nodes : List Node := []
  edges : List Edge := []
  options : Options
  ids : IdSupply
  chain : Chain := {}

/-- The chart built so far. -/
def State.graph (s : State) : Graph := ⟨s.nodes, s.edges, s.options⟩

/-! ### One token -/

/-- The node with a key, if it has been created. -/
def State.node? (s : State) (key : Node.Key) : Option Node :=
  s.nodes.find? fun n => n.key = key

/-- The node a token stands for, created if need be, and what was decided. -/
def State.ensureNode (s : State) (key : Node.Key) : Except Number.TooLong (Node × State × Action) :=
  match s.node? key with
  | some n => .ok (n, s, .nodeReused n.id)
  | none =>
    s.ids.draw.map fun (id, ids) =>
      let n : Node := ⟨id, key.1, key.2, none⟩
      (n, { s with nodes := s.nodes ++ [n], ids }, .nodeCreated id)

/-- The style of a connection. -/
def connectionStyle (dashed : Bool) : Option EdgeStyle :=
  if dashed then some { strokeStyle := some .dashed } else none

/-- An empty label is no label. -/
def connectionLabel (label : Option String) : Option String :=
  label.filter (· ≠ "")

/-- Connect the last node of the line, if there is one, to a node.  The label and the dash of the
chain go into the connection; without one they stay. -/
def State.connect (s : State) (n : Node) : Except Number.TooLong (State × List Action) :=
  match s.chain.last with
  | none => .ok (s, [])
  | some m =>
    s.ids.draw.map fun (id, ids) =>
      let e : Edge :=
        ⟨id, m.id, n.id, connectionLabel s.chain.label, connectionStyle s.chain.dashed⟩
      ({ s with
          edges := s.edges ++ [e]
          ids
          chain := { s.chain with label := none, dashed := false } },
        [.edgeCreated m.id n.id])

/-- What one token leads to. -/
structure Step where
  /-- The state after the token, or after the part of it that was handled. -/
  state : State
  /-- What was decided about it, in order. -/
  actions : List Action := []
  /-- The error that came up, if one did. -/
  failure : Option Number.TooLong := none

/-- A node token: find the node, connect it, and let the chain go on from it. -/
def State.mention (s : State) (key : Node.Key) : Step :=
  match s.ensureNode key with
  | .error e => { state := s, failure := some e }
  | .ok (n, s, found) =>
    match s.connect n with
    | .error e => { state := s, actions := [found], failure := some e }
    | .ok (s, connected) =>
      { state := { s with chain := { s.chain with arrow := false, last := some n } }
        actions := found :: connected }

/-- The end of a line. -/
def State.endLine (s : State) : Step :=
  let actions :=
    if s.chain.isOpen then [.pendingDiscarded]
    else if s.chain.last.isSome then [.chainReset]
    else []
  { state := { s with chain := {} }, actions }

/-- A directive: `direction` with the letters of a direction, or `spacing` with a text that starts
with a number, sets an option; everything else is ignored. -/
def applyDirective (o : Options) (text : String) : Except Number.TooLong (Options × Action) :=
  let name := Token.directiveName text
  let value := Token.directiveValue text
  let ignored := (o, Action.directiveIgnored name value)
  if name = "direction" then
    match Direction.ofLetters? value.toList with
    | some d => .ok ({ o with direction := d }, .directiveApplied d.name)
    | none => .ok ignored
  else if name = "spacing" then
    (Number.leading value.toList).map fun
      | some n => ({ o with nodeSpacing := n }, .directiveApplied (toString n))
      | none => ignored
  else .ok ignored

/-- The spacing a token sets, if it is a directive that sets one. -/
def spacing? : Token → Option Int
  | .directive text =>
    match Token.directiveName text, Number.leading (Token.directiveValue text).toList with
    | "spacing", .ok n => n
    | _, _ => none
  | _ => none

/-- A directive token. -/
def State.direct (s : State) (text : String) : Step :=
  match applyDirective s.options text with
  | .error e => { state := s, failure := some e }
  | .ok (options, action) => { state := { s with options }, actions := [action] }

/-- What one token does to the state, and what is decided about it. -/
def State.step (s : State) : Token → Step
  | .newline => s.endLine
  | .directive text => s.direct text
  | .node shape label => s.mention (shape, label)
  | .arrow dashed =>
    { state := { s with chain := { s.chain with dashed, arrow := true } }
      actions := [.arrowPending] }
  | .label text =>
    { state := { s with chain := { s.chain with label := some text } }
      actions := [.labelPending text] }

/-! ### All tokens -/

/-- How a pass ended. -/
structure Result where
  /-- The state it ended in, or was in when the error came up. -/
  state : State
  /-- What it decided, in order. -/
  decisions : List Decision
  /-- The error that stopped it, if one did. -/
  failure : Option Number.TooLong := none

/-- The decisions at the end of the tokens. -/
def State.atEnd (s : State) : List Decision :=
  if s.chain.isOpen then [⟨none, .pendingDiscarded⟩] else []

/-- Handle tokens, of which the first has the given index. -/
def run (index : Nat) (s : State) : List Token → Result
  | [] => ⟨s, s.atEnd, none⟩
  | t :: ts =>
    let step := s.step t
    let decisions := step.actions.map (⟨some (index, t), ·⟩)
    match step.failure with
    | some e => ⟨step.state, decisions, some e⟩
    | none =>
      let r := run (index + 1) step.state ts
      { r with decisions := decisions ++ r.decisions }

/-- The chart of a pass, or the error that stopped it. -/
def Result.graph (r : Result) : Except Number.TooLong Graph :=
  match r.failure with
  | none => .ok r.state.graph
  | some e => .error e

/-- The lines a pass writes to the log. -/
def Result.log (r : Result) : List String :=
  r.decisions.filterMap Decision.logLine?

/-- Build a chart from tokens, with options that hold unless a directive changes them. -/
def build (ids : IdSupply) (options : Options) (tokens : List Token) : Result :=
  run 0 { options, ids } tokens

/-- Build the chart that a text describes. -/
def parse (ids : IdSupply) (options : Options) (text : String) : Result :=
  build ids options (Token.ofText text)

end Build
end Flowchart
