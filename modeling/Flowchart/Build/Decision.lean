import Flowchart.Token.Basic

/-!
# Decisions

While a chart is built from its tokens, every token leads to at most two decisions: a node is
created or found again, a connection is made, something is kept for later, a directive is applied or
ignored, a line ends.  A decision is a value with its parts; the record that a trace keeps and the
line that goes to the log are texts computed from it.
-/

namespace Flowchart

/-- What was decided about a token. -/
inductive Action where
  /-- A node was added under an id. -/
  | nodeCreated (id : String)
  /-- The token names a node that is already there. -/
  | nodeReused (id : String)
  /-- A connection was added between two ids. -/
  | edgeCreated (source target : String)
  /-- An arrow waits for the next node. -/
  | arrowPending
  /-- A label waits for the next connection. -/
  | labelPending (label : String)
  /-- A directive set an option to a value. -/
  | directiveApplied (value : String)
  /-- A directive had no effect. -/
  | directiveIgnored (name value : String)
  /-- A line with nodes ended. -/
  | chainReset
  /-- A line ended with a connection left open. -/
  | pendingDiscarded
deriving DecidableEq, Repr

/-- The name of an action in records. -/
def Action.name : Action → String
  | nodeCreated _ => "node_created"
  | nodeReused _ => "node_reused"
  | edgeCreated .. => "edge_created"
  | arrowPending => "arrow_pending"
  | labelPending _ => "label_pending"
  | directiveApplied _ => "directive_applied"
  | directiveIgnored .. => "directive_ignored"
  | chainReset => "chain_reset"
  | pendingDiscarded => "pending_discarded"

/-- The particulars of an action in records. -/
def Action.detail : Action → String
  | nodeCreated id => id
  | nodeReused id => id
  | edgeCreated source target => s!"{source} -> {target}"
  | arrowPending => ""
  | labelPending label => Text.quote label
  | directiveApplied value => value
  | directiveIgnored name value => s!"{name}={Text.quote value}"
  | chainReset => ""
  | pendingDiscarded => ""

/-- A decision and the token it is about, with the token's index; a decision made at the end of the
tokens is about none. -/
structure Decision where
  place : Option (Nat × Token)
  action : Action
deriving DecidableEq, Repr

/-- A decision as a trace keeps it. -/
structure Record where
  /-- The index of the token, or -1 at the end of the tokens. -/
  index : Int
  /-- The token as reports show it. -/
  token : String
  /-- The name of the action. -/
  action : String
  /-- Particulars, possibly empty. -/
  detail : String := ""
deriving DecidableEq, Repr

namespace Decision

/-- The record of a decision. -/
def record (d : Decision) : Record :=
  match d.place with
  | some (index, token) => ⟨index, token.render, d.action.name, d.action.detail⟩
  | none => ⟨-1, "end", d.action.name, d.action.detail⟩

/-- The line a decision writes to the log: only what was thrown away is worth one. -/
def logLine? (d : Decision) : Option String :=
  match d.action, d.place with
  | .pendingDiscarded, some (index, _) => some s!"Discarding dangling connection at token {index}"
  | .pendingDiscarded, none => some "Discarding dangling connection at end of input"
  | .directiveIgnored name value, _ => some s!"Ignoring directive @{name} {Text.quote value}"
  | _, _ => none

end Decision

/-- One line of text for a record. -/
def Record.render (r : Record) : String :=
  let text := s!"#{r.index} {r.token}: {r.action}"
  if r.detail = "" then text else s!"{text} ({r.detail})"

end Flowchart
