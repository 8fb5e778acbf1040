import Flowchart.Trace

/-!
# Passes that are watched

A pass can fill a trace while it goes on: what is decided about a token goes into the trace before
the next token is looked at, and the snapshot of the chart comes last.  `parseTraced` reads a text in
this way, and without a trace it only reads it.

A pass that is stopped leaves what was decided until then in the trace, and no snapshot.
-/

namespace Flowchart
namespace Build

/-- How a pass that may be watched ended. -/
structure Traced where
  /-- The state it ended in, or was in when the error came up. -/
  state : State
  /-- The trace, if one is kept. -/
  trace : Option Trace
  /-- The error that stopped it, if one did. -/
  failure : Option Number.TooLong := none

/-- The chart of a pass that may be watched, or the error that stopped it. -/
def Traced.graph (r : Traced) : Except Number.TooLong Graph :=
  match r.failure with
  | none => .ok r.state.graph
  | some e => .error e

/-- Record decisions, if a trace is kept. -/
def recordAll (trace : Option Trace) (ds : List Decision) : Option Trace :=
  trace.map (·.addRecords (ds.map Decision.record))

/-- Handle tokens, of which the first has the given index, and fill the trace on the way. -/
def runTraced (index : Nat) (s : State) (trace : Option Trace) : List Token → Traced
  | [] => ⟨s, (recordAll trace s.atEnd).map (·.addStage (.ofGraph s.graph)), none⟩
  | t :: ts =>
    let step := s.step t
    let trace := recordAll trace (step.actions.map (⟨some (index, t), ·⟩))
    match step.failure with
    | some e => ⟨step.state, trace, some e⟩
    | none => runTraced (index + 1) step.state trace ts

/-- Build the chart that a text describes, and fill a trace if one is kept. -/
def parseTraced (ids : IdSupply) (options : Options) (trace : Option Trace) (text : String) :
    Traced :=
  let tokens := Token.ofText text
  let trace := trace.map fun t => { t with input := text }.addStage (.ofTokens tokens)
  runTraced 0 { options, ids } trace tokens

end Build
end Flowchart
