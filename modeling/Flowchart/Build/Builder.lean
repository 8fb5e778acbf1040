import Flowchart.Trace

/-!
# Builders

A builder makes one chart after another.  Its charts share a supply of ids, so that no two of them
have an id in common, and a trace, if one is kept.  The options of a chart start from those of the
builder; its directives change its own options and not the builder's.

A build that fails leaves the builder as far as it got: ids that were drawn stay drawn, and what was
decided stays in the trace.
-/

namespace Flowchart

/-- A maker of charts. -/
structure Builder where
  ids : IdSupply
  /-- The options of a chart whose directives set none. -/
  options : Options := {}
  /-- The trace of all builds, if one is kept. -/
  trace : Option Trace := none

namespace Builder

/-- Build a chart, and have the builder that is left. -/
def build (b : Builder) (tokens : List Token) : Build.Result × Builder :=
  let r := Build.build b.ids b.options tokens
  (r, { b with ids := r.state.ids, trace := b.trace.map (·.addPass r) })

/-- Build charts one after another. -/
def buildAll (b : Builder) : List (List Token) → List Build.Result × Builder
  | [] => ([], b)
  | tokens :: rest =>
    let (r, next) := b.build tokens
    let (rs, last) := next.buildAll rest
    (r :: rs, last)

end Builder
end Flowchart
