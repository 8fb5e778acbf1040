import Flowchart.Chart.Graph
import Flowchart.Text.Quoted

/-!
# Tokens

A chart text is a sequence of five kinds of token: nodes, arrows, quoted labels, directives and line
ends.  A directive keeps its text as written; its name is what stands before the first space and its
value what stands after it.
-/

namespace Flowchart

/-- A token of a chart text. -/
inductive Token where
  /-- A mention of a node. -/
  | node (shape : Shape) (label : String)
  /-- An arrow, drawn dashed or not. -/
  | arrow (dashed : Bool)
  /-- A quoted text, which labels a connection. -/
  | label (text : String)
  /-- A directive with its text. -/
  | directive (text : String)
  /-- The end of a line. -/
  | newline
deriving DecidableEq, Repr, Inhabited

namespace Token

/-- The name of the kind of a token. -/
def kind : Token → String
  | node .. => "node"
  | arrow _ => "arrow"
  | label _ => "label"
  | directive _ => "directive"
  | newline => "newline"

/-- The text a token stands for. -/
def value : Token → String
  | node _ text => text
  | arrow dashed => if dashed then "-->" else "->"
  | label text => text
  | directive text => text
  | newline => "\n"

/-- The shape of a node token. -/
def shape? : Token → Option Shape
  | node shape _ => some shape
  | _ => none

/-- Whether a token is a dashed arrow. -/
def isDashed : Token → Bool
  | arrow dashed => dashed
  | _ => false

/-- The part of a directive's text before the first space. -/
def directiveName (text : String) : String :=
  String.ofList (text.toList.takeWhile (· ≠ ' '))

/-- The part of a directive's text after the first space. -/
def directiveValue (text : String) : String :=
  String.ofList ((text.toList.dropWhile (· ≠ ' ')).drop 1)

/-- A token as reports show it. -/
def render : Token → String
  | node shape text => s!"node<{shape.name}>({Text.quote text})"
  | arrow dashed => if dashed then "arrow(dashed)" else "arrow"
  | label text => s!"label({Text.quote text})"
  | directive text => s!"directive({Text.quote text})"
  | newline => "newline"

end Token
end Flowchart
