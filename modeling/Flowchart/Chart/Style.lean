import Flowchart.Number.Decimal

/-!
# Styles and layout options

What a chart says about its looks: optional style overrides on nodes and connections, and the
options of the layout.  Every enumeration has a name for each of its values, a list of all values in
their fixed order, and a reader that takes a name back to its value.
-/

namespace Flowchart

/-! ### Enumerations -/

/-- The form in which a node is drawn. -/
inductive Shape where
  | rectangle
  | diamond
  | ellipse
  | database
deriving DecidableEq, Repr, Inhabited

/-- The direction in which the ranks of a chart follow each other. -/
inductive Direction where
  /-- From top to bottom. -/
  | down
  /-- From bottom to top. -/
  | up
  /-- From left to right. -/
  | right
  /-- From right to left. -/
  | left
deriving DecidableEq, Repr, Inhabited

/-- The way in which nodes are placed. -/
inductive Algorithm where
  | layered
  | tree
  | force
deriving DecidableEq, Repr, Inhabited

/-- The way in which a line is drawn. -/
inductive Stroke where
  | solid
  | dashed
  | dotted
deriving DecidableEq, Repr, Inhabited

/-- The way in which an area is filled. -/
inductive Fill where
  | solid
  | hachure
  | crossHatch
deriving DecidableEq, Repr, Inhabited

/-- The form of an end of a connection. -/
inductive Arrowhead where
  | arrow
  | bar
  | dot
  | triangle
deriving DecidableEq, Repr, Inhabited

/-- An enumeration whose values have names. -/
class Named (α : Type) where
  /-- All values, in their fixed order. -/
  all : List α
  /-- The name of a value. -/
  name : α → String

/-- The first value with a given name. -/
def Named.ofName? {α : Type} [Named α] (s : String) : Option α :=
  (Named.all : List α).find? fun a => Named.name a = s

/-- The name of a shape. -/
def Shape.name : Shape → String
  | .rectangle => "rectangle"
  | .diamond => "diamond"
  | .ellipse => "ellipse"
  | .database => "database"

instance : Named Shape := ⟨[.rectangle, .diamond, .ellipse, .database], Shape.name⟩

/-- The two letters of a direction. -/
def Direction.name : Direction → String
  | .down => "TB"
  | .up => "BT"
  | .right => "LR"
  | .left => "RL"

instance : Named Direction := ⟨[.down, .up, .right, .left], Direction.name⟩

/-- The name of an algorithm. -/
def Algorithm.name : Algorithm → String
  | .layered => "layered"
  | .tree => "tree"
  | .force => "force"

instance : Named Algorithm := ⟨[.layered, .tree, .force], Algorithm.name⟩

/-- The name of a stroke. -/
def Stroke.name : Stroke → String
  | .solid => "solid"
  | .dashed => "dashed"
  | .dotted => "dotted"

instance : Named Stroke := ⟨[.solid, .dashed, .dotted], Stroke.name⟩

/-- The name of a fill. -/
def Fill.name : Fill → String
  | .solid => "solid"
  | .hachure => "hachure"
  | .crossHatch => "cross-hatch"

instance : Named Fill := ⟨[.solid, .hachure, .crossHatch], Fill.name⟩

/-- The name of an arrowhead. -/
def Arrowhead.name : Arrowhead → String
  | .arrow => "arrow"
  | .bar => "bar"
  | .dot => "dot"
  | .triangle => "triangle"

instance : Named Arrowhead := ⟨[.arrow, .bar, .dot, .triangle], Arrowhead.name⟩

/-- The direction with the given letters, in upper or lower case.  Only the ASCII letters have one
of the letters of a direction as their upper case. -/
def Direction.ofLetters? (s : List Char) : Option Direction :=
  Named.ofName? (String.ofList (s.map Char.toUpper))

/-! ### Styles -/

/-- Style overrides of a node; a field that is not set leaves the choice to the drawing. -/
structure NodeStyle where
  backgroundColor : Option String := none
  strokeColor : Option String := none
  strokeWidth : Option Number.Binary64 := none
  strokeStyle : Option Stroke := none
  fillStyle : Option Fill := none
  opacity : Option Number.Binary64 := none
  fontSize : Option Int := none
  fontFamily : Option Int := none
  roughness : Option Number.Binary64 := none
deriving DecidableEq, Repr, Inhabited

/-- Style overrides of a connection. -/
structure EdgeStyle where
  strokeColor : Option String := none
  strokeWidth : Option Number.Binary64 := none
  strokeStyle : Option Stroke := none
  startArrowhead : Option Arrowhead := none
  endArrowhead : Option Arrowhead := none
  roughness : Option Number.Binary64 := none
deriving DecidableEq, Repr, Inhabited

/-! ### Layout options -/

/-- The options of the layout. -/
structure Options where
  algorithm : Algorithm := .layered
  direction : Direction := .down
  /-- The space between nodes of one rank. -/
  nodeSpacing : Int := 50
  /-- The space between ranks. -/
  rankSpacing : Int := 80
  /-- The space around the chart. -/
  padding : Int := 50
deriving DecidableEq, Repr, Inhabited

end Flowchart
