import Flowchart.Chart.Graph
import Flowchart.Exchange.Check

/-!
# The records of a chart

The records in which charts are exchanged, field by field: styles, options, nodes and edges.  Each
record has a checker that reads it and a writer that leaves out what is not set.  Fields are written
under their wire spelling and in the order of the record.

Nodes and edges come in two forms.  A stored chart keeps its own ids; a chart that is put in from
outside has ids that only tie its edges to its nodes, and its edges go `from` and `to`.
-/

namespace Flowchart
namespace Exchange

/-! ### Field names

The wire spells names of several words in one; a node's shape is its `type` there, and an edge that is
put in from outside goes `from` one node `to` another. -/

def Field.id : Field := .same "id"
def Field.shape : Field := ⟨"type", "shape"⟩
def Field.label : Field := .same "label"
def Field.style : Field := .same "style"
def Field.source : Field := .same "source"
def Field.target : Field := .same "target"
def Field.inputSource : Field := ⟨"from", "source"⟩
def Field.inputTarget : Field := ⟨"to", "target"⟩
def Field.backgroundColor : Field := ⟨"backgroundColor", "background_color"⟩
def Field.strokeColor : Field := ⟨"strokeColor", "stroke_color"⟩
def Field.strokeWidth : Field := ⟨"strokeWidth", "stroke_width"⟩
def Field.strokeStyle : Field := ⟨"strokeStyle", "stroke_style"⟩
def Field.fillStyle : Field := ⟨"fillStyle", "fill_style"⟩
def Field.opacity : Field := .same "opacity"
def Field.fontSize : Field := ⟨"fontSize", "font_size"⟩
def Field.fontFamily : Field := ⟨"fontFamily", "font_family"⟩
def Field.roughness : Field := .same "roughness"
def Field.startArrowhead : Field := ⟨"startArrowhead", "start_arrowhead"⟩
def Field.endArrowhead : Field := ⟨"endArrowhead", "end_arrowhead"⟩
def Field.algorithm : Field := .same "algorithm"
def Field.direction : Field := .same "direction"
def Field.nodeSpacing : Field := ⟨"nodeSpacing", "node_spacing"⟩
def Field.rankSpacing : Field := ⟨"rankSpacing", "rank_spacing"⟩
def Field.padding : Field := .same "padding"
def Field.nodes : Field := .same "nodes"
def Field.edges : Field := .same "edges"
def Field.options : Field := .same "options"

/-! ### Reading -/

/-- The style of a node. -/
def nodeStyle : Json → Checked NodeStyle :=
  record "NodeStyleSchema" fun ms =>
    NodeStyle.mk <$> Field.backgroundColor.optional string ms
      <*> Field.strokeColor.optional string ms
      <*> Field.strokeWidth.optional number ms
      <*> Field.strokeStyle.optional named ms
      <*> Field.fillStyle.optional named ms
      <*> Field.opacity.optional number ms
      <*> Field.fontSize.optional integer ms
      <*> Field.fontFamily.optional integer ms
      <*> Field.roughness.optional number ms

/-- The style of an edge. -/
def edgeStyle : Json → Checked EdgeStyle :=
  record "EdgeStyleSchema" fun ms =>
    EdgeStyle.mk <$> Field.strokeColor.optional string ms
      <*> Field.strokeWidth.optional number ms
      <*> Field.strokeStyle.optional named ms
      <*> Field.startArrowhead.optional named ms
      <*> Field.endArrowhead.optional named ms
      <*> Field.roughness.optional number ms

/-- Layout options; what is not given has its usual value. -/
def options : Json → Checked Options :=
  let usual : Options := {}
  record "LayoutOptionsSchema" fun ms =>
    Options.mk <$> Field.algorithm.withDefault usual.algorithm named ms
      <*> Field.direction.withDefault usual.direction direction ms
      <*> Field.nodeSpacing.withDefault usual.nodeSpacing strictInteger ms
      <*> Field.rankSpacing.withDefault usual.rankSpacing strictInteger ms
      <*> Field.padding.withDefault usual.padding strictInteger ms

/-- A style that sets nothing is no style. -/
def unlessEmpty {α : Type} [DecidableEq α] (empty : α) (style : Option α) : Option α :=
  style.filter (· ≠ empty)

/-- A node, under a name for its kind of record. -/
def node (name : String) : Json → Checked Node :=
  record name fun ms =>
    (fun id shape label style => Node.mk id shape label (unlessEmpty {} style))
      <$> Field.id.required string ms
      <*> Field.shape.required named ms
      <*> Field.label.required string ms
      <*> Field.style.optional nodeStyle ms

/-- An edge of a stored chart. -/
def edge : Json → Checked Edge :=
  record "EdgeSchema" fun ms =>
    (fun id source target label style => Edge.mk id source target label (unlessEmpty {} style))
      <$> Field.id.required string ms
      <*> Field.source.required string ms
      <*> Field.target.required string ms
      <*> Field.label.optional string ms
      <*> Field.style.optional edgeStyle ms

/-- An edge that is put in from outside has no id of its own. -/
def inputEdge : Json → Checked Edge :=
  record "InputEdgeSchema" fun ms =>
    (fun source target label style => Edge.mk "" source target label (unlessEmpty {} style))
      <$> Field.inputSource.required string ms
      <*> Field.inputTarget.required string ms
      <*> Field.label.optional string ms
      <*> Field.style.optional edgeStyle ms

/-- A stored chart. -/
def graph : Json → Checked Graph :=
  record "GraphSchema" fun ms =>
    Graph.mk <$> Field.nodes.withDefault [] (list (node "NodeSchema")) ms
      <*> Field.edges.withDefault [] (list edge) ms
      <*> Field.options.withDefault {} options ms

/-- A chart that is put in from outside. -/
def inputGraph : Json → Checked Graph :=
  record "FlowchartInputSchema" fun ms =>
    Graph.mk <$> Field.nodes.withDefault [] (list (node "InputNodeSchema")) ms
      <*> Field.edges.withDefault [] (list inputEdge) ms
      <*> Field.options.withDefault {} options ms

/-! ### Writing -/

/-- A field with its value. -/
def Field.write (f : Field) (v : Json) : Members := [(f.wire, v)]

/-- A field with its value, if it has one. -/
def Field.writeOptional {α : Type} (f : Field) (write : α → Json) : Option α → Members
  | some a => f.write (write a)
  | none => []

/-- An enumerated value by its name. -/
def nameJson {α : Type} [Named α] (a : α) : Json := .string (Named.name a)

/-- The fields of a node's style that are set. -/
def nodeStyleMembers (s : NodeStyle) : Members :=
  Field.backgroundColor.writeOptional .string s.backgroundColor ++
    Field.strokeColor.writeOptional .string s.strokeColor ++
    Field.strokeWidth.writeOptional .double s.strokeWidth ++
    Field.strokeStyle.writeOptional nameJson s.strokeStyle ++
    Field.fillStyle.writeOptional nameJson s.fillStyle ++
    Field.opacity.writeOptional .double s.opacity ++
    Field.fontSize.writeOptional .int s.fontSize ++
    Field.fontFamily.writeOptional .int s.fontFamily ++
    Field.roughness.writeOptional .double s.roughness

/-- The fields of an edge's style that are set. -/
def edgeStyleMembers (s : EdgeStyle) : Members :=
  Field.strokeColor.writeOptional .string s.strokeColor ++
    Field.strokeWidth.writeOptional .double s.strokeWidth ++
    Field.strokeStyle.writeOptional nameJson s.strokeStyle ++
    Field.startArrowhead.writeOptional nameJson s.startArrowhead ++
    Field.endArrowhead.writeOptional nameJson s.endArrowhead ++
    Field.roughness.writeOptional .double s.roughness

/-- Layout options, all of them. -/
def optionsJson (o : Options) : Json :=
  .object <|
    Field.algorithm.write (nameJson o.algorithm) ++
      Field.direction.write (nameJson o.direction) ++
      Field.nodeSpacing.write (.int o.nodeSpacing) ++
      Field.rankSpacing.write (.int o.rankSpacing) ++
      Field.padding.write (.int o.padding)

/-- A node; a style that sets nothing is left out. -/
def nodeJson (n : Node) : Json :=
  .object <|
    Field.id.write (.string n.id) ++
      Field.shape.write (nameJson n.shape) ++
      Field.label.write (.string n.label) ++
      Field.style.writeOptional (fun s => .object (nodeStyleMembers s)) (unlessEmpty {} n.style)

/-- An edge; a style that sets nothing is left out. -/
def edgeJson (e : Edge) : Json :=
  .object <|
    Field.id.write (.string e.id) ++
      Field.source.write (.string e.source) ++
      Field.target.write (.string e.target) ++
      Field.label.writeOptional .string e.label ++
      Field.style.writeOptional (fun s => .object (edgeStyleMembers s)) (unlessEmpty {} e.style)

/-- A stored chart. -/
def graphJson (g : Graph) : Json :=
  .object <|
    Field.nodes.write (.array (g.nodes.map nodeJson)) ++
      Field.edges.write (.array (g.edges.map edgeJson)) ++
      Field.options.write (optionsJson g.options)

end Exchange
end Flowchart
