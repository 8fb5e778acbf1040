import Flowchart.Exchange.Records
import Mathlib

/-!
# Records are read back

`Reads check write` says that a checker takes back every value that a writer writes.  It holds of
the simple values, and it passes on to the fields of a record: a field is found under its name among
the members that the record writes, and `Reads.optional`, `Reads.withDefault` and `Reads.required`
read it from there.  A record with nine fields, each of which may be missing, is therefore read back
field by field and not case by case.

A style that sets nothing is written as no style.  So a chart is read back if it has no such style
(`graph_graphJson`), and a chart that was accepted has none (`noEmptyStyle_of_graph`,
`noEmptyStyle_of_inputGraph`).
-/

namespace Flowchart
namespace Exchange

variable {α β : Type}

/-! ### Accepted values -/

namespace Checked

@[simp] lemma map_eq (f : α → β) (c : Checked α) : f <$> c = c.map f := rfl

@[simp] lemma seq_eq (f : Checked (α → β)) (c : Checked α) : f <*> c = f.apply c := rfl

@[simp] lemma map_ok (f : α → β) (a : α) : (ok a).map f = ok (f a) := rfl

@[simp] lemma apply_ok (f : α → β) (a : α) : (ok f).apply (ok a) = ok (f a) := rfl

@[simp] lemma under_ok (step : String) (a : α) : (ok a).under step = ok a := rfl

lemma map_eq_ok_iff {f : α → β} {c : Checked α} {b : β} :
    c.map f = ok b ↔ ∃ a, c = ok a ∧ f a = b := by
  cases c <;> simp [map]

lemma apply_eq_ok_iff {f : Checked (α → β)} {c : Checked α} {b : β} :
    f.apply c = ok b ↔ ∃ g a, f = ok g ∧ c = ok a ∧ g a = b := by
  cases f <;> cases c <;> simp [apply]

lemma under_eq_ok_iff {step : String} {c : Checked α} {a : α} :
    c.under step = ok a ↔ c = ok a := by
  cases c <;> simp [under]

end Checked

/-! ### Members and fields -/

@[simp] lemma member?_nil (name : String) : Json.member? [] name = none := rfl

@[simp] lemma member?_append (ms ms' : Members) (name : String) :
    Json.member? (ms ++ ms') name = (Json.member? ms name).or (Json.member? ms' name) := by
  rw [Json.member?, List.find?_append, Option.map_or]
  rfl

namespace Field

variable {f : Field} {ms : Members} {check : Json → Checked α} {write : α → Json}

@[simp] lemma member?_write (f : Field) (v : Json) (name : String) :
    Json.member? (f.write v) name = if f.wire = name then some v else none := by
  by_cases h : f.wire = name <;> simp [Json.member?, Field.write, h]

@[simp] lemma member?_writeOptional (f : Field) (write : α → Json) (a : Option α) (name : String) :
    Json.member? (f.writeOptional write a) name = if f.wire = name then a.map write else none := by
  cases a <;> simp [writeOptional]

lemma find?_eq (f : Field) (ms : Members) :
    f.find? ms = ((Json.member? ms f.wire).map (f.wire, ·)).or
      ((Json.member? ms f.plain).map (f.plain, ·)) := by
  cases h : Json.member? ms f.wire <;> simp [find?, h]

end Field

/-! ### Values that are read back -/

/-- A checker takes back what a writer writes, which is never null. -/
structure Reads (check : Json → Checked α) (write : α → Json) : Prop where
  check_write : ∀ a, check (write a) = .ok a
  ne_null : ∀ a, write a ≠ .null

namespace Reads

variable {f : Field} {ms : Members} {check : Json → Checked α} {write : α → Json}

/-- A field that may be missing is read back, whether or not it is there. -/
lemma optional (h : Reads check write) (a : Option α)
    (hf : f.find? ms = a.map fun a => (f.wire, write a)) : f.optional check ms = .ok a := by
  cases a with
  | none => simp [Field.optional, Field.withDefault, hf]
  | some a =>
    have hnull : orNull check (write a) = (check (write a)).map some := by
      have hne := h.ne_null a
      revert hne
      cases write a <;> simp [orNull]
    simp [Field.optional, Field.withDefault, hf, hnull, h.check_write]

lemma withDefault (h : Reads check write) (usual a : α)
    (hf : f.find? ms = some (f.wire, write a)) : f.withDefault usual check ms = .ok a := by
  simp [Field.withDefault, hf, h.check_write]

lemma required (h : Reads check write) (a : α)
    (hf : f.find? ms = some (f.wire, write a)) : f.required check ms = .ok a := by
  simp [Field.required, hf, h.check_write]

end Reads

lemma reads_string : Reads string .string := ⟨fun _ => rfl, fun _ => Json.noConfusion⟩

lemma reads_number : Reads number .double := ⟨fun _ => rfl, fun _ => Json.noConfusion⟩

lemma reads_integer : Reads integer .int := ⟨fun _ => rfl, fun _ => Json.noConfusion⟩

lemma reads_strictInteger : Reads strictInteger .int := ⟨fun _ => rfl, fun _ => Json.noConfusion⟩

/-- An enumeration in which no two values have the same name. -/
class LawfulNamed (α : Type) [Named α] : Prop where
  ofName?_name : ∀ a : α, Named.ofName? (Named.name a) = some a

instance : LawfulNamed Shape := ⟨by intro a; cases a <;> rfl⟩
instance : LawfulNamed Algorithm := ⟨by intro a; cases a <;> rfl⟩
instance : LawfulNamed Stroke := ⟨by intro a; cases a <;> rfl⟩
instance : LawfulNamed Fill := ⟨by intro a; cases a <;> rfl⟩
instance : LawfulNamed Arrowhead := ⟨by intro a; cases a <;> rfl⟩

lemma reads_named [Named α] [LawfulNamed α] : Reads (@named α _) nameJson := by
  refine ⟨fun a => ?_, fun _ => Json.noConfusion⟩
  simp [named, nameJson, LawfulNamed.ofName?_name]

/-- The letters of a direction are not changed by stripping and by taking upper case. -/
lemma reads_direction : Reads direction nameJson := by
  refine ⟨fun d => ?_, fun _ => Json.noConfusion⟩
  have hletters : Direction.ofLetters? (Text.strip (Named.name d).toList) = some d := by
    cases d <;> decide +kernel
  simp [direction, nameJson, hletters]

/-- The items of a list are read back if each of them is. -/
lemma list_map {check : Json → Checked α} {write : α → Json} {as : List α}
    (h : ∀ a ∈ as, check (write a) = .ok a) : list check (.array (as.map write)) = .ok as := by
  have hitems (index : Nat) : Checked.items check index (as.map write) = .ok as := by
    induction as generalizing index with
    | nil => rfl
    | cons a as ih =>
      have hhead : check (write a) = .ok a := h a List.mem_cons_self
      have htail := ih (fun b hb => h b (List.mem_cons_of_mem a hb)) (index + 1)
      simp [Checked.items, hhead, htail]
  exact hitems 0

/-! ### Records -/

lemma reads_nodeStyle : Reads nodeStyle fun s => .object (nodeStyleMembers s) := by
  refine ⟨fun s => ?_, fun _ => Json.noConfusion⟩
  simp only [nodeStyle, record]
  rw [reads_string.optional s.backgroundColor, reads_string.optional s.strokeColor,
    reads_number.optional s.strokeWidth, reads_named.optional s.strokeStyle,
    reads_named.optional s.fillStyle, reads_number.optional s.opacity,
    reads_integer.optional s.fontSize, reads_integer.optional s.fontFamily,
    reads_number.optional s.roughness]
  · rfl
  all_goals simp [Field.find?_eq, nodeStyleMembers, Field.backgroundColor, Field.strokeColor,
    Field.strokeWidth, Field.strokeStyle, Field.fillStyle, Field.opacity, Field.fontSize,
    Field.fontFamily, Field.roughness, Field.same, Function.comp_def]

lemma reads_edgeStyle : Reads edgeStyle fun s => .object (edgeStyleMembers s) := by
  refine ⟨fun s => ?_, fun _ => Json.noConfusion⟩
  simp only [edgeStyle, record]
  rw [reads_string.optional s.strokeColor, reads_number.optional s.strokeWidth,
    reads_named.optional s.strokeStyle, reads_named.optional s.startArrowhead,
    reads_named.optional s.endArrowhead, reads_number.optional s.roughness]
  · rfl
  all_goals simp [Field.find?_eq, edgeStyleMembers, Field.strokeColor, Field.strokeWidth,
    Field.strokeStyle, Field.startArrowhead, Field.endArrowhead, Field.roughness, Field.same,
    Function.comp_def]

lemma reads_options : Reads options optionsJson := by
  refine ⟨fun o => ?_, fun _ => Json.noConfusion⟩
  simp only [options, record, optionsJson]
  rw [reads_named.withDefault _ o.algorithm, reads_direction.withDefault _ o.direction,
    reads_strictInteger.withDefault _ o.nodeSpacing,
    reads_strictInteger.withDefault _ o.rankSpacing, reads_strictInteger.withDefault _ o.padding]
  · rfl
  all_goals simp [Field.find?_eq, Field.algorithm, Field.direction, Field.nodeSpacing,
    Field.rankSpacing, Field.padding, Field.same]

lemma unlessEmpty_ne [DecidableEq α] (empty : α) (style : Option α) :
    unlessEmpty empty style ≠ some empty := by
  simp [unlessEmpty, Option.filter_eq_some_iff]

lemma unlessEmpty_eq_self [DecidableEq α] {empty : α} {style : Option α}
    (h : style ≠ some empty) : unlessEmpty empty style = style := by
  cases style with
  | none => rfl
  | some a =>
    have ha : a ≠ empty := fun heq => h (congrArg some heq)
    simp [unlessEmpty, Option.filter, ha]

lemma node_nodeJson (name : String) {n : Node} (h : n.style ≠ some {}) :
    node name (nodeJson n) = .ok n := by
  simp only [node, record, nodeJson, unlessEmpty_eq_self h]
  rw [reads_string.required n.id, reads_named.required n.shape, reads_string.required n.label,
    reads_nodeStyle.optional n.style]
  · simp [unlessEmpty_eq_self h]
  all_goals simp [Field.find?_eq, Field.id, Field.shape, Field.label, Field.style, Field.same,
    Function.comp_def]

lemma edge_edgeJson {e : Edge} (h : e.style ≠ some {}) : edge (edgeJson e) = .ok e := by
  simp only [edge, record, edgeJson, unlessEmpty_eq_self h]
  rw [reads_string.required e.id, reads_string.required e.source, reads_string.required e.target,
    reads_string.optional e.label, reads_edgeStyle.optional e.style]
  · simp [unlessEmpty_eq_self h]
  all_goals simp [Field.find?_eq, Field.id, Field.source, Field.target, Field.label, Field.style,
    Field.same, Function.comp_def]

end Exchange

/-- No style in a chart sets nothing at all. -/
structure Graph.NoEmptyStyle (g : Graph) : Prop where
  node : ∀ n ∈ g.nodes, n.style ≠ some {}
  edge : ∀ e ∈ g.edges, e.style ≠ some {}

namespace Exchange

lemma graph_graphJson {g : Graph} (h : g.NoEmptyStyle) : graph (graphJson g) = .ok g := by
  have hnodes := list_map fun n hn => node_nodeJson "NodeSchema" (h.node n hn)
  have hedges := list_map fun e he => edge_edgeJson (h.edge e he)
  simp [graph, record, graphJson, Field.withDefault, Field.find?_eq, Field.nodes, Field.edges,
    Field.options, Field.same, hnodes, hedges, reads_options.check_write]

/-! ### Accepted records -/

lemma eq_or_of_withDefault {f : Field} {usual a : α} {check : Json → Checked α} {ms : Members}
    (h : f.withDefault usual check ms = .ok a) : a = usual ∨ ∃ v, check v = .ok a := by
  unfold Field.withDefault at h
  split at h
  · exact .inr ⟨_, Checked.under_eq_ok_iff.1 h⟩
  · cases h
    exact .inl rfl

lemma exists_of_mem_list {check : Json → Checked α} {v : Json} {as : List α}
    (h : list check v = .ok as) {a : α} (ha : a ∈ as) : ∃ v, check v = .ok a := by
  have hitems : ∀ (vs : List Json) (index : Nat) (as : List α),
      Checked.items check index vs = .ok as → ∀ a ∈ as, ∃ v, check v = .ok a := by
    intro vs
    induction vs with
    | nil =>
      rintro index _ ⟨⟩ a ha
      cases ha
    | cons v vs ih =>
      intro index as h a ha
      simp only [Checked.items, Checked.map_eq, Checked.seq_eq, Checked.apply_eq_ok_iff,
        Checked.map_eq_ok_iff, Checked.under_eq_ok_iff] at h
      obtain ⟨_, as', ⟨b, hb, rfl⟩, has, rfl⟩ := h
      rcases List.mem_cons.1 ha with rfl | ha
      · exact ⟨v, hb⟩
      · exact ih (index + 1) as' has a ha
  cases v with
  | array vs => exact hitems vs 0 as h a ha
  | _ => cases h

/-- The items of a list that may be missing are accepted ones. -/
lemma exists_of_mem_withDefault {f : Field} {check : Json → Checked α} {ms : Members} {as : List α}
    (h : f.withDefault [] (list check) ms = .ok as) {a : α} (ha : a ∈ as) :
    ∃ v, check v = .ok a := by
  rcases eq_or_of_withDefault h with rfl | ⟨v, hv⟩
  · cases ha
  · exact exists_of_mem_list hv ha

lemma exists_of_record {name : String} {check : Members → Checked α} {v : Json} {a : α}
    (h : record name check v = .ok a) : ∃ ms, check ms = .ok a := by
  cases v with
  | object ms => exact ⟨ms, h⟩
  | _ => cases h

lemma style_of_node {name : String} {v : Json} {n : Node} (h : node name v = .ok n) :
    n.style ≠ some {} := by
  obtain ⟨ms, h⟩ := exists_of_record h
  simp only [Checked.seq_eq, Checked.map_eq, Checked.apply_eq_ok_iff, Checked.map_eq_ok_iff] at h
  obtain ⟨_, style, ⟨_, label, ⟨_, shape, ⟨id, -, rfl⟩, -, rfl⟩, -, rfl⟩, -, rfl⟩ := h
  exact unlessEmpty_ne {} style

lemma style_of_edge {v : Json} {e : Edge} (h : edge v = .ok e) : e.style ≠ some {} := by
  obtain ⟨ms, h⟩ := exists_of_record h
  simp only [Checked.seq_eq, Checked.map_eq, Checked.apply_eq_ok_iff, Checked.map_eq_ok_iff] at h
  obtain ⟨_, style, ⟨_, label, ⟨_, target, ⟨_, source, ⟨id, -, rfl⟩, -, rfl⟩, -, rfl⟩, -, rfl⟩, -,
    rfl⟩ := h
  exact unlessEmpty_ne {} style

lemma style_of_inputEdge {v : Json} {e : Edge} (h : inputEdge v = .ok e) : e.style ≠ some {} := by
  obtain ⟨ms, h⟩ := exists_of_record h
  simp only [Checked.seq_eq, Checked.map_eq, Checked.apply_eq_ok_iff, Checked.map_eq_ok_iff] at h
  obtain ⟨_, style, ⟨_, label, ⟨_, target, ⟨source, -, rfl⟩, -, rfl⟩, -, rfl⟩, -, rfl⟩ := h
  exact unlessEmpty_ne {} style

/-- A chart whose nodes and edges are accepted has none of the styles that they do not have. -/
lemma noEmptyStyle_of_members {checkNode : Json → Checked Node} {checkEdge : Json → Checked Edge}
    {ms : Members} {g : Graph} (hnode : ∀ v n, checkNode v = .ok n → n.style ≠ some {})
    (hedge : ∀ v e, checkEdge v = .ok e → e.style ≠ some {})
    (h : (Graph.mk <$> Field.nodes.withDefault [] (list checkNode) ms
      <*> Field.edges.withDefault [] (list checkEdge) ms
      <*> Field.options.withDefault {} options ms) = Checked.ok g) : g.NoEmptyStyle := by
  simp only [Checked.seq_eq, Checked.map_eq, Checked.apply_eq_ok_iff, Checked.map_eq_ok_iff] at h
  obtain ⟨_, o, ⟨_, edges, ⟨nodes, hnodes, rfl⟩, hedges, rfl⟩, -, rfl⟩ := h
  constructor
  · intro n hn
    obtain ⟨v, hv⟩ := exists_of_mem_withDefault hnodes hn
    exact hnode v n hv
  · intro e he
    obtain ⟨v, hv⟩ := exists_of_mem_withDefault hedges he
    exact hedge v e hv

lemma noEmptyStyle_of_graph {v : Json} {g : Graph} (h : graph v = .ok g) : g.NoEmptyStyle := by
  obtain ⟨ms, h⟩ := exists_of_record h
  exact noEmptyStyle_of_members (fun _ _ => style_of_node) (fun _ _ => style_of_edge) h

lemma noEmptyStyle_of_inputGraph {v : Json} {g : Graph} (h : inputGraph v = .ok g) :
    g.NoEmptyStyle := by
  obtain ⟨ms, h⟩ := exists_of_record h
  exact noEmptyStyle_of_members (fun _ _ => style_of_node) (fun _ _ => style_of_inputEdge) h

end Exchange
end Flowchart
