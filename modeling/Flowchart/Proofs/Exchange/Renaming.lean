import Flowchart.Proofs.Exchange.Charts

/-!
# Given ids are only references

The ids in a chart that is put in from outside tie its edges to its nodes and do nothing else.  If
they are renamed, and no two of them become one, the chart that comes out is the same, and so is the
supply that is left (`ofInput_renameRefs`).  An error is the same up to the id it names.

The renaming is one of JSON values (`renameRefs`), whatever else is wrong with them.  It passes
through the checkers of the records (`inputGraph_renameRefs`) and then through the two loops that
give out ids: what they look up under a new name they would have found under the old one
(`lookup_renamed`).
-/

namespace Flowchart

/-! ### Changing records -/

namespace Json

/-- Change a string. -/
def mapString (r : String → String) : Json → Json
  | .string s => .string (r s)
  | v => v

/-- Change the items of an array. -/
def mapItems (f : Json → Json) : Json → Json
  | .array vs => .array (vs.map f)
  | v => v

end Json

namespace Exchange

variable {α β : Type} {r : String → String}

/-- Change the value of a field, in both spellings. -/
def Field.changeMembers (f : Field) (h : Json → Json) (ms : Members) : Members :=
  ms.map fun m => if m.1 = f.wire ∨ m.1 = f.plain then (m.1, h m.2) else m

/-- Change the value of a field of an object. -/
def Field.change (f : Field) (h : Json → Json) : Json → Json
  | .object ms => .object (f.changeMembers h ms)
  | v => v

/-- Rename the id of a node. -/
def renameNode (r : String → String) : Json → Json :=
  Field.id.change (Json.mapString r)

/-- Rename the ends of an edge. -/
def renameEdge (r : String → String) (v : Json) : Json :=
  Field.inputSource.change (Json.mapString r) (Field.inputTarget.change (Json.mapString r) v)

/-- Rename the ids of all nodes and the ends of all edges. -/
def renameRefs (r : String → String) (v : Json) : Json :=
  Field.nodes.change (Json.mapItems (renameNode r))
    (Field.edges.change (Json.mapItems (renameEdge r)) v)

lemma Checked.under_map (f : α → β) (c : Checked α) (step : String) :
    (c.map f).under step = (c.under step).map f := by
  cases c <;> rfl

namespace Field

variable {f g : Field} {h : Json → Json} {ms : Members} {check : Json → Checked α} {k : α → α}

/-- Two fields have no spelling in common. -/
def Apart (f g : Field) : Prop :=
  (g.wire ≠ f.wire ∧ g.wire ≠ f.plain) ∧ (g.plain ≠ f.wire ∧ g.plain ≠ f.plain)

instance (f g : Field) : Decidable (f.Apart g) :=
  inferInstanceAs (Decidable (_ ∧ _))

lemma member?_changeMembers (f : Field) (h : Json → Json) (ms : Members) (name : String) :
    Json.member? (f.changeMembers h ms) name
      = if name = f.wire ∨ name = f.plain then (Json.member? ms name).map h
        else Json.member? ms name := by
  induction ms with
  | nil => simp [changeMembers]
  | cons m ms ih =>
    have hcons (m : String × Json) (ms : Members) :
        Json.member? (m :: ms) name = if m.1 = name then some m.2 else Json.member? ms name := by
      by_cases hm : m.1 = name <;> simp [Json.member?, hm]
    rw [changeMembers, List.map_cons, hcons, hcons]
    rw [changeMembers] at ih
    by_cases hm : m.1 = name
    · split_ifs <;> simp_all
    · split_ifs at ih ⊢ <;> simp_all

lemma find?_change (f : Field) (h : Json → Json) (ms : Members) :
    f.find? (f.changeMembers h ms) = (f.find? ms).map fun m => (m.1, h m.2) := by
  rw [find?_eq, find?_eq, member?_changeMembers, member?_changeMembers, if_pos (.inl rfl),
    if_pos (.inr rfl), Option.map_or, Option.map_map, Option.map_map, Option.map_map,
    Option.map_map]
  rfl

lemma find?_change_of_apart (hfg : f.Apart g) : g.find? (f.changeMembers h ms) = g.find? ms := by
  obtain ⟨⟨hww, hwp⟩, hpw, hpp⟩ := hfg
  rw [find?_eq, find?_eq, member?_changeMembers, member?_changeMembers, if_neg (by simp [hww, hwp]),
    if_neg (by simp [hpw, hpp])]

lemma required_change (hcheck : ∀ v, check (h v) = (check v).map k) :
    f.required check (f.changeMembers h ms) = (f.required check ms).map k := by
  rw [required, required, find?_change]
  cases f.find? ms with
  | none => rfl
  | some m => simp [hcheck, Checked.under_map]

lemma withDefault_change {usual : α} (hcheck : ∀ v, check (h v) = (check v).map k)
    (husual : k usual = usual) :
    f.withDefault usual check (f.changeMembers h ms) = (f.withDefault usual check ms).map k := by
  rw [withDefault, withDefault, find?_change]
  cases f.find? ms with
  | none => simp [husual]
  | some m => simp [hcheck, Checked.under_map]

lemma required_change_of_apart (hfg : f.Apart g) :
    g.required check (f.changeMembers h ms) = g.required check ms := by
  rw [required, required, find?_change_of_apart hfg]

lemma withDefault_change_of_apart {usual : α} (hfg : f.Apart g) :
    g.withDefault usual check (f.changeMembers h ms) = g.withDefault usual check ms := by
  rw [withDefault, withDefault, find?_change_of_apart hfg]

lemma optional_change_of_apart (hfg : f.Apart g) :
    g.optional check (f.changeMembers h ms) = g.optional check ms :=
  withDefault_change_of_apart hfg

end Field

/-! ### Renamed records are accepted alike -/

lemma string_mapString (v : Json) : string (v.mapString r) = (string v).map r := by
  cases v <;> rfl

lemma list_mapItems {check : Json → Checked α} {h : Json → Json} {k : α → α}
    (hcheck : ∀ v, check (h v) = (check v).map k) (v : Json) :
    list check (v.mapItems h) = (list check v).map (List.map k) := by
  have hitems (index : Nat) (vs : List Json) :
      Checked.items check index (vs.map h) = (Checked.items check index vs).map (List.map k) := by
    induction vs generalizing index with
    | nil => rfl
    | cons v vs ih =>
      simp only [List.map_cons, Checked.items, Checked.map_eq, Checked.seq_eq, hcheck,
        Checked.under_map, ih]
      cases (check v).under (toString index) <;> cases Checked.items check (index + 1) vs <;> rfl
  cases v with
  | array vs => exact hitems 0 vs
  | _ => rfl

end Exchange

/-- Rename the id of a node. -/
def Node.refer (r : String → String) (n : Node) : Node := { n with id := r n.id }

/-- Rename the ends of an edge. -/
def Edge.refer (r : String → String) (e : Edge) : Edge :=
  { e with source := r e.source, target := r e.target }

/-- Rename the ids of all nodes and the ends of all edges. -/
def Graph.refer (r : String → String) (g : Graph) : Graph :=
  { g with nodes := g.nodes.map (Node.refer r), edges := g.edges.map (Edge.refer r) }

namespace Exchange

variable {r : String → String}

lemma node_renameNode (name : String) (v : Json) :
    node name (renameNode r v) = (node name v).map (Node.refer r) := by
  cases v with
  | object ms =>
    simp only [renameNode, Field.change, node, record]
    rw [Field.required_change string_mapString, Field.required_change_of_apart (by decide),
      Field.required_change_of_apart (by decide), Field.optional_change_of_apart (by decide)]
    cases Field.id.required string ms <;> cases Field.shape.required (@named Shape _) ms <;>
      cases Field.label.required string ms <;> cases Field.style.optional nodeStyle ms <;> rfl
  | _ => rfl

lemma inputEdge_renameEdge (v : Json) :
    inputEdge (renameEdge r v) = (inputEdge v).map (Edge.refer r) := by
  cases v with
  | object ms =>
    simp only [renameEdge, Field.change, inputEdge, record]
    rw [Field.required_change string_mapString, Field.required_change_of_apart (by decide),
      Field.required_change_of_apart (by decide), Field.required_change string_mapString,
      Field.optional_change_of_apart (by decide), Field.optional_change_of_apart (by decide),
      Field.optional_change_of_apart (by decide), Field.optional_change_of_apart (by decide)]
    cases Field.inputSource.required string ms <;> cases Field.inputTarget.required string ms <;>
      cases Field.label.optional string ms <;> cases Field.style.optional edgeStyle ms <;> rfl
  | _ => rfl

lemma inputGraph_renameRefs (v : Json) :
    inputGraph (renameRefs r v) = (inputGraph v).map (Graph.refer r) := by
  cases v with
  | object ms =>
    simp only [renameRefs, Field.change, inputGraph, record]
    rw [Field.withDefault_change (list_mapItems (node_renameNode "InputNodeSchema")) rfl,
      Field.withDefault_change_of_apart (by decide), Field.withDefault_change_of_apart (by decide),
      Field.withDefault_change (list_mapItems inputEdge_renameEdge) rfl,
      Field.withDefault_change_of_apart (by decide), Field.withDefault_change_of_apart (by decide)]
    cases Field.nodes.withDefault [] (list (node "InputNodeSchema")) ms <;>
      cases Field.edges.withDefault [] (list inputEdge) ms <;>
      cases Field.options.withDefault {} options ms <;> rfl
  | _ => rfl

/-! ### Renamed references are resolved alike -/

/-- Rename the id that an error is about. -/
def InputError.refer (r : String → String) : InputError → InputError
  | duplicateNode id => duplicateNode (r id)
  | unknownNode id => unknownNode (r id)
  | e => e

/-- Rename the ids that were given, each of which has a fresh one beside it. -/
def renameNames (r : String → String) (names : List (String × String)) : List (String × String) :=
  names.map fun p => (r p.1, p.2)

lemma lookup_renamed (hr : Function.Injective r) (names : List (String × String)) (id : String) :
    (renameNames r names).lookup (r id) = names.lookup id := by
  induction names with
  | nil => rfl
  | cons p names ih =>
    have hbeq : (r id == r p.1) = (id == p.1) := by
      rw [Bool.eq_iff_iff, beq_iff_eq, beq_iff_eq, hr.eq_iff]
    rw [renameNames] at ih
    simp only [renameNames, List.map_cons, List.lookup, hbeq, ih]

lemma renameNodes_refer (hr : Function.Injective r) (ids : IdSupply)
    (names : List (String × String)) (ns : List Node) :
    renameNodes ids (renameNames r names) (ns.map (Node.refer r))
      = ((renameNodes ids names ns).1,
        ((renameNodes ids names ns).2.map fun p => (p.1, renameNames r p.2)).mapError
          (InputError.refer r)) := by
  induction ns generalizing ids names with
  | nil => rfl
  | cons n ns ih =>
    have hlookup : (renameNames r names).lookup (n.refer r).id = names.lookup n.id :=
      lookup_renamed hr names n.id
    simp only [List.map_cons, renameNodes, hlookup]
    cases hn : names.lookup n.id with
    | some id => rfl
    | none =>
      simp only [Option.isSome_none, Bool.false_eq_true, if_false]
      cases hdraw : ids.draw with
      | error e => rfl
      | ok p =>
        have hnames : renameNames r names ++ [((n.refer r).id, p.1)]
            = renameNames r (names ++ [(n.id, p.1)]) := by
          simp [renameNames, Node.refer]
        simp only [hnames, ih]
        cases (renameNodes p.2 (names ++ [(n.id, p.1)]) ns).2 <;> rfl

lemma renameEdges_refer (hr : Function.Injective r) (ids : IdSupply)
    (names : List (String × String)) (es : List Edge) :
    renameEdges ids (renameNames r names) (es.map (Edge.refer r))
      = ((renameEdges ids names es).1,
        (renameEdges ids names es).2.mapError (InputError.refer r)) := by
  induction es generalizing ids with
  | nil => rfl
  | cons e es ih =>
    have hsource : (renameNames r names).lookup (e.refer r).source = names.lookup e.source :=
      lookup_renamed hr names e.source
    have htarget : (renameNames r names).lookup (e.refer r).target = names.lookup e.target :=
      lookup_renamed hr names e.target
    simp only [List.map_cons, renameEdges, hsource, htarget]
    cases hs : names.lookup e.source with
    | none => rfl
    | some source =>
      cases ht : names.lookup e.target with
      | none => rfl
      | some target =>
        cases hdraw : ids.draw with
        | error e => rfl
        | ok p =>
          simp only [ih]
          cases (renameEdges p.2 names es).2 <;> rfl

end Exchange

namespace Graph

open Exchange

/-- Renaming the given ids changes neither the chart nor what is left of the supply. -/
lemma ofInput_renameRefs {r : String → String} (hr : Function.Injective r) (ids : IdSupply)
    (v : Json) :
    ofInput ids (renameRefs r v)
      = ((ofInput ids v).1, (ofInput ids v).2.mapError (InputError.refer r)) := by
  unfold ofInput
  rw [inputGraph_renameRefs]
  cases hv : inputGraph v with
  | bad issues => rfl
  | ok given =>
    have hnodes := renameNodes_refer hr ids [] given.nodes
    simp only [Checked.map_ok, Checked.toExcept, Graph.refer]
    rw [show renameNames r [] = [] from rfl] at hnodes
    rw [hnodes]
    cases hn : renameNodes ids [] given.nodes with
    | mk rest result =>
      cases result with
      | error e => rfl
      | ok p =>
        simp only [Except.map, Except.mapError]
        rw [renameEdges_refer hr]
        cases (renameEdges rest p.2 given.edges).2 <;> rfl

end Graph
end Flowchart
