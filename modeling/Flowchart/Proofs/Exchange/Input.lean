import Flowchart.Proofs.Exchange.Renaming

/-!
# Charts that are put in from outside

A chart is put in with ids of its own, and comes out with fresh ones.  `ofInput_cases` says which of
two things happens if there are enough fresh ids.  Either the given ids are distinct and every edge
runs between them; then the chart comes out as it was given, and its edges run between the nodes
they were given to run between (`Graph.Reissues`).  Or an id is given twice or an edge has an
unknown end, and the error says so.

What was given is what the records say, one by one (`Given`).  That their ids are only references is
told in terms of two inputs that differ in their ids.
-/

namespace Flowchart

namespace Exchange

variable {α : Type}

/-! ### What the records say -/

/-- The records in the list under a field; there are none if the field is missing. -/
def listed (f : Field) : Json → List Json
  | .object ms =>
    match f.find? ms with
    | some (_, .array vs) => vs
    | _ => []
  | _ => []

/-- What the record of a node says.  A style that sets nothing is no style. -/
def NodeRecord (v : Json) (n : Node) : Prop :=
  ∃ ms style, v = .object ms ∧ Field.id.required string ms = .ok n.id ∧
    Field.shape.required named ms = .ok n.shape ∧ Field.label.required string ms = .ok n.label ∧
    Field.style.optional nodeStyle ms = .ok style ∧
    n.style = if style = some {} then none else style

/-- What the record of an edge says.  A style that sets nothing is no style. -/
def EdgeRecord (v : Json) (e : Edge) : Prop :=
  ∃ ms style, v = .object ms ∧ Field.inputSource.required string ms = .ok e.source ∧
    Field.inputTarget.required string ms = .ok e.target ∧
    Field.label.optional string ms = .ok e.label ∧ Field.style.optional edgeStyle ms = .ok style ∧
    e.style = if style = some {} then none else style

/-- A chart is what the records of a value say. -/
structure Given (v : Json) (g : Graph) : Prop where
  nodes : List.Forall₂ NodeRecord (listed Field.nodes v) g.nodes
  edges : List.Forall₂ EdgeRecord (listed Field.edges v) g.edges
  options : ∃ ms, v = .object ms ∧ Field.options.withDefault {} options ms = .ok g.options

lemma unlessEmpty_eq [DecidableEq α] (empty : α) (style : Option α) :
    unlessEmpty empty style = if style = some empty then none else style := by
  cases style with
  | none => simp [unlessEmpty]
  | some a => by_cases h : a = empty <;> simp [unlessEmpty, Option.filter, h]

lemma forall₂_of_items {check : Json → Checked α} {index : Nat} {vs : List Json} {as : List α}
    (h : Checked.items check index vs = .ok as) :
    List.Forall₂ (fun v a => check v = .ok a) vs as := by
  induction vs generalizing index as with
  | nil =>
    cases h
    exact .nil
  | cons v vs ih =>
    simp only [Checked.items, Checked.map_eq, Checked.seq_eq, Checked.apply_eq_ok_iff,
      Checked.map_eq_ok_iff, Checked.under_eq_ok_iff] at h
    obtain ⟨_, as', ⟨a, ha, rfl⟩, has, rfl⟩ := h
    exact .cons ha (ih has)

lemma forall₂_listed {f : Field} {check : Json → Checked α} {ms : Members} {as : List α}
    (h : f.withDefault [] (list check) ms = .ok as) :
    List.Forall₂ (fun v a => check v = .ok a) (listed f (.object ms)) as := by
  unfold Field.withDefault at h
  rw [listed]
  cases hfind : f.find? ms with
  | none =>
    simp only [hfind, Checked.ok.injEq] at h
    subst h
    exact .nil
  | some m =>
    obtain ⟨name, v⟩ := m
    simp only [hfind, Checked.under_eq_ok_iff] at h
    cases v with
    | array vs => exact forall₂_of_items h
    | _ => cases h

lemma nodeRecord_of_node {name : String} {v : Json} {n : Node} (h : node name v = .ok n) :
    NodeRecord v n := by
  cases v with
  | object ms =>
    simp only [node, record, Checked.seq_eq, Checked.map_eq, Checked.apply_eq_ok_iff,
      Checked.map_eq_ok_iff] at h
    obtain ⟨_, style, ⟨_, label, ⟨_, shape, ⟨id, hid, rfl⟩, hshape, rfl⟩, hlabel, rfl⟩, hstyle,
      rfl⟩ := h
    exact ⟨ms, style, rfl, hid, hshape, hlabel, hstyle, unlessEmpty_eq {} style⟩
  | _ => cases h

lemma edgeRecord_of_inputEdge {v : Json} {e : Edge} (h : inputEdge v = .ok e) : EdgeRecord v e := by
  cases v with
  | object ms =>
    simp only [inputEdge, record, Checked.seq_eq, Checked.map_eq, Checked.apply_eq_ok_iff,
      Checked.map_eq_ok_iff] at h
    obtain ⟨_, style, ⟨_, label, ⟨_, target, ⟨source, hsource, rfl⟩, htarget, rfl⟩, hlabel, rfl⟩,
      hstyle, rfl⟩ := h
    exact ⟨ms, style, rfl, hsource, htarget, hlabel, hstyle, unlessEmpty_eq {} style⟩
  | _ => cases h

lemma given_of_inputGraph {v : Json} {g : Graph} (h : inputGraph v = .ok g) : Given v g := by
  cases v with
  | object ms =>
    simp only [inputGraph, record, Checked.seq_eq, Checked.map_eq, Checked.apply_eq_ok_iff,
      Checked.map_eq_ok_iff] at h
    obtain ⟨_, o, ⟨_, edges, ⟨nodes, hnodes, rfl⟩, hedges, rfl⟩, ho, rfl⟩ := h
    exact ⟨(forall₂_listed hnodes).imp fun _ _ => nodeRecord_of_node,
      (forall₂_listed hedges).imp fun _ _ => edgeRecord_of_inputEdge, ms, rfl, ho⟩
  | _ => cases h

/-! ### Giving out ids -/

variable {ids : IdSupply} {names : List (String × String)}

/-- Nodes get the next ids in order, or a given id is among the names before it. -/
lemma renameNodes_cases {ns : List Node} (hlasts : ids.Lasts ns.length)
    (hnames : (names.map Prod.fst).Nodup) :
    ((names.map Prod.fst ++ ns.map Node.id).Nodup ∧ ∃ ms names',
        renameNodes ids names ns = (ids.advance ns.length, .ok (ms, names')) ∧
          ms.map Node.id = ids.ahead ns.length) ∨
      ¬ (names.map Prod.fst ++ ns.map Node.id).Nodup ∧
        ∃ id, (renameNodes ids names ns).2 = .error (.duplicateNode id) := by
  induction ns generalizing ids names with
  | nil => exact .inl ⟨by simpa using hnames, [], names, rfl, rfl⟩
  | cons n ns ih =>
    by_cases hn : n.id ∈ names.map Prod.fst
    · obtain ⟨id, hid⟩ := Option.ne_none_iff_exists'.1 (mt lookup_eq_none_iff.1 (not_not.2 hn))
      refine .inr ⟨fun hnodup => ?_, n.id, by simp [renameNodes, hid]⟩
      exact (List.nodup_append.1 hnodup).2.2 _ hn _ List.mem_cons_self rfl
    · have hlookup : names.lookup n.id = none := lookup_eq_none_iff.2 hn
      have hkeys : (names ++ [(n.id, ids.name ids.drawn)]).map Prod.fst ++ ns.map Node.id
          = names.map Prod.fst ++ (n :: ns).map Node.id := by
        simp
      have hnames' : ((names ++ [(n.id, ids.name ids.drawn)]).map Prod.fst).Nodup := by
        rw [List.map_append, List.map_singleton, ← List.concat_eq_append]
        exact hnames.concat hn
      have hstep : renameNodes ids names (n :: ns)
          = ((renameNodes ids.next (names ++ [(n.id, ids.name ids.drawn)]) ns).1,
            (renameNodes ids.next (names ++ [(n.id, ids.name ids.drawn)]) ns).2.map fun p =>
              ({ n with id := ids.name ids.drawn } :: p.1, p.2)) := by
        simp [renameNodes, hlookup, hlasts.draw_eq]
      rw [hstep, ← hkeys]
      rcases ih hlasts.next hnames' with ⟨hnodup, ms, names', hrun, hids⟩ | ⟨hdup, id, hrun⟩
      · refine .inl ⟨hnodup, { n with id := ids.name ids.drawn } :: ms, names', ?_, ?_⟩
        · rw [hrun, List.length_cons, IdSupply.advance_succ]
          rfl
        · simp [hids, IdSupply.ahead_succ]
      · exact .inr ⟨hdup, id, by rw [hrun]; rfl⟩

/-- Edges get the next ids in order, or one of them has an end that is not among the names. -/
lemma renameEdges_cases (names : List (String × String)) {es : List Edge}
    (hlasts : ids.Lasts es.length) :
    ((∀ e ∈ es, e.source ∈ names.map Prod.fst ∧ e.target ∈ names.map Prod.fst) ∧
        ∃ es', (renameEdges ids names es).2 = .ok es' ∧ es'.map Edge.id = ids.ahead es.length) ∨
      (∃ e ∈ es, e.source ∉ names.map Prod.fst ∨ e.target ∉ names.map Prod.fst) ∧
        ∃ id, (renameEdges ids names es).2 = .error (.unknownNode id) := by
  induction es generalizing ids with
  | nil => exact .inl ⟨by simp, [], rfl, rfl⟩
  | cons e es ih =>
    cases hsource : names.lookup e.source with
    | none =>
      refine .inr ⟨⟨e, List.mem_cons_self, .inl (lookup_eq_none_iff.1 hsource)⟩, e.source, ?_⟩
      simp [renameEdges, hsource]
    | some source =>
      cases htarget : names.lookup e.target with
      | none =>
        refine .inr ⟨⟨e, List.mem_cons_self, .inr (lookup_eq_none_iff.1 htarget)⟩, e.target, ?_⟩
        simp [renameEdges, hsource, htarget]
      | some target =>
        have hends : e.source ∈ names.map Prod.fst ∧ e.target ∈ names.map Prod.fst := by
          rw [← not_not (a := e.source ∈ _), ← not_not (a := e.target ∈ _), ← lookup_eq_none_iff,
            ← lookup_eq_none_iff, hsource, htarget]
          simp
        have hstep : (renameEdges ids names (e :: es)).2
            = (renameEdges ids.next names es).2.map
              ({ e with id := ids.name ids.drawn, source, target } :: ·) := by
          simp [renameEdges, hsource, htarget, hlasts.draw_eq]
        rw [hstep]
        rcases ih hlasts.next with ⟨hall, es', hrun, hids⟩ | ⟨⟨e', he', hend⟩, id, hrun⟩
        · refine .inl ⟨List.forall_mem_cons.2 ⟨hends, hall⟩, _, by rw [hrun]; rfl, ?_⟩
          simp [hids, IdSupply.ahead_succ]
        · exact .inr ⟨⟨e', List.mem_cons_of_mem e he', hend⟩, id, by rw [hrun]; rfl⟩

end Exchange

/-! ### The outcome -/

/-- A chart is another one with fresh ids: nothing else is changed, no id is used twice, and edges
run between the nodes at the same places. -/
structure Graph.Reissues (h g : Graph) : Prop where
  nodes : List.Forall₂ (fun n m => m = { n with id := m.id }) g.nodes h.nodes
  edges : List.Forall₂
    (fun e e' => e' = { e with id := e'.id, source := e'.source, target := e'.target })
    g.edges h.edges
  options : h.options = g.options
  ids_nodup : (h.nodes.map Node.id ++ h.edges.map Edge.id).Nodup
  ends : ∀ {i j : Nat} {e e' : Edge} {n m : Node}, g.edges[i]? = some e → h.edges[i]? = some e' →
    g.nodes[j]? = some n → h.nodes[j]? = some m →
      (e'.source = m.id ↔ e.source = n.id) ∧ (e'.target = m.id ↔ e.target = n.id)

namespace Graph

open Exchange

variable {ids : IdSupply} {v : Json} {given : Graph}

/-- The ends of an edge are looked up among the names, and so it runs between the nodes at the same
places. -/
lemma ends_of_renameEdges {nodes : List Node} {edges : List Edge}
    (hgiven : (given.nodes.map Node.id).Nodup) (hnodup : (nodes.map Node.id).Nodup)
    (h : (renameEdges ids ((given.nodes.map Node.id).zip (nodes.map Node.id)) given.edges).2
      = .ok edges) {i j : Nat} {e e' : Edge} {n m : Node} (he : given.edges[i]? = some e)
    (he' : edges[i]? = some e') (hn : given.nodes[j]? = some n) (hm : nodes[j]? = some m) :
    (e'.source = m.id ↔ e.source = n.id) ∧ (e'.target = m.id ↔ e.target = n.id) := by
  have hedges := of_renameEdges h
  obtain ⟨hi, rfl⟩ := List.getElem?_eq_some_iff.1 he
  obtain ⟨hi', rfl⟩ := List.getElem?_eq_some_iff.1 he'
  obtain ⟨hsource, htarget, -⟩ := hedges.get hi hi'
  have hn : (given.nodes.map Node.id)[j]? = some n.id := by simp [hn]
  have hm : (nodes.map Node.id)[j]? = some m.id := by simp [hm]
  exact ⟨lookup_zip_iff hgiven hnodup hsource hn hm, lookup_zip_iff hgiven hnodup htarget hn hm⟩

/-- With enough ids, a chart is put in if and only if its references are in order. -/
lemma ofInput_cases (hv : inputGraph v = .ok given) (hfresh : ids.Fresh)
    (hlasts : ids.Lasts (given.nodes.length + given.edges.length)) :
    (given.Sound ∧ ∃ g, (ofInput ids v).2 = .ok g ∧ g.Reissues given) ∨
      ¬ given.Sound ∧ ∃ id, (ofInput ids v).2 = .error (.duplicateNode id) ∨
        (ofInput ids v).2 = .error (.unknownNode id) := by
  have hlastsNodes : ids.Lasts given.nodes.length := fun size hsize => by
    have := hlasts size hsize
    omega
  have hnil : (List.map Prod.fst ([] : List (String × String))).Nodup := List.nodup_nil
  rcases renameNodes_cases hlastsNodes hnil with
    ⟨hgiven, nodes, names, hrun, hnodeIds⟩ | ⟨hdup, id, hrun⟩
  · obtain ⟨rfl, hnodes⟩ := of_renameNodes (congrArg Prod.snd hrun)
    rw [List.map_nil, List.nil_append] at hgiven
    rw [List.nil_append] at hrun
    have hnames : ((given.nodes.map Node.id).zip (nodes.map Node.id)).map Prod.fst
        = given.nodeIds := by
      rw [List.map_fst_zip (by simp [hnodes.length_eq]), nodeIds]
    rcases renameEdges_cases ((given.nodes.map Node.id).zip (nodes.map Node.id)) hlasts.advance with
      ⟨hends, edges, hresolved, hedgeIds⟩ | ⟨hend, id, hunknown⟩
    · rw [hnames] at hends
      have hids : (nodes.map Node.id ++ edges.map Edge.id).Nodup := by
        rw [hnodeIds, hedgeIds, ← IdSupply.ahead_add]
        exact hfresh.nodup_ahead hlasts
      refine .inl ⟨⟨hgiven, hends⟩, { given with nodes, edges }, ?_, ?_⟩
      · refine ofInput_eq_ok_iff.2 ⟨given, nodes, _, edges, hv, by rw [hrun], ?_, rfl⟩
        rw [hrun]
        exact hresolved
      · exact ⟨hnodes, (of_renameEdges hresolved).imp fun _ _ h => h.2.2, rfl, hids,
          ends_of_renameEdges hgiven (List.nodup_append.1 hids).1 hresolved⟩
    · rw [hnames] at hend
      obtain ⟨e, he, hend⟩ := hend
      refine .inr ⟨fun hsound => ?_, id, .inr ?_⟩
      · obtain ⟨hsource, htarget⟩ := hsound.ends_mem e he
        exact hend.elim (absurd hsource) (absurd htarget)
      · simp [ofInput, hv, Checked.toExcept, hrun, hunknown, Except.map]
  · refine .inr ⟨fun hsound => hdup hsound.ids_nodup, id, .inl ?_⟩
    have hresult : renameNodes ids [] given.nodes
        = ((renameNodes ids [] given.nodes).1, .error (.duplicateNode id)) := by
      rw [← hrun]
    rw [ofInput, hv, Checked.toExcept]
    simp only
    rw [hresult]

/-- A chart is put in if and only if no id is given twice and every edge runs between given ids.
Then it comes out as it was given, with fresh ids, and the given ids make no difference to it. -/
theorem ofInput_faithful (ids : IdSupply) (v : Json) (given : Graph)
    (hv : inputGraph v = .ok given) (hfresh : ids.Fresh)
    (hlasts : ids.Lasts (given.nodes.length + given.edges.length)) :
    Given v given ∧
      ((∃ err, (ofInput ids v).2 = .error err) ↔
        ¬ given.nodeIds.Nodup ∨
          ∃ e ∈ given.edges, e.source ∉ given.nodeIds ∨ e.target ∉ given.nodeIds) ∧
      (∀ err, (ofInput ids v).2 = .error err →
        ∃ id, err = .duplicateNode id ∨ err = .unknownNode id) ∧
      (∀ g, (ofInput ids v).2 = .ok g → g.Reissues given) ∧
      ∀ r, Function.Injective r →
        ofInput ids (renameRefs r v)
          = ((ofInput ids v).1, (ofInput ids v).2.mapError (InputError.refer r)) := by
  have hsound : given.Sound ↔ ¬ (¬ given.nodeIds.Nodup ∨
      ∃ e ∈ given.edges, e.source ∉ given.nodeIds ∨ e.target ∉ given.nodeIds) := by
    push Not
    exact ⟨fun h => ⟨h.ids_nodup, h.ends_mem⟩, fun h => ⟨h.1, h.2⟩⟩
  refine ⟨given_of_inputGraph hv, ?_, ?_, ?_, fun r hr => ofInput_renameRefs hr ids v⟩
  · rw [← not_iff_not, ← hsound]
    rcases ofInput_cases hv hfresh hlasts with ⟨h, g, hg, -⟩ | ⟨h, id, herr | herr⟩
    · simp [h, hg]
    · simp [h, herr]
    · simp [h, herr]
  · intro err herr
    rcases ofInput_cases hv hfresh hlasts with ⟨-, g, hg, -⟩ | ⟨-, id, h⟩
    · simp [hg] at herr
    · refine ⟨id, ?_⟩
      simpa [herr] using h
  · intro g hg
    rcases ofInput_cases hv hfresh hlasts with ⟨-, g', hg', hreissues⟩ | ⟨-, id, herr | herr⟩
    · obtain rfl : g' = g := by simpa [hg'] using hg
      exact hreissues
    · simp [herr] at hg
    · simp [herr] at hg

theorem ofInput_faithful_counting :
    let v : Json := .object
      [("nodes", .array
          [.object [("id", .string "n2"), ("type", .string "diamond"), ("label", .string "?"),
              ("style", .object [])],
            .object [("label", .string ""), ("shape", .string "ellipse"), ("id", .string "n1")]]),
        ("edges", .array [.object [("from", .string "n1"), ("target", .string "n2"),
          ("style", .object [("strokeStyle", .string "dashed")])]])]
    let given : Graph :=
      { nodes := [⟨"n2", .diamond, "?", none⟩, ⟨"n1", .ellipse, "", none⟩]
        edges := [⟨"", "n1", "n2", none, some { strokeStyle := some .dashed }⟩] }
    let g : Graph :=
      { nodes := [⟨"n1", .diamond, "?", none⟩, ⟨"n2", .ellipse, "", none⟩]
        edges := [⟨"n3", "n2", "n1", none, some { strokeStyle := some .dashed }⟩] }
    inputGraph v = .ok given ∧ (ofInput .counting v).2 = .ok g ∧ g.Reissues given ∧
      (ofInput .counting (renameRefs ("n" ++ ·) v)).2 = .ok g := by
  intro v given g
  have hv : inputGraph v = .ok given := rfl
  have hg : (ofInput .counting v).2 = .ok g := by decide +kernel
  obtain ⟨-, -, -, hreissues, hrename⟩ := ofInput_faithful .counting v given hv
    (IdSupply.sequential_fresh _ _) (by decide +kernel)
  refine ⟨hv, hg, hreissues g hg, ?_⟩
  rw [hrename ("n" ++ ·) fun s t h => (String.append_right_inj _).1 h, hg]
  rfl

end Graph
end Flowchart
