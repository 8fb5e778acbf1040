import Flowchart.Exchange.Charts
import Flowchart.Proofs.Build.Meaning
import Flowchart.Proofs.Exchange.Records
import Flowchart.Proofs.Lists

/-!
# Charts are stored without loss

A chart that is stored as JSON and read again is the same chart exactly if it is `Storable`: the
ends of its edges are listed, and no style in it sets nothing (`ofJson_toJson_iff`).  There are
three ways to a chart, and each of them gives a storable one:

* a text is parsed, with any options and any supply of ids (`storable_of_build`);
* records are put in from outside and get fresh ids (`storable_of_ofInput`);
* a stored chart is read (`storable_of_ofJson`).

So every `Accepted` chart comes back as it was (`ofJson_toJson_of_accepted`).  The supply of ids may
repeat itself, in which case nothing is known about the connections of the chart, but an end of an
edge is still the id of a node.
-/

namespace Flowchart

/-- A chart that can be stored without loss. -/
structure Graph.Storable (g : Graph) : Prop where
  styles : g.NoEmptyStyle
  ends_mem : ∀ e ∈ g.edges, e.source ∈ g.nodeIds ∧ e.target ∈ g.nodeIds

/-- The options make no difference. -/
lemma Graph.Storable.of_eq {g g' : Graph} (h : g.Storable) (hnodes : g'.nodes = g.nodes)
    (hedges : g'.edges = g.edges) : g'.Storable := by
  obtain ⟨⟨hn, he⟩, hends⟩ := h
  rw [← hedges] at he hends
  rw [Graph.nodeIds, ← hnodes] at hends
  rw [← hnodes] at hn
  exact ⟨⟨hn, he⟩, hends⟩

/-! ### Stored charts -/

namespace Exchange

lemma missingEnd?_eq_none_iff {ids : List String} {e : Edge} :
    missingEnd? ids e = none ↔ e.source ∈ ids ∧ e.target ∈ ids := by
  simp [missingEnd?]

end Exchange

open Exchange

namespace Graph

/-- A stored chart is read if its records are accepted and the ends of its edges are listed. -/
lemma ofJson_eq_ok_iff {v : Json} {g : Graph} :
    ofJson v = .ok g ↔
      graph v = .ok g ∧ ∀ e ∈ g.edges, e.source ∈ g.nodeIds ∧ e.target ∈ g.nodeIds := by
  have hends (h : Graph) :
      (h.edges.findSome? fun e => (missingEnd? h.nodeIds e).map (e.id, ·)) = none ↔
        ∀ e ∈ h.edges, e.source ∈ h.nodeIds ∧ e.target ∈ h.nodeIds := by
    simp [List.findSome?_eq_none_iff, missingEnd?_eq_none_iff]
  cases hv : graph v with
  | bad issues => simp [ofJson, hv, Checked.toExcept, bind, Except.bind]
  | ok h =>
    simp only [ofJson, hv, Checked.toExcept, bind, Except.bind, Checked.ok.injEq]
    split
    next edge id hmissing =>
      have hnot : ¬ ∀ e ∈ h.edges, e.source ∈ h.nodeIds ∧ e.target ∈ h.nodeIds := by
        rw [← hends, hmissing]
        simp
      simp only [reduceCtorEq, false_iff]
      rintro ⟨rfl, hall⟩
      exact hnot hall
    next hnone =>
      simp only [Except.ok.injEq, iff_self_and]
      rintro rfl
      exact (hends h).1 hnone

lemma storable_of_ofJson {v : Json} {g : Graph} (h : ofJson v = .ok g) : g.Storable := by
  obtain ⟨hv, hends⟩ := ofJson_eq_ok_iff.1 h
  exact ⟨noEmptyStyle_of_graph hv, hends⟩

/-- Exactly the storable charts come back as they were. -/
lemma ofJson_toJson_iff {g : Graph} : ofJson g.toJson = .ok g ↔ g.Storable := by
  constructor
  · exact storable_of_ofJson
  · intro h
    exact ofJson_eq_ok_iff.2 ⟨graph_graphJson h.styles, h.ends_mem⟩

end Graph

/-! ### Charts from outside -/

namespace Exchange

variable {ids : IdSupply} {names names' : List (String × String)}

lemma except_map_eq_ok_iff {ε α β : Type} {f : α → β} {r : Except ε α} {b : β} :
    r.map f = .ok b ↔ ∃ a, r = .ok a ∧ f a = b := by
  cases r <;> simp [Except.map]

/-- A node whose id is not among the names gets the next id. -/
lemma renameNodes_cons_eq_ok_iff {n : Node} {ns ms : List Node} :
    (renameNodes ids names (n :: ns)).2 = .ok (ms, names') ↔
      names.lookup n.id = none ∧ ids.Offers ids.drawn ∧
        ∃ ms', (renameNodes ids.next (names ++ [(n.id, ids.name ids.drawn)]) ns).2
            = .ok (ms', names') ∧ { n with id := ids.name ids.drawn } :: ms' = ms := by
  cases hlookup : names.lookup n.id with
  | some id => simp [renameNodes, hlookup]
  | none =>
    by_cases ho : ids.Offers ids.drawn
    · have hdraw := IdSupply.draw_eq_ok_iff.2 ⟨ho, rfl, rfl⟩
      simp [renameNodes, hlookup, hdraw, ho, except_map_eq_ok_iff]
    · have hdraw := IdSupply.draw_eq_error ho
      simp [renameNodes, hlookup, hdraw, ho]

/-- Renaming changes nothing but the ids of the nodes, and the names are the old ids, each with the
new one. -/
lemma of_renameNodes {ns ms : List Node} (h : (renameNodes ids names ns).2 = .ok (ms, names')) :
    names' = names ++ (ns.map Node.id).zip (ms.map Node.id) ∧
      List.Forall₂ (fun n m => m = { n with id := m.id }) ns ms := by
  induction ns generalizing ids names ms with
  | nil =>
    simp only [renameNodes, Except.ok.injEq, Prod.mk.injEq] at h
    obtain ⟨rfl, rfl⟩ := h
    simp
  | cons n ns ih =>
    obtain ⟨-, -, ms', hrest, rfl⟩ := renameNodes_cons_eq_ok_iff.1 h
    obtain ⟨hnames, hms⟩ := ih hrest
    exact ⟨by simp [hnames], .cons rfl hms⟩

/-- An edge whose ends are among the names gets the next id. -/
lemma renameEdges_cons_eq_ok_iff {e : Edge} {es es' : List Edge} :
    (renameEdges ids names (e :: es)).2 = .ok es' ↔
      ids.Offers ids.drawn ∧
        ∃ source target, names.lookup e.source = some source ∧
          names.lookup e.target = some target ∧
          ∃ es'', (renameEdges ids.next names es).2 = .ok es'' ∧
            { e with id := ids.name ids.drawn, source, target } :: es'' = es' := by
  cases hsource : names.lookup e.source with
  | none => simp [renameEdges, hsource]
  | some source =>
    cases htarget : names.lookup e.target with
    | none => simp [renameEdges, hsource, htarget]
    | some target =>
      by_cases ho : ids.Offers ids.drawn
      · have hdraw := IdSupply.draw_eq_ok_iff.2 ⟨ho, rfl, rfl⟩
        simp [renameEdges, hsource, htarget, hdraw, ho, except_map_eq_ok_iff]
      · have hdraw := IdSupply.draw_eq_error ho
        simp [renameEdges, hsource, htarget, hdraw, ho]

/-- Renaming changes nothing but the ids of the edges and their ends, which are resolved. -/
lemma of_renameEdges {es es' : List Edge} (h : (renameEdges ids names es).2 = .ok es') :
    List.Forall₂ (fun e e' => names.lookup e.source = some e'.source ∧
      names.lookup e.target = some e'.target ∧
      e' = { e with id := e'.id, source := e'.source, target := e'.target }) es es' := by
  induction es generalizing ids es' with
  | nil =>
    simp only [renameEdges, Except.ok.injEq] at h
    subst h
    exact .nil
  | cons e es ih =>
    obtain ⟨-, source, target, hsource, htarget, es'', hrest, rfl⟩ :=
      renameEdges_cons_eq_ok_iff.1 h
    exact .cons ⟨hsource, htarget, rfl⟩ (ih hrest)

end Exchange

namespace Graph

/-- A chart from outside is accepted if its records are, its nodes can be renamed and the ends of
its edges are among the names. -/
lemma ofInput_eq_ok_iff {ids : IdSupply} {v : Json} {g : Graph} :
    (ofInput ids v).2 = .ok g ↔
      ∃ given nodes names edges, inputGraph v = .ok given ∧
        (renameNodes ids [] given.nodes).2 = .ok (nodes, names) ∧
        (renameEdges (renameNodes ids [] given.nodes).1 names given.edges).2 = .ok edges ∧
        { given with nodes, edges } = g := by
  cases hv : inputGraph v with
  | bad issues => simp [ofInput, hv, Checked.toExcept]
  | ok given =>
    cases hr : renameNodes ids [] given.nodes with
    | mk left r =>
      cases r with
      | error e => simp [ofInput, hv, Checked.toExcept, hr]
      | ok p =>
        obtain ⟨nodes, names⟩ := p
        simp [ofInput, hv, Checked.toExcept, hr, except_map_eq_ok_iff]

lemma storable_of_ofInput {ids : IdSupply} {v : Json} {g : Graph} (h : (ofInput ids v).2 = .ok g) :
    g.Storable := by
  obtain ⟨given, nodes, names, edges, hv, hrenamed, hresolved, rfl⟩ := ofInput_eq_ok_iff.1 h
  have hstyles := noEmptyStyle_of_inputGraph hv
  obtain ⟨hnames, hnodes⟩ := of_renameNodes hrenamed
  have hedges := of_renameEdges hresolved
  -- a name stands for the id of a node
  have hname {id id' : String} (hid : names.lookup id = some id') : id' ∈ nodes.map Node.id := by
    obtain ⟨before, after, heq, -⟩ := List.lookup_eq_some_iff.1 hid
    have hmem : (id, id') ∈ (given.nodes.map Node.id).zip (nodes.map Node.id) := by
      rw [← List.nil_append (List.zip _ _), ← hnames, heq]
      simp
    exact (List.of_mem_zip hmem).2
  refine ⟨⟨?_, ?_⟩, ?_⟩
  · intro m hm
    obtain ⟨n, hn, hmn⟩ := exists_of_mem_forall₂ hnodes hm
    rw [hmn]
    exact hstyles.node n hn
  · intro e' he'
    obtain ⟨e, he, -, -, hee'⟩ := exists_of_mem_forall₂ hedges he'
    rw [hee']
    exact hstyles.edge e he
  · intro e' he'
    obtain ⟨e, -, hsource, htarget, -⟩ := exists_of_mem_forall₂ hedges he'
    exact ⟨hname hsource, hname htarget⟩

end Graph

/-! ### Charts from texts -/

namespace Build

lemma connectionStyle_ne (dashed : Bool) : connectionStyle dashed ≠ some {} := by
  cases dashed <;> simp [connectionStyle]

namespace State

variable {s s' : State} {n : Node} {t : Token}

/-- The chart built so far can be stored, and the line goes on from one of its nodes. -/
structure Orderly (s : State) : Prop where
  storable : s.graph.Storable
  last_mem : ∀ n ∈ s.chain.last, n ∈ s.nodes

lemma Orderly.addNode (h : s.Orderly) (key : Node.Key) : (s.addNode key).Orderly := by
  have hsub : s.graph.nodeIds ⊆ (s.addNode key).graph.nodeIds :=
    List.map_subset _ (List.subset_append_left _ _)
  refine ⟨⟨⟨?_, h.storable.styles.edge⟩, ?_⟩, ?_⟩
  · intro m hm
    rcases List.mem_append.1 hm with hm | hm
    · exact h.storable.styles.node m hm
    · rw [List.mem_singleton.1 hm]
      simp [newNode]
  · intro e he
    obtain ⟨hsource, htarget⟩ := h.storable.ends_mem e he
    exact ⟨hsub hsource, hsub htarget⟩
  · intro m hm
    exact List.mem_append_left _ (h.last_mem m hm)

lemma Orderly.addEdge {m : Node} (h : s.Orderly) (hm : m ∈ s.nodes) (hn : n ∈ s.nodes) :
    (s.addEdge m n).Orderly := by
  refine ⟨⟨⟨h.storable.styles.node, ?_⟩, ?_⟩, h.last_mem⟩
  · intro e he
    rcases List.mem_append.1 he with he | he
    · exact h.storable.styles.edge e he
    · rw [List.mem_singleton.1 he]
      exact connectionStyle_ne s.chain.dashed
  · intro e he
    rcases List.mem_append.1 he with he | he
    · exact h.storable.ends_mem e he
    · rw [List.mem_singleton.1 he]
      exact ⟨List.mem_map_of_mem hm, List.mem_map_of_mem hn⟩

lemma Orderly.step (h : s.Orderly) (hf : (s.step t).failure = none) : (s.step t).state.Orderly := by
  rcases step_cases hf with ⟨hnodes, hedges, -, hlast⟩ | ⟨key, n, s₁, _, s₂, _, he, hc, -, hstep⟩
  · refine ⟨h.storable.of_eq hnodes hedges, fun n hn => ?_⟩
    rw [hnodes]
    exact h.last_mem n (hlast n hn)
  · obtain ⟨h₁, hn⟩ : s₁.Orderly ∧ n ∈ s₁.nodes := by
      rcases ensureNode_eq_ok_iff.1 he with ⟨hfind, rfl, -⟩ | ⟨-, -, rfl, rfl, -⟩
      · exact ⟨h, (node?_eq_some hfind).1⟩
      · exact ⟨h.addNode key, by simp [State.addNode]⟩
    obtain ⟨h₂, hn⟩ : s₂.Orderly ∧ n ∈ s₂.nodes := by
      rcases connect_eq_ok_iff.1 hc with ⟨-, rfl, -⟩ | ⟨m, hlast, -, rfl, -⟩
      · exact ⟨h₁, hn⟩
      · exact ⟨h₁.addEdge (h₁.last_mem m hlast) hn, hn⟩
    rw [hstep]
    refine ⟨h₂.storable, ?_⟩
    rintro m ⟨⟩
    exact hn

lemma Orderly.run {i : Nat} {ts : List Token} (h : s.Orderly) (hf : (run i s ts).failure = none) :
    (run i s ts).state.Orderly := by
  induction ts generalizing i s with
  | nil => exact h
  | cons t ts ih =>
    rw [failure_run_cons, Option.or_eq_none_iff] at hf
    rw [state_run_cons i ts hf.1]
    exact ih (h.step hf.1) hf.2

end State

lemma storable_of_build {ids : IdSupply} {o : Options} {ts : List Token} {g : Graph}
    (h : (build ids o ts).graph = .ok g) : g.Storable := by
  obtain ⟨hf, rfl⟩ := graph_eq_ok_iff.1 h
  have hinit : State.Orderly { options := o, ids } := by
    refine ⟨⟨⟨?_, ?_⟩, ?_⟩, ?_⟩ <;> simp [State.graph]
  exact (hinit.run hf).storable

end Build

/-! ### All charts -/

namespace Graph

/-- The ways in which charts come about. -/
inductive Accepted : Graph → Prop where
  /-- A text was parsed. -/
  | parsed {ids : IdSupply} {o : Options} {text : String} {g : Graph}
      (h : (Build.parse ids o text).graph = .ok g) : Accepted g
  /-- Records were put in from outside. -/
  | input {ids : IdSupply} {v : Json} {g : Graph} (h : (ofInput ids v).2 = .ok g) : Accepted g
  /-- A stored chart was read. -/
  | stored {v : Json} {g : Graph} (h : ofJson v = .ok g) : Accepted g

lemma Accepted.storable {g : Graph} (h : g.Accepted) : g.Storable := by
  cases h with
  | parsed h => exact Build.storable_of_build h
  | input h => exact storable_of_ofInput h
  | stored h => exact storable_of_ofJson h

/-- A chart that is stored and read again is the same, field by field. -/
theorem ofJson_toJson_of_accepted {g : Graph} (h : g.Accepted) : ofJson g.toJson = .ok g :=
  ofJson_toJson_iff.2 h.storable

theorem ofJson_toJson_of_accepted_coerced :
    let members : Members :=
      [("stroke_width", .bool true), ("opacity", .null), ("fontSize", .string " 1_2 ")]
    let v : Json := .object
      [("nodes", .array [.object [("id", .string "a"), ("shape", .string "ellipse"),
          ("label", .string ""), ("style", .object members), ("extra", .int 0)]]),
        ("edges", .array [.object [("id", .string "b"), ("source", .string "a"),
          ("target", .string "a"), ("label", .string ""), ("style", .object [])]]),
        ("options", .object [("direction", .string " lr ")])]
    let style : NodeStyle := { strokeWidth := some (.ofInt 1), fontSize := some 12 }
    let g : Graph :=
      { nodes := [⟨"a", .ellipse, "", some style⟩]
        edges := [⟨"b", "a", "a", some "", none⟩]
        options := { direction := .right } }
    ofJson v = .ok g ∧ ofJson g.toJson = .ok g := by
  intro members v style g
  have hv : ofJson v = .ok g := rfl
  exact ⟨hv, ofJson_toJson_of_accepted (.stored hv)⟩

end Graph
end Flowchart
