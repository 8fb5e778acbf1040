import Flowchart.Proofs.Exchange.Charts
import Flowchart.Proofs.View.Feedback

/-!
# Every chart has its answers

The operations on a chart take for granted that the ends of its edges are listed.  Every accepted
chart is like that, and it is nearly all they need: neither the ids of the nodes nor those of the
edges have to be distinct, and only a spacing with too many digits keeps a chart from being written
(`exists_answers_of_accepted`).

* A chart is written if every end of an edge is found and the spacing does not have too many digits
  (`exists_render_iff`).
* Taking the least ready vertex only stops at a vertex that is no node (`exists_topologicalOrder`).
* Several edges may have the id of one that was found as feedback, and all of them are left out of
  the longest path.  What is left out is then more than what was found, so what stays is among the
  arcs that were kept, and these have no circle (`not_circle_unfound`).
-/

namespace Flowchart

/-! ### Arcs and edges -/

/-- What tells an arc apart from others: its two ends and its key. -/
def Arc.identity (a : Arc) : String × String × String := (a.source, a.target, a.key)

/-- What tells the arc of an edge apart from others. -/
def Edge.identity (e : Edge) : String × String × String := (e.source, e.target, e.id)

namespace Arc

variable {a b : Arc} {arcs arcs' : List Arc}

lemma same_iff : a.same b = true ↔ a.identity = b.identity := by
  simp [same, identity, and_assoc]

lemma map_identity_addTo (a : Arc) (arcs : List Arc) :
    (a.addTo arcs).map identity
      = if a.identity ∈ arcs.map identity then arcs.map identity
        else arcs.map identity ++ [a.identity] := by
  induction arcs with
  | nil => rfl
  | cons b arcs ih =>
    unfold addTo
    by_cases hsame : a.same b = true
    · have hb := same_iff.1 hsame
      simp [hsame, hb]
    · have hb : a.identity ≠ b.identity := mt same_iff.2 hsame
      rw [if_neg hsame, List.map_cons, ih, List.map_cons]
      by_cases hmem : a.identity ∈ arcs.map identity <;>
        simp only [hmem, List.mem_cons, hb] <;> simp

lemma Circle.mono (hsub : arcs ⊆ arcs') (h : Circle arcs) : Circle arcs' := by
  obtain ⟨x, hx⟩ := h
  exact ⟨x, Relation.TransGen.mono (fun _ _ => Leads.mono hsub) x x hx⟩

end Arc

namespace View

/-- The arcs of a view are the edges of the chart, each the first time it is listed. -/
lemma map_identity_arcs (g : Graph) :
    (ofGraph g).arcs.map Arc.identity = (g.edges.map Edge.identity).eraseDups := by
  have hfold : ∀ es : List Edge,
      (es.foldl (fun arcs e => (Arc.ofEdge e).addTo arcs) []).map Arc.identity
        = (es.map Edge.identity).eraseDups := by
    intro es
    induction es using List.reverseRecOn with
    | nil => rfl
    | append_singleton es e ih =>
      have hid : (Arc.ofEdge e).identity = e.identity := rfl
      rw [List.foldl_append, List.foldl_cons, List.foldl_nil, Arc.map_identity_addTo, ih, hid,
        List.map_append, List.map_cons, List.map_nil, eraseDups_concat]
      by_cases hmem : e.identity ∈ es.map Edge.identity
      · rw [if_pos hmem, if_pos (List.mem_eraseDups.2 hmem)]
      · rw [if_neg hmem, if_neg (mt List.mem_eraseDups.1 hmem)]
  exact hfold g.edges

lemma exists_arc_of_edge {g : Graph} {e : Edge} (he : e ∈ g.edges) :
    ∃ a ∈ (ofGraph g).arcs, a.source = e.source ∧ a.target = e.target ∧ a.key = e.id := by
  have hmem : e.identity ∈ (ofGraph g).arcs.map Arc.identity := by
    rw [map_identity_arcs, List.mem_eraseDups]
    exact List.mem_map_of_mem he
  obtain ⟨a, ha, hid⟩ := List.mem_map.1 hmem
  simp only [Arc.identity, Edge.identity, Prod.mk.injEq] at hid
  exact ⟨a, ha, hid⟩

lemma exists_edge_of_arc {g : Graph} {a : Arc} (ha : a ∈ (ofGraph g).arcs) :
    ∃ e ∈ g.edges, e.source = a.source ∧ e.target = a.target ∧ e.id = a.key := by
  have hmem : a.identity ∈ g.edges.map Edge.identity := by
    rw [← List.mem_eraseDups, ← map_identity_arcs]
    exact List.mem_map_of_mem ha
  obtain ⟨e, he, hid⟩ := List.mem_map.1 hmem
  simp only [Arc.identity, Edge.identity, Prod.mk.injEq] at hid
  exact ⟨e, he, hid⟩

/-! ### The longest path -/

section Listed

variable {g : Graph} (hends : ∀ e ∈ g.edges, e.source ∈ g.nodeIds ∧ e.target ∈ g.nodeIds)
include hends

/-- If the ends of the edges are listed, all vertices are nodes. -/
lemma mem_nodeIds_of_mem_vertices {x : String} (hx : x ∈ (ofGraph g).vertices) :
    x ∈ (ofGraph g).graph.nodeIds := by
  rcases mem_vertices_ofGraph.1 hx with hx | ⟨e, he, rfl | rfl⟩
  · exact hx
  · exact (hends e he).1
  · exact (hends e he).2

/-- Without all arcs that have the key of a feedback arc, no circle is left. -/
lemma not_circle_unfound :
    ¬ Arc.Circle ((ofGraph g).arcs.filter fun a => a.key ∉ (ofGraph g).feedback) := by
  obtain ⟨kept, found, hperm, hkeys, hnone, -⟩ :=
    exists_kept (sound_ofGraph g) fun _ => mem_nodeIds_of_mem_vertices hends
  refine fun hcircle => hnone (hcircle.mono fun a ha => ?_)
  obtain ⟨ha, hkey⟩ := List.mem_filter.1 ha
  refine (List.mem_append.1 (hperm.mem_iff.2 ha)).resolve_right fun hfound => ?_
  rw [decide_eq_true_eq, ← hkeys] at hkey
  exact hkey (List.mem_map_of_mem hfound)

/-- The feedback ids are ids of edges, and without the edges that have one of them the chart has no
circle. -/
lemma not_circular_without_feedback :
    (ofGraph g).feedback ⊆ g.edges.map Edge.id ∧
      ¬ (g.without (ofGraph g).feedback).Circular := by
  constructor
  · obtain ⟨kept, found, hperm, hkeys, -⟩ :=
      exists_kept (sound_ofGraph g) fun _ => mem_nodeIds_of_mem_vertices hends
    intro id hid
    rw [← hkeys] at hid
    obtain ⟨a, ha, rfl⟩ := List.mem_map.1 hid
    obtain ⟨e, he, -, -, hkey⟩ := exists_edge_of_arc (hperm.subset (List.mem_append_right kept ha))
    exact List.mem_map.2 ⟨e, he, hkey⟩
  · have hleads : (g.without (ofGraph g).feedback).Leads
        ≤ Arc.Leads ((ofGraph g).arcs.filter fun a => a.key ∉ (ofGraph g).feedback) := by
      rintro x y ⟨e, he, rfl, rfl⟩
      obtain ⟨he, hnot⟩ := Graph.mem_edges_without.1 he
      obtain ⟨a, ha, hsource, htarget, hkey⟩ := exists_arc_of_edge he
      rw [← hkey] at hnot
      exact ⟨a, List.mem_filter.2 ⟨ha, decide_eq_true hnot⟩, hsource, htarget⟩
    rintro ⟨x, hx⟩
    exact not_circle_unfound hends ⟨x, Relation.TransGen.mono hleads x x hx⟩

lemma exists_longestPath : ∃ n, (ofGraph g).longestPath = .ok n := by
  unfold longestPath
  split
  · exact ⟨0, rfl⟩
  · have hsound : ∀ a ∈ (ofGraph g).arcs.filter fun a => a.key ∉ (ofGraph g).feedback,
        a.source ∈ (ofGraph g).vertices ∧ a.target ∈ (ofGraph g).vertices :=
      fun a ha => sound_ofGraph g a (List.mem_filter.1 ha).1
    have hnil := (takeReady_eq_nil_iff hsound).2 (not_circle_unfound hends)
    simp only
    split
    · exact ⟨_, rfl⟩
    · next h =>
      -- the only other result has a vertex left over
      exact (h _ (Prod.ext rfl hnil)).elim

end Listed

/-! ### The order -/

variable {v : View} {ws : List Waiting}

lemma isSome_place? {x : String} (hx : x ∈ v.graph.nodeIds) : (v.place? x).isSome = true := by
  rw [place?, Option.isSome_map, List.find?_isSome]
  obtain ⟨i, hi, rfl⟩ := List.getElem_of_mem hx
  refine ⟨(v.graph.nodeIds[i], i), ?_, by simp⟩
  rw [List.mem_reverse, List.mem_zipIdx_iff_getElem?]
  simp

lemma stray?_eq_none (h : ∀ w ∈ ws, w.place.isSome = true) (order : List String) :
    Waiting.stray? ws order = none := by
  refine List.find?_eq_none.2 fun x _ hany => ?_
  obtain ⟨w, hw, hstray⟩ := List.any_eq_true.1 hany
  have hplace := h w hw
  cases hw' : w.place <;> simp_all

/-- What waits keeps its place. -/
lemma isSome_place_release {arcs : List Arc} {w : Waiting}
    (h : ∀ u ∈ ws, u.place.isSome = true) : ∀ u ∈ w.release arcs ws, u.place.isSome = true := by
  intro u hu
  obtain ⟨u₀, hu₀, rfl⟩ := List.mem_map.1 hu
  have hplace := h u₀ hu₀
  split <;> exact hplace

/-- If all that wait are nodes, taking the least ready one goes on to the end.  If nothing is left
over then, all have been taken. -/
lemma exists_takeLeast (h : ∀ w ∈ ws, w.place.isSome = true) :
    ∃ order?, v.takeLeast ws = .ok order? ∧
      ∀ order ∈ order?, order.Perm (ws.map Waiting.vertex) := by
  induction ws using takeLeast.induct v with
  | case1 ws hnone =>
    refine ⟨_, takeLeast_of_none hnone, fun order horder => ?_⟩
    cases ws <;> simp_all
  | case2 ws w hsome rest x hstray =>
    have hrest : ∀ u ∈ rest, u.place.isSome = true :=
      isSome_place_release fun u hu => h u (List.mem_of_mem_erase hu)
    have hnone : Waiting.stray? rest (v.successors w.vertex) = none := stray?_eq_none hrest _
    rw [hnone] at hstray
    cases hstray
  | case3 ws w hsome rest hstray ih =>
    have hw : w ∈ ws := Waiting.mem_of_least? hsome
    obtain ⟨order?, hrun, hperm⟩ :=
      ih (isSome_place_release fun u hu => h u (List.mem_of_mem_erase hu))
    refine ⟨order?.map (w.vertex :: ·), ?_, fun order horder => ?_⟩
    · rw [takeLeast_of_some hsome, hstray]
      simp only [rest] at hrun
      rw [hrun]
      rfl
    · obtain ⟨rest', hrest', rfl⟩ := Option.mem_map.1 horder
      have hperm := hperm rest' hrest'
      rw [Waiting.map_vertex_release] at hperm
      exact (hperm.cons w.vertex).trans (Waiting.map_vertex_perm hw).symm

/-- If all vertices are nodes, there is an order, and it lists the nodes. -/
lemma exists_topologicalOrder (h : ∀ x ∈ v.vertices, x ∈ v.graph.nodeIds) :
    ∃ order, v.topologicalOrder = .ok order ∧ ∀ x, x ∈ order ↔ x ∈ v.graph.nodeIds := by
  have hplaces : ∀ w ∈ v.waiting v.arcs, w.place.isSome = true := by
    intro w hw
    obtain ⟨x, hx, rfl⟩ := List.mem_map.1 hw
    exact isSome_place? (h x hx)
  obtain ⟨order?, hrun, hperm⟩ := exists_takeLeast (v := v) hplaces
  refine ⟨order?.getD v.graph.nodeIds, ?_, fun x => ?_⟩
  · simp only [topologicalOrder, stray?_eq_none hplaces, hrun]
    rfl
  · cases order? with
    | none => rfl
    | some order =>
      have hperm := hperm order rfl
      rw [map_vertex_waiting] at hperm
      rw [Option.getD_some, hperm.mem_iff]
      refine ⟨h x, fun hx => ?_⟩
      exact List.mem_eraseDups.2 (List.mem_append_left _ hx)

end View

/-! ### All answers -/

namespace Graph

/-- The ends of the edges of every accepted chart are listed, and if its spacing has no more than
`Number.maxDigits` digits, every operation on it has a result: it has a text and a JSON value, which
gives it back, and its view tells whether there is a circle, feedback edges, an order of the nodes
and the longest path. -/
theorem exists_answers_of_accepted {g : Graph} (h : g.Accepted)
    (hspacing : g.options.nodeSpacing.natAbs < 10 ^ Number.maxDigits) :
    (∀ e ∈ g.edges, e.source ∈ g.nodeIds ∧ e.target ∈ g.nodeIds) ∧
      (∃ text, g.render = .ok text) ∧
      ofJson g.toJson = .ok g ∧
      ((View.ofGraph g).hasCycle = true ↔ g.Circular) ∧
      ((View.ofGraph g).feedback ⊆ g.edges.map Edge.id ∧
        ¬ (g.without (View.ofGraph g).feedback).Circular) ∧
      (∃ order, (View.ofGraph g).topologicalOrder = .ok order ∧
        ∀ x, x ∈ order ↔ x ∈ g.nodeIds) ∧
      ∃ n, (View.ofGraph g).longestPath = .ok n := by
  have hends := h.storable.ends_mem
  exact ⟨hends, (exists_render_iff hends).2 hspacing, ofJson_toJson_iff.2 h.storable,
    View.hasCycle_ofGraph g, View.not_circular_without_feedback hends,
    View.exists_topologicalOrder fun _ => View.mem_nodeIds_of_mem_vertices hends,
    View.exists_longestPath hends⟩

/-- A stored chart with a spacing of its own in which two nodes have one id, and so have a loop and
an edge that is in no circle. -/
theorem exists_answers_of_accepted_repeated :
    let node (id label : String) : Json :=
      .object [("id", .string id), ("shape", .string "rectangle"), ("label", .string label)]
    let edge (id source target : String) : Json :=
      .object [("id", .string id), ("source", .string source), ("target", .string target)]
    let v : Json := .object
      [("nodes", .array [node "a" "A", node "b" "B", node "a" "C"]),
        ("edges", .array [edge "e" "a" "a", edge "e" "a" "b", edge "e" "a" "b"]),
        ("options", .object [("nodeSpacing", .int (-7))])]
    let g : Graph :=
      { nodes := [⟨"a", .rectangle, "A", none⟩, ⟨"b", .rectangle, "B", none⟩,
          ⟨"a", .rectangle, "C", none⟩]
        edges := [⟨"e", "a", "a", none, none⟩, ⟨"e", "a", "b", none, none⟩,
          ⟨"e", "a", "b", none, none⟩]
        options := { nodeSpacing := -7 } }
    ofJson v = .ok g ∧ (View.ofGraph g).feedback = ["e"] ∧
      ¬ (g.without (View.ofGraph g).feedback).Circular ∧ (∃ text, g.render = .ok text) ∧
      (∃ order, (View.ofGraph g).topologicalOrder = .ok order) ∧
      ∃ n, (View.ofGraph g).longestPath = .ok n := by
  intro node edge v g
  have hv : ofJson v = .ok g := rfl
  obtain ⟨-, hrender, -, -, ⟨-, hnone⟩, ⟨order, horder, -⟩, hlongest⟩ :=
    exists_answers_of_accepted (.stored hv) (by decide +kernel)
  exact ⟨hv, by cbv, hnone, hrender, ⟨order, horder⟩, hlongest⟩

end Graph
end Flowchart
