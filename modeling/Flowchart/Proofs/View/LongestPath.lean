import Flowchart.Proofs.View.Answers

/-!
# The longest path

A vertex that is taken carries the number of arcs on a longest walk to it.  Two facts about the
depths say this, and each is kept when a vertex is taken:

* the depth of every vertex is the length of some walk that ends there (`Arc.Reaches`);
* along an arc the depth goes up, since the source is taken before the target and passes its depth
  on (`Deepens`).

By the first, the greatest depth is the length of a walk; by the second, no walk is longer.  What is
left without the feedback edges has no circle, so all vertices are taken, and a walk comes to no
vertex twice (`longestPath_exact`).
-/

namespace Flowchart

/-! ### Walks -/

namespace Graph

/-- Edges of the chart, each of which starts where the one before it ends. -/
structure Walk (g : Graph) (es : List Edge) : Prop where
  edges : es ⊆ g.edges
  joined : es.IsChain fun e e' => e.target = e'.source

/-- The ids that a walk comes to, from its start to its end. -/
def visited : List Edge → List String
  | [] => []
  | e :: es => e.source :: (e :: es).map Edge.target

variable {g : Graph} {e : Edge} {es : List Edge}

lemma Walk.tail (h : g.Walk (e :: es)) : g.Walk es :=
  ⟨fun _ he => h.edges (List.mem_cons_of_mem _ he), h.joined.tail⟩

lemma Walk.concat (h : g.Walk es) (he : e ∈ g.edges)
    (hend : ∀ e' ∈ es.getLast?, e'.target = e.source) : g.Walk (es ++ [e]) := by
  refine ⟨List.append_subset.2 ⟨h.edges, by simpa using he⟩, ?_⟩
  refine List.isChain_append.2 ⟨h.joined, .singleton e, fun e' he' e'' he'' => ?_⟩
  obtain rfl : e = e'' := by simpa using he''
  exact hend e' he'

/-- If a number goes up along every edge and never exceeds `n`, no walk has more than `n` edges. -/
lemma Walk.length_le {rank : String → Nat} {n : Nat} (h : g.Walk es)
    (hup : ∀ e ∈ g.edges, rank e.source < rank e.target)
    (hle : ∀ e ∈ g.edges, rank e.target ≤ n) : es.length ≤ n := by
  -- from where a walk starts, the number has gone up by one with each edge
  have hstart : ∀ (e : Edge) (es : List Edge), g.Walk (e :: es) →
      rank e.source + (e :: es).length ≤ n := by
    intro e es hwalk
    induction es generalizing e with
    | nil =>
      have := hup e (hwalk.edges List.mem_cons_self)
      have := hle e (hwalk.edges List.mem_cons_self)
      simp only [List.length_cons, List.length_nil]
      omega
    | cons e' es ih =>
      have hjoined : e.target = e'.source := (List.isChain_cons_cons.1 hwalk.joined).1
      have hlt := hup e (hwalk.edges List.mem_cons_self)
      have := ih e' hwalk.tail
      rw [hjoined] at hlt
      simp only [List.length_cons] at this ⊢
      omega
  cases es with
  | nil => exact Nat.zero_le n
  | cons e es => exact Nat.le_trans (Nat.le_add_left _ _) (hstart e es h)

lemma Walk.isChain_visited (h : g.Walk es) : (visited es).IsChain g.Leads := by
  induction es with
  | nil => exact .nil
  | cons e es ih =>
    have hlead : g.Leads e.source e.target := ⟨e, h.edges List.mem_cons_self, rfl, rfl⟩
    cases es with
    | nil => exact List.isChain_cons_cons.2 ⟨hlead, .singleton _⟩
    | cons e' es =>
      have hjoined : e.target = e'.source := (List.isChain_cons_cons.1 h.joined).1
      have hrest := ih h.tail
      rw [visited, ← hjoined] at hrest
      exact List.isChain_cons_cons.2 ⟨hlead, hrest⟩

/-- Without a circle, a walk comes to no node twice. -/
lemma Walk.nodup_visited (h : g.Walk es) (hg : ¬ g.Circular) : (visited es).Nodup := by
  have hchain : (visited es).IsChain (Relation.TransGen g.Leads) :=
    h.isChain_visited.imp fun _ _ => Relation.TransGen.single
  have hpairs := List.isChain_iff_pairwise.1 hchain
  refine hpairs.imp fun {x y} hxy => ?_
  rintro rfl
  exact hg ⟨x, hxy⟩

lemma Walk.visited_subset (h : g.Walk es)
    (hends : ∀ e ∈ g.edges, e.source ∈ g.nodeIds ∧ e.target ∈ g.nodeIds) :
    visited es ⊆ g.nodeIds := by
  cases es with
  | nil => exact List.nil_subset _
  | cons e es =>
    refine List.cons_subset.2 ⟨(hends e (h.edges List.mem_cons_self)).1, fun x hx => ?_⟩
    obtain ⟨e', he', rfl⟩ := List.mem_map.1 hx
    exact (hends e' (h.edges he')).2

/-- Without a circle, a walk has fewer edges than there are nodes. -/
lemma Walk.length_lt (h : g.Walk es) (hg : ¬ g.Circular) (hnodes : g.nodes ≠ [])
    (hends : ∀ e ∈ g.edges, e.source ∈ g.nodeIds ∧ e.target ∈ g.nodeIds) :
    es.length < g.nodeIds.toFinset.card := by
  have hcard : (visited es).length ≤ g.nodeIds.toFinset.card := by
    rw [← List.toFinset_card_of_nodup (h.nodup_visited hg)]
    refine Finset.card_le_card fun x hx => ?_
    exact List.mem_toFinset.2 (h.visited_subset hends (List.mem_toFinset.1 hx))
  cases es with
  | nil =>
    obtain ⟨n, hn⟩ := List.exists_mem_of_ne_nil _ hnodes
    exact Finset.card_pos.2 ⟨n.id, List.mem_toFinset.2 (List.mem_map_of_mem hn)⟩
  | cons e es => simpa [visited] using hcard

end Graph

namespace Arc

/-- A walk along `n` arcs ends at a vertex. -/
inductive Reaches (arcs : List Arc) : Nat → String → Prop
  | start (x : String) : Reaches arcs 0 x
  | step {n : Nat} {x y : String} : Reaches arcs n x → Leads arcs x y → Reaches arcs (n + 1) y

end Arc

namespace View

/-! ### Depths -/

section Depths

variable {arcs : List Arc} {w u : Waiting} {ws : List Waiting}

/-- A vertex that waits keeps its depth, or gets it from the one that was taken if an arc leads
there from it. -/
lemma Waiting.depth_release (hu : u ∈ w.release arcs ws) :
    ∃ u₀ ∈ ws, u.vertex = u₀.vertex ∧ u₀.depth ≤ u.depth ∧
      (Arc.Leads arcs w.vertex u.vertex → w.depth + 1 ≤ u.depth) ∧
      (u.depth = u₀.depth ∨ u.depth = w.depth + 1 ∧ Arc.Leads arcs w.vertex u.vertex) := by
  obtain ⟨u₀, hu₀, rfl⟩ := List.mem_map.1 hu
  have hout : u₀.vertex ∈ (arcs.filter fun a => a.source = w.vertex).map Arc.target ↔
      Arc.Leads arcs w.vertex u₀.vertex := by
    simp [Arc.Leads, and_assoc]
  refine ⟨u₀, hu₀, ?_⟩
  split
  · next hmem =>
    refine ⟨rfl, Nat.le_max_left _ _, fun _ => Nat.le_max_right _ _, ?_⟩
    exact (max_choice u₀.depth (w.depth + 1)).imp_right fun h => ⟨h, hout.1 hmem⟩
  · next hmem => exact ⟨rfl, Nat.le_refl _, fun hlead => absurd (hout.2 hlead) hmem, .inl rfl⟩

/-- The depths of the vertices that were taken go up along the arcs, and none is less than it was
when its vertex had to wait. -/
structure Deepens (arcs : List Arc) (ws taken : List Waiting) : Prop where
  grows : ∀ t ∈ taken, ∃ u ∈ ws, u.vertex = t.vertex ∧ u.depth ≤ t.depth
  rises : ∀ t ∈ taken, ∀ t' ∈ taken, Arc.Leads arcs t.vertex t'.vertex → t.depth < t'.depth

lemma Deepens.cons {taken : List Waiting} (hc : Waiting.Counted arcs ws) (hw : w ∈ ws)
    (hready : w.isReady = true) (h : Deepens arcs (w.release arcs (ws.erase w)) taken) :
    Deepens arcs ws (w :: taken) := by
  have hgrows : ∀ t ∈ w :: taken, ∃ u ∈ ws, u.vertex = t.vertex ∧ u.depth ≤ t.depth := by
    intro t ht
    rcases List.mem_cons.1 ht with rfl | ht
    · exact ⟨t, hw, rfl, Nat.le_refl _⟩
    · obtain ⟨u, hu, hvertex, hdepth⟩ := h.grows t ht
      obtain ⟨u₀, hu₀, hvertex₀, hdepth₀, -⟩ := Waiting.depth_release hu
      exact ⟨u₀, List.mem_of_mem_erase hu₀, hvertex₀ ▸ hvertex, Nat.le_trans hdepth₀ hdepth⟩
  refine ⟨hgrows, fun t ht t' ht' hlead => ?_⟩
  rcases List.mem_cons.1 ht' with rfl | hlater
  · -- no arc leads to the first vertex from one that waits
    obtain ⟨a, ha, hsource, htarget⟩ := hlead
    obtain ⟨u, hu, hvertex, -⟩ := hgrows t ht
    refine absurd ?_ (hc.not_blocks hw hready a ha htarget)
    rw [hsource, ← hvertex]
    exact List.mem_map_of_mem hu
  · rcases List.mem_cons.1 ht with rfl | ht
    · obtain ⟨u, hu, hvertex, hdepth⟩ := h.grows t' hlater
      obtain ⟨-, -, -, -, hdeep, -⟩ := Waiting.depth_release hu
      rw [← hvertex] at hlead
      exact Nat.lt_of_lt_of_le (hdeep hlead) hdepth
    · exact h.rises t ht t' hlater hlead

lemma deepens_takeReady (hc : Waiting.Counted arcs ws) :
    Deepens arcs ws (takeReady arcs ws).1 := by
  induction ws using takeReady.induct arcs with
  | case1 ws hnone =>
    rw [takeReady_of_none hnone]
    exact ⟨by simp, by simp⟩
  | case2 ws w hsome _ _ _ ih =>
    have hw : w ∈ ws := List.mem_of_find?_eq_some hsome
    rw [takeReady_of_some hsome]
    exact (ih (hc.release hw)).cons hc hw (List.find?_some hsome)

/-- Depths are lengths of walks. -/
lemma reaches_takeReady (h : ∀ w ∈ ws, Arc.Reaches arcs w.depth w.vertex) :
    ∀ t ∈ (takeReady arcs ws).1, Arc.Reaches arcs t.depth t.vertex := by
  induction ws using takeReady.induct arcs with
  | case1 ws hnone =>
    rw [takeReady_of_none hnone]
    simp
  | case2 ws w hsome _ _ _ ih =>
    have hw : w ∈ ws := List.mem_of_find?_eq_some hsome
    have hrest : ∀ u ∈ w.release arcs (ws.erase w), Arc.Reaches arcs u.depth u.vertex := by
      intro u hu
      obtain ⟨u₀, hu₀, hvertex, -, -, hdepth | ⟨hdepth, hlead⟩⟩ := Waiting.depth_release hu
      · rw [hdepth, hvertex]
        exact h u₀ (List.mem_of_mem_erase hu₀)
      · rw [hdepth]
        exact (h w hw).step hlead
    rw [takeReady_of_some hsome]
    intro t ht
    rcases List.mem_cons.1 ht with rfl | ht
    · exact h t hw
    · exact ih hrest t ht

/-- The greatest depth is not less than any, and it is the depth of some vertex or nothing. -/
lemma foldl_max_depth (ts : List Waiting) (m : Nat) :
    (∀ t ∈ ts, t.depth ≤ ts.foldl (fun n t => max n t.depth) m) ∧
      m ≤ ts.foldl (fun n t => max n t.depth) m ∧
      (ts.foldl (fun n t => max n t.depth) m = m ∨
        ∃ t ∈ ts, ts.foldl (fun n t => max n t.depth) m = t.depth) := by
  induction ts generalizing m with
  | nil => exact ⟨by simp, Nat.le_refl m, .inl rfl⟩
  | cons t ts ih =>
    obtain ⟨hle, hm, hattained⟩ := ih (max m t.depth)
    rw [List.foldl_cons]
    refine ⟨fun t' ht' => ?_, Nat.le_trans (Nat.le_max_left _ _) hm, ?_⟩
    · rcases List.mem_cons.1 ht' with rfl | ht'
      · exact Nat.le_trans (Nat.le_max_right _ _) hm
      · exact hle t' ht'
    · rcases hattained with heq | ⟨t', ht', heq⟩
      · rw [heq]
        exact (max_choice m t.depth).imp_right fun h => ⟨t, List.mem_cons_self, h⟩
      · exact .inr ⟨t', List.mem_cons_of_mem _ ht', heq⟩

/-- The depth of a vertex among those that were taken. -/
def depthOf (taken : List Waiting) (x : String) : Nat :=
  ((taken.find? fun t => t.vertex = x).map Waiting.depth).getD 0

lemma depthOf_vertex {taken : List Waiting} {t : Waiting}
    (hnodup : (taken.map Waiting.vertex).Nodup) (ht : t ∈ taken) :
    depthOf taken t.vertex = t.depth := by
  obtain ⟨t', ht'⟩ : ∃ t', taken.find? (fun t' => t'.vertex = t.vertex) = some t' :=
    Option.isSome_iff_exists.1 (List.find?_isSome.2 ⟨t, ht, by simp⟩)
  have hvertex : t'.vertex = t.vertex := by simpa using List.find?_some ht'
  obtain rfl := List.inj_on_of_nodup_map hnodup (List.mem_of_find?_eq_some ht') ht hvertex
  rw [depthOf, ht']
  rfl

end Depths

/-! ### Charts -/

/-- The arcs that do not have the id of a feedback edge. -/
def unfound (v : View) : List Arc := v.arcs.filter fun a => a.key ∉ v.feedback

/-- The vertices in the order in which they are taken if only these arcs are there. -/
def layers (v : View) : List Waiting := (takeReady v.unfound (v.waiting v.unfound)).1

lemma leads_unfound (g : Graph) :
    Arc.Leads (ofGraph g).unfound = (g.without (ofGraph g).feedback).Leads := by
  ext x y
  constructor
  · rintro ⟨a, ha, rfl, rfl⟩
    obtain ⟨ha, hkey⟩ := List.mem_filter.1 ha
    obtain ⟨e, he, hsource, htarget, hid⟩ := exists_edge_of_arc ha
    rw [decide_eq_true_eq, ← hid] at hkey
    exact ⟨e, Graph.mem_edges_without.2 ⟨he, hkey⟩, hsource, htarget⟩
  · rintro ⟨e, he, rfl, rfl⟩
    obtain ⟨he, hid⟩ := Graph.mem_edges_without.1 he
    obtain ⟨a, ha, hsource, htarget, hkey⟩ := exists_arc_of_edge he
    rw [← hkey] at hid
    exact ⟨a, List.mem_filter.2 ⟨ha, decide_eq_true hid⟩, hsource, htarget⟩

lemma sound_unfound (g : Graph) : ∀ a ∈ (ofGraph g).unfound,
    a.source ∈ (ofGraph g).vertices ∧ a.target ∈ (ofGraph g).vertices :=
  fun a ha => sound_ofGraph g a (List.mem_filter.1 ha).1

/-- A walk along arcs is one along edges. -/
lemma exists_walk_of_reaches {g : Graph} {arcs : List Arc} {n : Nat} {x : String}
    (hleads : Arc.Leads arcs = g.Leads) (h : Arc.Reaches arcs n x) :
    ∃ es, g.Walk es ∧ es.length = n ∧ ∀ e ∈ es.getLast?, e.target = x := by
  induction h with
  | start x => exact ⟨[], ⟨List.nil_subset _, .nil⟩, rfl, by simp⟩
  | step _ hlead ih =>
    obtain ⟨es, hwalk, hlength, hend⟩ := ih
    rw [hleads] at hlead
    obtain ⟨e, he, rfl, rfl⟩ := hlead
    exact ⟨es ++ [e], hwalk.concat he hend, by simp [hlength], by simp⟩

/-- The depths of all vertices that were taken are lengths of walks. -/
lemma exists_walk_of_mem_layers {g : Graph} {t : Waiting} (ht : t ∈ (ofGraph g).layers) :
    ∃ es, (g.without (ofGraph g).feedback).Walk es ∧ es.length = t.depth := by
  have hinitial : ∀ w ∈ (ofGraph g).waiting (ofGraph g).unfound,
      Arc.Reaches (ofGraph g).unfound w.depth w.vertex := by
    intro w hw
    obtain ⟨x, -, rfl⟩ := List.mem_map.1 hw
    exact .start x
  obtain ⟨es, hwalk, hlength, -⟩ :=
    exists_walk_of_reaches (leads_unfound g) (reaches_takeReady hinitial t ht)
  exact ⟨es, hwalk, hlength⟩

section Listed

variable {g : Graph} (hends : ∀ e ∈ g.edges, e.source ∈ g.nodeIds ∧ e.target ∈ g.nodeIds)
include hends

/-- A chart without a circle has no feedback edges, also if several edges have one id. -/
lemma feedback_eq_nil (hg : ¬ g.Circular) : (ofGraph g).feedback = [] := by
  obtain ⟨kept, found, hperm, hkeys, -, hback⟩ :=
    exists_kept (sound_ofGraph g) fun _ => mem_nodeIds_of_mem_vertices hends
  obtain rfl : found = [] := by
    refine List.eq_nil_iff_forall_not_mem.2 fun a ha => hg ?_
    have hsub : kept ⊆ (ofGraph g).arcs := fun b hb => hperm.subset (List.mem_append_left _ hb)
    rw [← circle_arcs_ofGraph]
    refine ⟨a.source, .head' ⟨a, hperm.subset (List.mem_append_right _ ha), rfl, rfl⟩ ?_⟩
    exact Relation.ReflTransGen.mono (fun _ _ => Arc.Leads.mono hsub) _ _ (hback a ha)
  exact hkeys.symm

lemma takeReady_unfound :
    takeReady (ofGraph g).unfound ((ofGraph g).waiting (ofGraph g).unfound)
      = ((ofGraph g).layers, []) :=
  Prod.ext rfl ((takeReady_eq_nil_iff (sound_unfound g)).2 (not_circle_unfound hends))

/-- All vertices are taken, each of them once. -/
lemma map_vertex_layers : ((ofGraph g).layers.map Waiting.vertex).Perm (ofGraph g).vertices := by
  have htaken := (taken_takeReady (counted_waiting fun a ha => (sound_unfound g a ha).1)).vertices
  rwa [takeReady_unfound hends, List.map_nil, List.append_nil, map_vertex_waiting] at htaken

lemma longestPath_eq (hnodes : g.nodes ≠ []) :
    (ofGraph g).longestPath
      = .ok ((ofGraph g).layers.foldl (fun n t => max n t.depth) 0) := by
  have hsome : (ofGraph g).graph.nodes.isEmpty = false := List.isEmpty_eq_false_iff.2 hnodes
  have htaken := takeReady_unfound hends
  rw [unfound] at htaken
  simp only [longestPath, hsome, Bool.false_eq_true, if_false, htaken]

/-- The depth goes up along every edge that is not feedback. -/
lemma depthOf_lt {e : Edge} (he : e ∈ (g.without (ofGraph g).feedback).edges) :
    depthOf (ofGraph g).layers e.source < depthOf (ofGraph g).layers e.target := by
  have hperm := map_vertex_layers hends
  have hnodup := hperm.nodup_iff.2 (nodup_vertices _)
  have hdeepens := deepens_takeReady (counted_waiting fun a ha => (sound_unfound g a ha).1)
  have hlead : Arc.Leads (ofGraph g).unfound e.source e.target := by
    rw [leads_unfound]
    exact ⟨e, he, rfl, rfl⟩
  obtain ⟨a, ha, hsource, htarget⟩ := hlead
  obtain ⟨t, ht, hvertex⟩ := List.mem_map.1 (hperm.mem_iff.2 (sound_unfound g a ha).1)
  obtain ⟨t', ht', hvertex'⟩ := List.mem_map.1 (hperm.mem_iff.2 (sound_unfound g a ha).2)
  rw [← hsource, ← htarget, ← hvertex, ← hvertex', depthOf_vertex hnodup ht,
    depthOf_vertex hnodup ht']
  exact hdeepens.rises t ht t' ht' ⟨a, ha, hvertex.symm, hvertex'.symm⟩

/-- The longest path of a chart with nodes is a walk along edges that are not feedback, and no such
walk is longer. -/
lemma exists_longestPath_walk (hnodes : g.nodes ≠ []) :
    ∃ n, (ofGraph g).longestPath = .ok n ∧
      (∃ es, (g.without (ofGraph g).feedback).Walk es ∧ es.length = n) ∧
      ∀ es, (g.without (ofGraph g).feedback).Walk es → es.length ≤ n := by
  obtain ⟨hle, -, hattained⟩ := foldl_max_depth (ofGraph g).layers 0
  refine ⟨_, longestPath_eq hends hnodes, ?_, fun es hes => ?_⟩
  · rcases hattained with heq | ⟨t, ht, heq⟩
    · exact ⟨[], ⟨List.nil_subset _, .nil⟩, heq.symm⟩
    · rw [heq]
      exact exists_walk_of_mem_layers ht
  · refine hes.length_le (fun e he => depthOf_lt hends he) fun e he => ?_
    rw [depthOf]
    cases hfind : (ofGraph g).layers.find? fun t => t.vertex = e.target with
    | none => exact Nat.zero_le _
    | some t => exact hle t (List.mem_of_find?_eq_some hfind)

end Listed

/-- The longest path of a chart with nodes is the most edges on a walk that uses no edge with the id
of a feedback edge.  A walk of that length comes to no node twice, so there are more nodes than
that.  In a chart without a circle all walks count. -/
theorem longestPath_exact (g : Graph) (hnodes : g.nodes ≠ [])
    (hends : ∀ e ∈ g.edges, e.source ∈ g.nodeIds ∧ e.target ∈ g.nodeIds) :
    let kept := g.without (ofGraph g).feedback
    ∃ n, (ofGraph g).longestPath = .ok n ∧
      (∃ es, kept.Walk es ∧ (Graph.visited es).Nodup ∧ es.length = n) ∧
      (∀ es, kept.Walk es → es.length ≤ n) ∧
      n < g.nodeIds.toFinset.card ∧
      (¬ g.Circular → (∃ es, g.Walk es ∧ es.length = n) ∧ ∀ es, g.Walk es → es.length ≤ n) := by
  intro kept
  have hnone : ¬ kept.Circular := (not_circular_without_feedback hends).2
  have hends' : ∀ e ∈ kept.edges, e.source ∈ kept.nodeIds ∧ e.target ∈ kept.nodeIds :=
    fun e he => hends e (Graph.mem_edges_without.1 he).1
  obtain ⟨n, hlongest, ⟨es, hwalk, hlength⟩, hle⟩ := exists_longestPath_walk hends hnodes
  refine ⟨n, hlongest, ⟨es, hwalk, hwalk.nodup_visited hnone, hlength⟩, hle, ?_, fun hg => ?_⟩
  · rw [← hlength]
    exact hwalk.length_lt hnone hnodes hends'
  · rw [feedback_eq_nil hends hg, Graph.without_nil] at hwalk hle
    exact ⟨⟨es, hwalk, hlength⟩, hle⟩

/-- An edge that is in no circle has the id of a feedback edge and does not count. -/
theorem longestPath_exact_shared_id :
    let node (id : String) : Node := ⟨id, .rectangle, id, none⟩
    let edge (id source target : String) : Edge := ⟨id, source, target, none, none⟩
    let g : Graph :=
      { nodes := [node "a", node "b", node "c", node "d", node "a"]
        edges := [edge "x" "a" "b", edge "y" "b" "c", edge "z" "c" "a", edge "z" "c" "d"] }
    (ofGraph g).feedback = ["z"] ∧ (ofGraph g).longestPath = .ok 2 ∧
      (∃ es, (g.without ["z"]).Walk es ∧ (Graph.visited es).Nodup ∧ es.length = 2) ∧
      (∀ es, (g.without ["z"]).Walk es → es.length ≤ 2) ∧ 2 < g.nodeIds.toFinset.card := by
  intro node edge g
  have hfound : (ofGraph g).feedback = ["z"] := by cbv
  have hvalue : (ofGraph g).longestPath = .ok 2 := by cbv
  obtain ⟨n, hlongest, hwalk, hle, hlt, -⟩ := longestPath_exact g (by decide) (by decide)
  obtain rfl : 2 = n := Except.ok.inj (hvalue.symm.trans hlongest)
  rw [hfound] at hwalk hle
  exact ⟨hfound, hvalue, hwalk, hle, hlt⟩

end View
end Flowchart
