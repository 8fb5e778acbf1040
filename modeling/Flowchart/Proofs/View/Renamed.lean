import Flowchart.Proofs.Exchange.Renaming
import Flowchart.Proofs.View.Feedback

/-!
# Renamed charts

The ids of a chart tell its nodes and edges apart and mean nothing else.  If they are renamed, and
no two of them become one, the canonical text stays as it is (`Graph.render_rename`), and every
answer of the view is renamed in its place: neighbours, roots and leaves (`roots_rename`), feedback
edges (`feedback_rename`), cycles and the longest path (`longestPath_rename`), and the order
(`topologicalOrder_rename`).

Wherever ids are compared, the comparison comes out the same; nothing is sorted by an id.  So each
function of the view passes a renaming on, step by step: a search from the renamed stack is the
renamed search, and taking vertices from a renamed list takes the renamed vertices.
-/

namespace Flowchart

/-! ### Renaming -/

/-- Rename the id and the ends of an edge. -/
def Edge.rename (r : String → String) (e : Edge) : Edge := { e.refer r with id := r e.id }

/-- Rename all ids of a chart. -/
def Graph.rename (r : String → String) (g : Graph) : Graph :=
  { g with nodes := g.nodes.map (Node.refer r), edges := g.edges.map (Edge.rename r) }

/-- Rename the key and the ends of an arc. -/
def Arc.rename (r : String → String) (a : Arc) : Arc :=
  { a with source := r a.source, target := r a.target, key := r a.key }

/-- Rename all ids of a view. -/
def View.rename (r : String → String) (v : View) : View :=
  ⟨v.graph.rename r, v.arcs.map (Arc.rename r)⟩

variable {r : String → String}

/-! ### The canonical text -/

namespace Graph

lemma nodeIds_rename (r : String → String) (g : Graph) :
    (g.rename r).nodeIds = g.nodeIds.map r := by
  simp [nodeIds, rename, Node.refer, Function.comp_def]

variable (hr : Function.Injective r)
include hr

lemma lastNode?_rename (g : Graph) (id : String) :
    (g.rename r).lastNode? (r id) = (g.lastNode? id).map (Node.refer r) := by
  rw [lastNode?, rename, ← List.map_reverse]
  exact find?_map_of (fun n => by simp [Node.refer, hr.eq_iff]) _

lemma links_rename (g : Graph) : (g.rename r).links = g.links := by
  have hlink (e : Edge) : (g.rename r).link? (e.rename r) = g.link? e := by
    have hsource := lastNode?_rename hr g e.source
    have htarget := lastNode?_rename hr g e.target
    simp only [link?, Edge.rename, Edge.refer, hsource, htarget]
    cases g.lastNode? e.source <;> cases g.lastNode? e.target <;> rfl
  rw [links, links, rename, List.map_map]
  exact List.map_congr_left fun e _ => hlink e

lemma isolatedKeys_rename (g : Graph) : (g.rename r).isolatedKeys = g.isolatedKeys := by
  have hisolated (n : Node) : (g.rename r).isIsolated (n.refer r) = g.isIsolated n := by
    simp [isIsolated, rename, Edge.rename, Edge.refer, Node.refer, hr.eq_iff, Function.comp_def]
  have hnodes : (g.rename r).nodes.filter (g.rename r).isIsolated
      = (g.nodes.filter g.isIsolated).map (Node.refer r) := filter_map_of hisolated g.nodes
  rw [isolatedKeys, isolatedKeys, hnodes, List.map_map]
  rfl

/-- The canonical text of a chart whose edges have listed ends does not depend on its ids. -/
lemma render_rename {g : Graph}
    (hends : ∀ e ∈ g.edges, e.source ∈ g.nodeIds ∧ e.target ∈ g.nodeIds) :
    (g.rename r).render = g.render := by
  have hlinks := links_of_ends hends
  have hbody : (g.rename r).body = g.body := by
    rw [body_eq hlinks, body_eq ((links_rename hr g).trans hlinks), isolatedKeys_rename hr]
  rw [render, render, lines, lines, hbody]
  rfl

end Graph

/-! ### The view -/

namespace Arc

variable (hr : Function.Injective r)
include hr

lemma rename_injective : Function.Injective (Arc.rename r) := by
  rintro ⟨s, t, k, l⟩ ⟨s', t', k', l'⟩ h
  simpa [rename, hr.eq_iff] using h

lemma addTo_rename (a : Arc) (arcs : List Arc) :
    (a.rename r).addTo (arcs.map (Arc.rename r)) = (a.addTo arcs).map (Arc.rename r) := by
  have hsame (b : Arc) : (a.rename r).same (b.rename r) = a.same b := by
    simp [same, rename, hr.eq_iff]
  induction arcs with
  | nil => rfl
  | cons b arcs ih =>
    rw [List.map_cons, addTo, addTo, hsame, ih]
    split <;> rfl

end Arc

namespace View

lemma nodeIds_rename (r : String → String) (v : View) :
    (v.rename r).graph.nodeIds = v.graph.nodeIds.map r :=
  Graph.nodeIds_rename r v.graph

lemma map_target_rename (arcs : List Arc) :
    (arcs.map (Arc.rename r)).map Arc.target = (arcs.map Arc.target).map r := by
  simp [Arc.rename, Function.comp_def]

lemma map_source_rename (arcs : List Arc) :
    (arcs.map (Arc.rename r)).map Arc.source = (arcs.map Arc.source).map r := by
  simp [Arc.rename, Function.comp_def]

variable (hr : Function.Injective r)
include hr

lemma ofGraph_rename (g : Graph) : ofGraph (g.rename r) = (ofGraph g).rename r := by
  have hfold : ∀ (es : List Edge) (arcs : List Arc),
      (es.map (Edge.rename r)).foldl (fun arcs e => (Arc.ofEdge e).addTo arcs)
          (arcs.map (Arc.rename r))
        = (es.foldl (fun arcs e => (Arc.ofEdge e).addTo arcs) arcs).map (Arc.rename r) := by
    intro es
    induction es with
    | nil => simp
    | cons e es ih =>
      intro arcs
      have hedge : Arc.ofEdge (e.rename r) = (Arc.ofEdge e).rename r := rfl
      rw [List.map_cons, List.foldl_cons, List.foldl_cons, hedge, Arc.addTo_rename hr, ih]
  exact congrArg _ (hfold g.edges [])

lemma vertices_rename (v : View) : (v.rename r).vertices = v.vertices.map r := by
  have hends : ((v.rename r).graph.edges.flatMap fun e => [e.source, e.target])
      = (v.graph.edges.flatMap fun e => [e.source, e.target]).map r := by
    simp [View.rename, Graph.rename, Edge.rename, Edge.refer, List.flatMap_map, List.map_flatMap]
  rw [vertices, vertices, hends, nodeIds_rename, ← List.map_append, eraseDups_map hr]

/-! ### Neighbours -/

lemma arcsFrom_rename (v : View) (x : String) :
    (v.rename r).arcsFrom (r x) = (v.arcsFrom x).map (Arc.rename r) :=
  filter_map_of (fun a => by simp [Arc.rename, hr.eq_iff]) v.arcs

lemma arcsTo_rename (v : View) (x : String) :
    (v.rename r).arcsTo (r x) = (v.arcsTo x).map (Arc.rename r) :=
  filter_map_of (fun a => by simp [Arc.rename, hr.eq_iff]) v.arcs

lemma successors_rename (v : View) (x : String) :
    (v.rename r).successors (r x) = (v.successors x).map r := by
  rw [successors, successors, arcsFrom_rename hr, map_target_rename, eraseDups_map hr]

lemma predecessors_rename (v : View) (x : String) :
    (v.rename r).predecessors (r x) = (v.predecessors x).map r := by
  rw [predecessors, predecessors, arcsTo_rename hr, map_source_rename, eraseDups_map hr]

lemma outArcs_rename (v : View) (x : String) :
    (v.rename r).outArcs (r x) = (v.outArcs x).map (Arc.rename r) := by
  simp only [outArcs]
  rw [arcsFrom_rename hr, map_target_rename, eraseDups_map hr, List.flatMap_map, List.map_flatMap]
  exact List.flatMap_congr fun y _ => filter_map_of (fun a => by simp [Arc.rename, hr.eq_iff]) _

lemma roots_rename (v : View) : (v.rename r).roots = v.roots.map r := by
  rw [roots, roots, nodeIds_rename]
  exact filter_map_of (fun x => by simp [arcsTo_rename hr]) _

lemma leaves_rename (v : View) : (v.rename r).leaves = v.leaves.map r := by
  rw [leaves, leaves, nodeIds_rename]
  exact filter_map_of (fun x => by simp [arcsFrom_rename hr]) _

/-! ### Feedback edges -/

/-- Rename a vertex on the stack and the arcs out of it. -/
def Frame.rename (r : String → String) (f : Frame) : Frame :=
  ⟨r f.vertex, f.arcs.map (Arc.rename r)⟩

omit hr in
lemma map_vertex_frames (stack : List Frame) :
    (stack.map (Frame.rename r)).map Frame.vertex = (stack.map Frame.vertex).map r := by
  simp [Frame.rename, Function.comp_def]

/-- A search with renamed ids goes the same way. -/
lemma search_rename (v : View) (stack : List Frame) (unseen : List String) :
    (v.rename r).search (stack.map (Frame.rename r)) (unseen.map r)
      = ((v.search stack unseen).1.map r, (v.search stack unseen).2.map r) := by
  have htop {a : Arc} {x : String} {stack : List Frame} :
      (a.rename r).target ∈ r x :: (stack.map (Frame.rename r)).map Frame.vertex ↔
        a.target ∈ x :: stack.map Frame.vertex := by
    rw [map_vertex_frames, ← List.map_cons]
    exact List.mem_map_of_injective hr
  have hunseen {a : Arc} {unseen : List String} :
      (a.rename r).target ∈ unseen.map r ↔ a.target ∈ unseen := List.mem_map_of_injective hr
  induction stack, unseen using View.search.induct v with
  | case1 unseen =>
    rw [List.map_nil, search_nil, search_nil]
    rfl
  | case2 unseen x stack ih =>
    rw [search_pop, ← ih]
    exact search_pop (r x) _ _
  | case3 unseen x a arcs stack hback _ _ _ ih =>
    have hback := List.mem_cons.2 hback
    rw [search_back hback]
    refine (search_back (htop.2 hback)).trans ?_
    exact Prod.ext (congrArg (r a.key :: ·) (Prod.ext_iff.1 ih).1) (Prod.ext_iff.1 ih).2
  | case4 unseen x a arcs stack hback hnew ih =>
    have hback := fun hmem => hback (List.mem_cons.1 hmem)
    have htarget : (a.rename r).target = r a.target := rfl
    rw [search_push hback hnew, ← ih]
    refine (search_push (mt htop.1 hback) (hunseen.2 hnew)).trans ?_
    rw [htarget, outArcs_rename hr, ← List.map_erase hr]
    rfl
  | case5 unseen x a arcs stack hback hnew ih =>
    have hback := fun hmem => hback (List.mem_cons.1 hmem)
    rw [search_skip hback hnew, ← ih]
    exact search_skip (mt htop.1 hback) (mt hunseen.1 hnew)

lemma searchFrom_rename (v : View) (starts unseen : List String) :
    (v.rename r).searchFrom (starts.map r) (unseen.map r) = (v.searchFrom starts unseen).map r := by
  induction starts generalizing unseen with
  | nil => rfl
  | cons x starts ih =>
    have hsearch := search_rename hr v [⟨x, v.outArcs x⟩] (unseen.erase x)
    simp only [List.map_cons, List.map_nil, Frame.rename] at hsearch
    simp only [List.map_cons, searchFrom, outArcs_rename hr, List.mem_map_of_injective hr,
      ← List.map_erase hr, hsearch, ih]
    split
    · exact (List.map_append).symm
    · rfl

lemma feedback_rename (v : View) : (v.rename r).feedback = v.feedback.map r := by
  rw [feedback, feedback, roots_rename hr, nodeIds_rename, vertices_rename hr, ← List.map_append,
    searchFrom_rename hr]

/-! ### Vertices that wait -/

/-- Rename a vertex that waits. -/
def Waiting.rename (r : String → String) (w : Waiting) : Waiting := { w with vertex := r w.vertex }

lemma Waiting.rename_injective : Function.Injective (Waiting.rename r) := by
  rintro ⟨x, p, b, d⟩ ⟨x', p', b', d'⟩ h
  simpa [Waiting.rename, hr.eq_iff] using h

lemma place?_rename (v : View) (x : String) : (v.rename r).place? (r x) = v.place? x := by
  rw [place?, place?, nodeIds_rename, List.zipIdx_map, ← List.map_reverse,
    find?_map_of (q := fun p => p.1 = x) fun p => by simp [hr.eq_iff], Option.map_map]
  rfl

lemma waiting_rename (v : View) (arcs : List Arc) :
    (v.rename r).waiting (arcs.map (Arc.rename r)) = (v.waiting arcs).map (Waiting.rename r) := by
  rw [waiting, waiting, vertices_rename hr, List.map_map, List.map_map]
  refine List.map_congr_left fun x _ => ?_
  have hcount : (arcs.map (Arc.rename r)).countP (fun a => a.target = r x)
      = arcs.countP fun a => a.target = x := by
    rw [List.countP_map]
    exact List.countP_congr fun a _ => by simp [Arc.rename, hr.eq_iff]
  simp only [Function.comp_apply, Waiting.rename, place?_rename hr, hcount]

lemma release_rename (arcs : List Arc) (w : Waiting) (ws : List Waiting) :
    (w.rename r).release (arcs.map (Arc.rename r)) (ws.map (Waiting.rename r))
      = (w.release arcs ws).map (Waiting.rename r) := by
  have hout : ((arcs.map (Arc.rename r)).filter fun a => a.source = (w.rename r).vertex).map
      Arc.target = ((arcs.filter fun a => a.source = w.vertex).map Arc.target).map r := by
    rw [filter_map_of (q := fun a => a.source = w.vertex) fun a => by
      simp [Arc.rename, Waiting.rename, hr.eq_iff], map_target_rename]
  simp only [Waiting.release]
  rw [hout]
  generalize (arcs.filter fun a => a.source = w.vertex).map Arc.target = out
  rw [List.map_map, List.map_map]
  refine List.map_congr_left fun u _ => ?_
  have hmem := List.mem_map_of_injective hr (a := u.vertex) (l := out)
  simp only [Function.comp_apply, Waiting.rename, hmem, List.count_map_of_injective _ _ hr]
  split <;> rfl

/-! ### Taking vertices -/

lemma takeReady_rename (arcs : List Arc) (ws : List Waiting) :
    takeReady (arcs.map (Arc.rename r)) (ws.map (Waiting.rename r))
      = ((takeReady arcs ws).1.map (Waiting.rename r),
        (takeReady arcs ws).2.map (Waiting.rename r)) := by
  have hfind (ws : List Waiting) : (ws.map (Waiting.rename r)).find? Waiting.isReady
      = (ws.find? Waiting.isReady).map (Waiting.rename r) := find?_map_of (fun _ => rfl) ws
  induction ws using takeReady.induct arcs with
  | case1 ws hnone =>
    rw [takeReady_of_none hnone, takeReady_of_none (by rw [hfind, hnone]; rfl)]
    rfl
  | case2 ws w hsome _ _ _ ih =>
    have hsome' : (ws.map (Waiting.rename r)).find? Waiting.isReady = some (w.rename r) := by
      rw [hfind, hsome]
      rfl
    rw [takeReady_of_some hsome, takeReady_of_some hsome',
      ← List.map_erase (Waiting.rename_injective hr), release_rename hr, ih]
    rfl

lemma hasCycle_rename (v : View) : (v.rename r).hasCycle = v.hasCycle := by
  have htake := takeReady_rename hr v.arcs (v.waiting v.arcs)
  rw [← waiting_rename hr] at htake
  have harcs : (v.rename r).arcs = v.arcs.map (Arc.rename r) := rfl
  simp [hasCycle, harcs, htake]

lemma longestPath_rename (v : View) : (v.rename r).longestPath = v.longestPath := by
  have hempty : (v.rename r).graph.nodes.isEmpty = v.graph.nodes.isEmpty :=
    List.isEmpty_map
  have harcs : (v.rename r).arcs.filter (fun a => a.key ∉ v.feedback.map r)
      = (v.arcs.filter fun a => a.key ∉ v.feedback).map (Arc.rename r) := by
    refine filter_map_of (fun a => ?_) v.arcs
    have hmem := List.mem_map_of_injective hr (a := a.key) (l := v.feedback)
    simp only [Arc.rename, hmem]
  simp only [longestPath, hempty, feedback_rename hr, harcs, waiting_rename hr,
    takeReady_rename hr]
  split
  · rfl
  · generalize takeReady (v.arcs.filter fun a => a.key ∉ v.feedback) _ = result
    obtain ⟨taken, left⟩ := result
    cases left with
    | nil => simp [List.foldl_map, Waiting.rename]
    | cons w left => rfl

/-! ### The order -/

omit hr in
lemma least?_rename (ws : List Waiting) :
    Waiting.least? (ws.map (Waiting.rename r)) = (Waiting.least? ws).map (Waiting.rename r) := by
  induction ws with
  | nil => rfl
  | cons w ws ih =>
    have hready (w : Waiting) : (w.rename r).isReady = w.isReady := rfl
    have hplace (w : Waiting) : (w.rename r).place = w.place := rfl
    rw [List.map_cons, Waiting.least?, Waiting.least?, ih, hready]
    split
    · cases Waiting.least? ws with
      | none => rfl
      | some u =>
        simp only [Option.map_some, hplace]
        split <;> rfl
    · rfl

lemma stray?_rename (ws : List Waiting) (order : List String) :
    Waiting.stray? (ws.map (Waiting.rename r)) (order.map r)
      = (Waiting.stray? ws order).map r := by
  refine find?_map_of (fun x => ?_) order
  rw [List.any_map]
  refine congrArg ws.any (funext fun w => ?_)
  show (decide (r w.vertex = r x) && w.isReady && w.place.isNone)
    = (decide (w.vertex = x) && w.isReady && w.place.isNone)
  rw [decide_eq_decide.2 hr.eq_iff]

/-- Rename the id in an error. -/
def renameUnknown (r : String → String) (e : UnknownNode) : UnknownNode := ⟨r e.id⟩

lemma takeLeast_rename (v : View) (ws : List Waiting) :
    (v.rename r).takeLeast (ws.map (Waiting.rename r))
      = ((v.takeLeast ws).map (Option.map (List.map r))).mapError (renameUnknown r) := by
  -- after a vertex was taken, the same ones wait for the same arcs
  have hrest (w : Waiting) (ws : List Waiting) :
      (w.rename r).release (v.rename r).arcs ((ws.map (Waiting.rename r)).erase (w.rename r))
        = (w.release v.arcs (ws.erase w)).map (Waiting.rename r) := by
    rw [← List.map_erase (Waiting.rename_injective hr)]
    exact release_rename hr v.arcs w (ws.erase w)
  have hstray (w : Waiting) (ws : List Waiting) :
      Waiting.stray? (ws.map (Waiting.rename r)) ((v.rename r).successors (w.rename r).vertex)
        = (Waiting.stray? ws (v.successors w.vertex)).map r := by
    have hsuccessors : (v.rename r).successors (w.rename r).vertex
        = (v.successors w.vertex).map r := successors_rename hr v w.vertex
    rw [hsuccessors, stray?_rename hr]
  induction ws using takeLeast.induct v with
  | case1 ws hnone =>
    rw [takeLeast_of_none hnone, takeLeast_of_none (by rw [least?_rename, hnone]; rfl)]
    cases ws <;> rfl
  | case2 ws w hsome rest x hx =>
    have hsome' : Waiting.least? (ws.map (Waiting.rename r)) = some (w.rename r) := by
      rw [least?_rename, hsome]
      rfl
    rw [takeLeast_of_some hsome, takeLeast_of_some hsome', hrest, hstray, hx]
    rfl
  | case3 ws w hsome rest hx ih =>
    have hsome' : Waiting.least? (ws.map (Waiting.rename r)) = some (w.rename r) := by
      rw [least?_rename, hsome]
      rfl
    rw [takeLeast_of_some hsome, takeLeast_of_some hsome', hrest, hstray, hx]
    simp only [Option.map_none]
    rw [ih]
    cases v.takeLeast rest with
    | error e => rfl
    | ok order? => cases order? <;> rfl

lemma topologicalOrder_rename (v : View) :
    (v.rename r).topologicalOrder
      = (v.topologicalOrder.map (List.map r)).mapError (renameUnknown r) := by
  have hwaiting : (v.rename r).waiting (v.rename r).arcs
      = (v.waiting v.arcs).map (Waiting.rename r) := waiting_rename hr v v.arcs
  simp only [topologicalOrder, hwaiting, vertices_rename hr, stray?_rename hr, takeLeast_rename hr,
    nodeIds_rename]
  cases Waiting.stray? (v.waiting v.arcs) v.vertices with
  | some x => rfl
  | none =>
    cases v.takeLeast (v.waiting v.arcs) with
    | error e => rfl
    | ok order? => cases order? <;> rfl

end View
end Flowchart
