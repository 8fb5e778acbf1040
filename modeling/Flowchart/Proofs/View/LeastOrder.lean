import Flowchart.Proofs.View.Answers

/-!
# The least order

A line of the vertices that wait is *sorted* if the arcs between them go forward.  In a sorted line
no vertex that waits leads to the first one, so the first one is ready, and behind it stands a
sorted line of the vertices that wait after it has been taken (`Sorted.exists_ready`).  Conversely a
ready vertex can stand in front of such a line (`Sorted.cons`).

The least ready vertex is therefore not behind the first vertex of any sorted line.  If it is that
vertex, the rest of the line is compared in the same way; so taking the least ready vertex again and
again gives the least sorted line, or there is none and arcs lead in a circle (`takeLeast_cases`).
For a chart this says that `topologicalOrder` is the least of all orders in which every edge goes
from an earlier node to a later one (`topologicalOrder_least`).
-/

namespace Flowchart

namespace View
namespace Waiting

variable {arcs : List Arc} {w : Waiting} {ws : List Waiting} {line : List String}

/-! ### Sorted lines -/

/-- A line of the vertices that wait in which the arcs between them go forward. -/
structure Sorted (arcs : List Arc) (ws : List Waiting) (line : List String) : Prop where
  perm : line.Perm (ws.map Waiting.vertex)
  forward : ∀ a ∈ arcs, a.source ∈ ws.map Waiting.vertex → a.target ∈ ws.map Waiting.vertex →
    a.Forward line

/-- A ready vertex may stand first. -/
lemma Sorted.cons (hc : Counted arcs ws) (hw : w ∈ ws) (hready : w.isReady = true)
    (h : Sorted arcs (w.release arcs (ws.erase w)) line) : Sorted arcs ws (w.vertex :: line) := by
  have hperm := map_vertex_perm hw
  obtain ⟨hline, hforward⟩ := h
  rw [map_vertex_release] at hline hforward
  refine ⟨(hline.cons w.vertex).trans hperm.symm, fun a ha hsource htarget => ?_⟩
  have htarget : a.target ∈ (ws.erase w).map Waiting.vertex :=
    (List.mem_cons.1 (hperm.mem_iff.1 htarget)).resolve_left fun heq =>
      hc.not_blocks hw hready a ha heq hsource
  rcases List.mem_cons.1 (hperm.mem_iff.1 hsource) with heq | hsource
  · exact pair_sublist_cons_iff.2 (.inr ⟨heq, hline.mem_iff.2 htarget⟩)
  · exact (hforward a ha hsource htarget).cons w.vertex

/-- The first vertex of a sorted line is ready, and the rest of the line is sorted. -/
lemma Sorted.exists_ready {y : String} (hc : Counted arcs ws) (h : Sorted arcs ws (y :: line)) :
    ∃ u ∈ ws, u.vertex = y ∧ u.isReady = true ∧
      Sorted arcs (u.release arcs (ws.erase u)) line := by
  obtain ⟨u, hu, rfl⟩ := List.mem_map.1 (h.perm.mem_iff.1 List.mem_cons_self)
  have hperm := map_vertex_perm hu
  have hnew := (List.nodup_cons.1 (h.perm.nodup_iff.2 hc.nodup)).1
  refine ⟨u, hu, rfl, ?_, ?_, ?_⟩
  · by_contra hready
    obtain ⟨-, hx, a, ha, rfl, htarget⟩ := hc.exists_blocks hu hready
    have hforward := h.forward a ha hx (htarget ▸ List.mem_map_of_mem hu)
    rw [Arc.Forward, htarget] at hforward
    rcases pair_sublist_cons_iff.1 hforward with hsub | ⟨-, hmem⟩
    · exact hnew (hsub.subset (by simp))
    · exact hnew hmem
  · rw [map_vertex_release]
    exact (h.perm.trans hperm).cons_inv
  · rw [map_vertex_release]
    intro a ha hsource htarget
    have hforward := h.forward a ha (hperm.mem_iff.2 (List.mem_cons_of_mem _ hsource))
      (hperm.mem_iff.2 (List.mem_cons_of_mem _ htarget))
    rcases pair_sublist_cons_iff.1 hforward with hsub | ⟨hfirst, -⟩
    · exact hsub
    · -- an arc between the others does not start at the first vertex
      rw [hfirst] at hsource
      exact absurd hsource (List.nodup_cons.1 (hperm.nodup_iff.1 hc.nodup)).1

/-! ### The least ready vertex -/

lemma least?_eq_none (h : least? ws = none) : ∀ u ∈ ws, ¬ u.isReady = true := by
  induction ws with
  | nil => simp
  | cons x ws ih =>
    unfold least? at h
    split at h
    · split at h
      · cases h
      · split at h <;> cases h
    · next hx =>
      intro u hu
      rcases List.mem_cons.1 hu with rfl | hu
      · exact hx
      · exact ih h u hu

lemma least?_eq_some (h : least? ws = some w) :
    w.isReady = true ∧ ∀ u ∈ ws, u.isReady = true → w.place.getD 0 ≤ u.place.getD 0 := by
  induction ws generalizing w with
  | nil => simp [least?] at h
  | cons x ws ih =>
    unfold least? at h
    split at h
    · next hx =>
      split at h
      · next hnone =>
        obtain rfl := Option.some.inj h
        refine ⟨hx, fun u hu hready => ?_⟩
        rcases List.mem_cons.1 hu with rfl | hu
        · exact Nat.le_refl _
        · exact absurd hready (least?_eq_none hnone u hu)
      · next v hv =>
        -- the least of the others, or the first one if that is not behind it
        obtain ⟨hready, hle⟩ := ih hv
        split at h
        · next hlt =>
          obtain rfl := Option.some.inj h
          refine ⟨hready, fun u hu hu' => ?_⟩
          rcases List.mem_cons.1 hu with rfl | hu
          · exact Nat.le_of_lt hlt
          · exact hle u hu hu'
        · next hlt =>
          obtain rfl := Option.some.inj h
          refine ⟨hx, fun u hu hu' => ?_⟩
          rcases List.mem_cons.1 hu with rfl | hu
          · exact Nat.le_refl _
          · exact Nat.le_trans (Nat.le_of_not_lt hlt) (hle u hu hu')
    · next hx =>
      obtain ⟨hready, hle⟩ := ih h
      refine ⟨hready, fun u hu hu' => ?_⟩
      rcases List.mem_cons.1 hu with rfl | hu
      · exact absurd hu' hx
      · exact hle u hu hu'

/-- Each vertex that waits is one of the given ids and knows its place among them. -/
def Placed (ids : List String) (ws : List Waiting) : Prop :=
  ∀ w ∈ ws, w.vertex ∈ ids ∧ w.place = some (ids.idxOf w.vertex)

lemma Placed.release {ids : List String} (h : Placed ids ws) (arcs : List Arc) (w : Waiting) :
    Placed ids (w.release arcs (ws.erase w)) := by
  intro u hu
  obtain ⟨u₀, hu₀, rfl⟩ := List.mem_map.1 hu
  have hplaced := h u₀ (List.mem_of_mem_erase hu₀)
  split <;> exact hplaced

/-- A sorted line whose places are least among all sorted lines. -/
structure Least (ids : List String) (arcs : List Arc) (ws : List Waiting) (line : List String) :
    Prop where
  sorted : Sorted arcs ws line
  le : ∀ line', Sorted arcs ws line' → line.map ids.idxOf ≤ line'.map ids.idxOf

/-- The least ready vertex stands first in the least line. -/
lemma Least.cons {ids : List String} (hc : Counted arcs ws) (hp : Placed ids ws)
    (hw : w ∈ ws) (hleast : least? ws = some w)
    (h : Least ids arcs (w.release arcs (ws.erase w)) line) :
    Least ids arcs ws (w.vertex :: line) := by
  obtain ⟨hready, hle⟩ := least?_eq_some hleast
  refine ⟨h.sorted.cons hc hw hready, fun line' hline' => ?_⟩
  cases line' with
  | nil =>
    have := hline'.perm.length_eq
    simp [List.length_pos_of_mem hw |>.ne] at this
  | cons y ys =>
    obtain ⟨u, hu, rfl, huready, hys⟩ := hline'.exists_ready hc
    have hplace : ids.idxOf w.vertex ≤ ids.idxOf u.vertex := by
      simpa [(hp w hw).2, (hp u hu).2] using hle u hu huready
    rw [List.map_cons, List.map_cons]
    rcases Nat.lt_or_eq_of_le hplace with hlt | heq
    · exact le_of_lt (List.Lex.rel hlt)
    · -- both lines start with the same vertex
      have hsame : w.vertex = u.vertex := (List.idxOf_inj (hp w hw).1).1 heq
      obtain rfl : w = u := List.inj_on_of_nodup_map hc.nodup hw hu hsame
      exact List.cons_le_cons _ (h.le ys hys)

end Waiting

/-! ### Taking all vertices -/

open Waiting

variable {v : View} {ws : List Waiting}

/-- Taking the least ready vertex as long as there is one gives the least sorted line, unless arcs
lead in a circle. -/
lemma takeLeast_cases {ids : List String} (hc : Counted v.arcs ws) (hp : Placed ids ws) :
    (∃ line, v.takeLeast ws = .ok (some line) ∧ Least ids v.arcs ws line) ∨
      (v.takeLeast ws = .ok none ∧ Arc.Circle v.arcs) := by
  induction ws using takeLeast.induct v with
  | case1 ws hnone =>
    rw [takeLeast_of_none hnone]
    cases ws with
    | nil =>
      refine .inl ⟨[], rfl, ⟨.refl _, by simp⟩, fun line' hline' => ?_⟩
      rw [List.Perm.eq_nil hline'.perm]
    | cons u ws =>
      -- each vertex that is left is entered from one that is left
      have hleft : (u :: ws).map Waiting.vertex ≠ [] := by simp
      refine .inr ⟨rfl, Arc.circle_of_entered hleft fun y hy => ?_⟩
      obtain ⟨w, hw, rfl⟩ := List.mem_map.1 hy
      exact hc.exists_blocks hw (least?_eq_none hnone w hw)
  | case2 ws w hsome rest x hstray =>
    have hplaces : ∀ u ∈ rest, u.place.isSome = true := by
      intro u hu
      rw [(hp.release v.arcs w u hu).2]
      rfl
    rw [stray?_eq_none hplaces] at hstray
    cases hstray
  | case3 ws w hsome rest hstray ih =>
    have hw : w ∈ ws := mem_of_least? hsome
    rw [takeLeast_of_some hsome]
    simp only [rest] at hstray ih
    rw [hstray]
    rcases ih (hc.release hw) (hp.release v.arcs w) with ⟨line, hrun, hline⟩ | ⟨hrun, hcircle⟩
    · exact .inl ⟨w.vertex :: line, by rw [hrun]; rfl, hline.cons hc hp hw hsome⟩
    · exact .inr ⟨by rw [hrun]; rfl, hcircle⟩

lemma place?_eq {x : String} (hids : v.graph.nodeIds.Nodup) (hx : x ∈ v.graph.nodeIds) :
    v.place? x = some (v.graph.nodeIds.idxOf x) := by
  obtain ⟨k, hk⟩ := Option.isSome_iff_exists.1 (isSome_place? hx)
  rw [hk]
  obtain ⟨p, hp, rfl⟩ := Option.map_eq_some_iff.1 hk
  obtain rfl : p.1 = x := by simpa using List.find?_some hp
  have hmem : v.graph.nodeIds[p.2]? = some p.1 := by
    rw [← List.mem_zipIdx_iff_getElem?, ← List.mem_reverse]
    exact List.mem_of_find?_eq_some hp
  obtain ⟨hlt, hget⟩ := List.getElem?_eq_some_iff.1 hmem
  rw [← hget, hids.idxOf_getElem]

end View

/-! ### Charts -/

namespace Graph

/-- All nodes in an order in which every edge goes from an earlier one to a later one. -/
structure Sorts (g : Graph) (order : List String) : Prop where
  perm : order.Perm g.nodeIds
  forward : ∀ e ∈ g.edges, order.idxOf e.source < order.idxOf e.target

/-- The places of the nodes of an order in the list of nodes. -/
def places (g : Graph) (order : List String) : List Nat := order.map g.nodeIds.idxOf

end Graph

namespace View

section Distinct

variable {g : Graph} (hids : g.nodeIds.Nodup)
  (hends : ∀ e ∈ g.edges, e.source ∈ g.nodeIds ∧ e.target ∈ g.nodeIds)
include hids hends

lemma vertices_perm : (ofGraph g).vertices.Perm g.nodeIds := by
  refine (List.perm_ext_iff_of_nodup (nodup_vertices _) hids).2 fun x => ?_
  exact ⟨mem_nodeIds_of_mem_vertices hends, fun hx => mem_vertices_ofGraph.2 (.inl hx)⟩

lemma sorted_iff (order : List String) :
    Waiting.Sorted (ofGraph g).arcs ((ofGraph g).waiting (ofGraph g).arcs) order ↔
      g.Sorts order := by
  have hperm := vertices_perm hids hends
  have hstep {order : List String} (horder : order.Perm g.nodeIds) {e : Edge}
      (he : e ∈ g.edges) :
      [e.source, e.target].Sublist order ↔ order.idxOf e.source < order.idxOf e.target :=
    pair_sublist_iff_idxOf (horder.nodup_iff.2 hids) (horder.mem_iff.2 (hends e he).2)
  constructor
  · rintro ⟨horder, hforward⟩
    rw [map_vertex_waiting] at horder hforward
    refine ⟨horder.trans hperm, fun e he => (hstep (horder.trans hperm) he).1 ?_⟩
    obtain ⟨a, ha, hsource, htarget⟩ := (leads_arcs_ofGraph g _ _).2 ⟨e, he, rfl, rfl⟩
    rw [← hsource, ← htarget]
    exact hforward a ha (sound_ofGraph g a ha).1 (sound_ofGraph g a ha).2
  · rintro ⟨horder, hforward⟩
    refine ⟨by rw [map_vertex_waiting]; exact horder.trans hperm.symm, fun a ha _ _ => ?_⟩
    obtain ⟨e, he, hsource, htarget⟩ := (leads_arcs_ofGraph g _ _).1 ⟨a, ha, rfl, rfl⟩
    rw [Arc.Forward, ← hsource, ← htarget, hstep horder he]
    exact hforward e he

lemma placed_waiting (arcs : List Arc) :
    Waiting.Placed g.nodeIds ((ofGraph g).waiting arcs) := by
  intro w hw
  obtain ⟨x, hx, rfl⟩ := List.mem_map.1 hw
  have hx := mem_nodeIds_of_mem_vertices hends hx
  exact ⟨hx, place?_eq hids hx⟩

end Distinct

/-- If a chart has no circle, the order of its nodes is sorted, and it is the least of all sorted
orders: at the first difference to any other one it has the node that is listed earlier.  If a chart
has a circle, the order is that of the list of nodes. -/
theorem topologicalOrder_least (g : Graph) (hids : g.nodeIds.Nodup)
    (hends : ∀ e ∈ g.edges, e.source ∈ g.nodeIds ∧ e.target ∈ g.nodeIds) :
    ∃ order, (ofGraph g).topologicalOrder = .ok order ∧
      (¬ g.Circular → g.Sorts order ∧
        ∀ order', g.Sorts order' → g.places order ≤ g.places order') ∧
      (g.Circular → order = g.nodeIds) := by
  have hplaced := placed_waiting hids hends (ofGraph g).arcs
  have hcounted := counted_waiting fun a ha => (sound_ofGraph g a ha).1
  have hstray : Waiting.stray? ((ofGraph g).waiting (ofGraph g).arcs) (ofGraph g).vertices
      = none := by
    refine stray?_eq_none (fun w hw => ?_) _
    rw [(hplaced w hw).2]
    rfl
  simp only [topologicalOrder, hstray]
  rcases takeLeast_cases hcounted hplaced with ⟨line, hrun, hline⟩ | ⟨hrun, hcircle⟩
  · refine ⟨line, by rw [hrun]; rfl, fun _ => ?_, fun hcircle => ?_⟩
    · refine ⟨(sorted_iff hids hends line).1 hline.sorted, fun order' horder' => ?_⟩
      exact hline.le order' ((sorted_iff hids hends order').2 horder')
    · -- a sorted line rules circles out
      have hnodup : line.Nodup := hline.sorted.perm.nodup_iff.2 hcounted.nodup
      refine absurd ((circle_arcs_ofGraph g).2 hcircle) ?_
      refine Arc.not_circle_of_forward hnodup fun a ha => hline.sorted.forward a ha ?_ ?_
      · rw [map_vertex_waiting]
        exact (sound_ofGraph g a ha).1
      · rw [map_vertex_waiting]
        exact (sound_ofGraph g a ha).2
  · refine ⟨g.nodeIds, by rw [hrun]; rfl, fun hnone => ?_, fun _ => rfl⟩
    exact absurd ((circle_arcs_ofGraph g).1 hcircle) hnone

/-- Two edges run from the last node to the first; with a loop, the nodes stay as they are listed. -/
theorem topologicalOrder_least_parallel :
    let node (id : String) : Node := ⟨id, .rectangle, id, none⟩
    let edge (id source target : String) : Edge := ⟨id, source, target, none, none⟩
    let g : Graph :=
      { nodes := [node "a", node "b", node "c", node "d"]
        edges := [edge "e1" "d" "a", edge "e2" "d" "a", edge "e3" "c" "b"] }
    let looped : Graph := { g with edges := edge "e4" "b" "b" :: g.edges }
    (ofGraph g).topologicalOrder = .ok ["c", "b", "d", "a"] ∧ g.Sorts ["c", "b", "d", "a"] ∧
      (∀ order, g.Sorts order → [2, 1, 3, 0] ≤ g.places order) ∧
      (ofGraph looped).topologicalOrder = .ok ["a", "b", "c", "d"] := by
  intro node edge g looped
  obtain ⟨order, horder, hleast, -⟩ := topologicalOrder_least g (by decide) (by decide)
  have hvalue : (ofGraph g).topologicalOrder = .ok ["c", "b", "d", "a"] := by cbv
  obtain rfl : ["c", "b", "d", "a"] = order := Except.ok.inj (hvalue.symm.trans horder)
  have hcycle : (ofGraph g).hasCycle = false := by cbv
  have hnone : ¬ g.Circular := by
    rw [← hasCycle_ofGraph, hcycle]
    exact Bool.false_ne_true
  obtain ⟨hsorts, hle⟩ := hleast hnone
  obtain ⟨order', horder', -, hlisted⟩ := topologicalOrder_least looped (by decide) (by decide)
  refine ⟨hvalue, hsorts, hle, ?_⟩
  rw [horder', hlisted ⟨"b", .single ⟨edge "e4" "b" "b", by simp [looped], rfl, rfl⟩⟩]
  rfl

end View
end Flowchart
