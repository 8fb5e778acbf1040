import Flowchart.Proofs.View.Circle
import Flowchart.View.Order

/-!
# Taking ready vertices

`Waiting.Counted` says that each vertex that waits carries the number of arcs that block it: those
that enter it from vertices that wait.  Taking a ready vertex preserves this
(`Waiting.Counted.release`), so the vertices are taken in a line in which the arcs go forward, and
each vertex that is left over is entered from one that is left over (`taken_takeReady`).  Hence
vertices are left over exactly if arcs lead in a circle (`hasCycle_ofGraph`).
-/

namespace Flowchart
namespace View

namespace Waiting

variable {arcs : List Arc} {w : Waiting} {ws : List Waiting}

/-- An arc enters a vertex from one of those that wait. -/
def blocks (ws : List Waiting) (y : String) (a : Arc) : Bool :=
  a.target = y && a.source ∈ ws.map Waiting.vertex

/-- No vertex waits twice, and each one knows how many arcs block it. -/
structure Counted (arcs : List Arc) (ws : List Waiting) : Prop where
  nodup : (ws.map Waiting.vertex).Nodup
  blocked : ∀ w ∈ ws, w.blocked = arcs.countP (blocks ws w.vertex)

/-! ### Taking one vertex -/

@[simp] lemma map_vertex_release (arcs : List Arc) (w : Waiting) (ws : List Waiting) :
    (w.release arcs ws).map Waiting.vertex = ws.map Waiting.vertex := by
  rw [release, List.map_map]
  refine List.map_congr_left fun u _ => ?_
  simp only [Function.comp_apply]
  split <;> rfl

/-- The vertices that still wait are blocked by fewer arcs: those from the one that was taken are
gone. -/
lemma blocked_release {u : Waiting} (hu : u ∈ w.release arcs ws) :
    ∃ u₀ ∈ ws, u.vertex = u₀.vertex ∧
      u.blocked
        = u₀.blocked - arcs.countP (fun a => a.target = u.vertex && a.source = w.vertex) := by
  obtain ⟨u₀, hu₀, rfl⟩ := List.mem_map.1 hu
  have hcount : ((arcs.filter fun a => a.source = w.vertex).map Arc.target).count u₀.vertex
      = arcs.countP (fun a => a.target = u₀.vertex && a.source = w.vertex) := by
    rw [List.count_eq_countP, List.countP_map, List.countP_filter]
    rfl
  refine ⟨u₀, hu₀, ?_⟩
  split
  · exact ⟨rfl, by rw [hcount]⟩
  · next hout =>
    rw [← hcount, List.count_eq_zero_of_not_mem hout]
    exact ⟨rfl, rfl⟩

lemma map_vertex_perm (hw : w ∈ ws) :
    (ws.map Waiting.vertex).Perm (w.vertex :: (ws.erase w).map Waiting.vertex) :=
  (List.perm_cons_erase hw).map Waiting.vertex

/-- The arcs that block a vertex come from the vertex that is taken or from the others. -/
lemma countP_blocks_erase (h : (ws.map Waiting.vertex).Nodup) (hw : w ∈ ws) (y : String) :
    arcs.countP (blocks ws y) = arcs.countP (blocks (ws.erase w) y)
      + arcs.countP (fun a => a.target = y && a.source = w.vertex) := by
  have hperm := map_vertex_perm hw
  have hnew : w.vertex ∉ (ws.erase w).map Waiting.vertex :=
    (List.nodup_cons.1 (hperm.nodup_iff.1 h)).1
  have hone : ∀ a : Arc, (if blocks ws y a then 1 else 0)
      = (if blocks (ws.erase w) y a then 1 else 0)
        + if (a.target = y && a.source = w.vertex : Bool) then 1 else 0 := by
    intro a
    have hmem : a.source ∈ ws.map Waiting.vertex ↔
        a.source = w.vertex ∨ a.source ∈ (ws.erase w).map Waiting.vertex := by
      rw [hperm.mem_iff, List.mem_cons]
    simp only [blocks, decide_eq_decide.2 hmem]
    by_cases hs : a.source = w.vertex
    · simp [-List.mem_map, hs, hnew]
    · simp [-List.mem_map, hs]
  induction arcs with
  | nil => rfl
  | cons a arcs ih =>
    simp only [List.countP_cons, ih, hone]
    omega

/-- Taking a vertex keeps the counts right. -/
lemma Counted.release (h : Counted arcs ws) (hw : w ∈ ws) :
    Counted arcs (w.release arcs (ws.erase w)) := by
  refine ⟨?_, fun u hu => ?_⟩
  · rw [map_vertex_release]
    exact (List.nodup_cons.1 ((map_vertex_perm hw).nodup_iff.1 h.nodup)).2
  · obtain ⟨u₀, hu₀, hvertex, hblocked⟩ := blocked_release hu
    have hsame : blocks (w.release arcs (ws.erase w)) u.vertex = blocks (ws.erase w) u.vertex := by
      funext a
      rw [blocks, map_vertex_release, blocks]
    rw [hblocked, h.blocked u₀ (List.mem_of_mem_erase hu₀), hsame, hvertex,
      countP_blocks_erase h.nodup hw]
    omega

/-- No arc enters a ready vertex from one that waits. -/
lemma Counted.not_blocks (h : Counted arcs ws) (hw : w ∈ ws) (hready : w.isReady = true) :
    ∀ a ∈ arcs, a.target = w.vertex → a.source ∉ ws.map Waiting.vertex := by
  have hzero : arcs.countP (blocks ws w.vertex) = 0 := by
    rw [← h.blocked w hw]
    simpa [isReady] using hready
  intro a ha htarget hsource
  exact List.countP_eq_zero.1 hzero a ha (by simp [blocks, htarget, hsource])

/-- A vertex that is not ready is entered from one that waits. -/
lemma Counted.exists_blocks (h : Counted arcs ws) (hw : w ∈ ws) (hready : ¬ w.isReady = true) :
    ∃ x ∈ ws.map Waiting.vertex, Arc.Leads arcs x w.vertex := by
  have hpos : 0 < arcs.countP (blocks ws w.vertex) := by
    rw [← h.blocked w hw]
    exact Nat.pos_of_ne_zero (by simpa [isReady] using hready)
  obtain ⟨a, ha, hblocks⟩ := List.countP_pos_iff.1 hpos
  obtain ⟨htarget, hsource⟩ : a.target = w.vertex ∧ a.source ∈ ws.map Waiting.vertex := by
    simpa only [blocks, Bool.and_eq_true, decide_eq_true_eq] using hblocks
  exact ⟨a.source, hsource, a, ha, rfl, htarget⟩

end Waiting

/-! ### Taking all of them -/

section Unfold

variable {v : View} {arcs : List Arc} {w : Waiting} {ws : List Waiting}

lemma takeReady_of_none (h : ws.find? Waiting.isReady = none) : takeReady arcs ws = ([], ws) := by
  rw [takeReady]
  split <;> simp_all

lemma takeReady_of_some (h : ws.find? Waiting.isReady = some w) :
    takeReady arcs ws = (w :: (takeReady arcs (w.release arcs (ws.erase w))).1,
      (takeReady arcs (w.release arcs (ws.erase w))).2) := by
  rw [takeReady]
  split <;> simp_all

lemma takeLeast_of_none (h : Waiting.least? ws = none) :
    v.takeLeast ws = .ok (if ws.isEmpty then some [] else none) := by
  rw [takeLeast]
  split <;> simp_all

lemma takeLeast_of_some (h : Waiting.least? ws = some w) :
    v.takeLeast ws =
      match Waiting.stray? (w.release v.arcs (ws.erase w)) (v.successors w.vertex) with
      | some x => .error ⟨x⟩
      | none => (v.takeLeast (w.release v.arcs (ws.erase w))).map (Option.map (w.vertex :: ·)) := by
  rw [takeLeast]
  split
  · next hnone => simp [h] at hnone
  · next u hu =>
    obtain rfl : u = w := Option.some.inj (hu.symm.trans h)
    rfl

end Unfold

/-- Some vertices were taken and some are left, none of which is ready. -/
structure Taken (arcs : List Arc) (ws taken left : List Waiting) : Prop where
  /-- Every vertex was taken or is left. -/
  vertices : (taken.map Waiting.vertex ++ left.map Waiting.vertex).Perm (ws.map Waiting.vertex)
  /-- An arc into a vertex that was taken goes forward. -/
  forward : ∀ a ∈ arcs, a.source ∈ ws.map Waiting.vertex → a.target ∈ taken.map Waiting.vertex →
    a.Forward (taken.map Waiting.vertex)
  /-- A vertex that is left is entered from one that is left. -/
  entered : ∀ w ∈ left, ∃ x ∈ left.map Waiting.vertex, Arc.Leads arcs x w.vertex

lemma taken_takeReady {arcs : List Arc} {ws : List Waiting} (h : Waiting.Counted arcs ws) :
    Taken arcs ws (takeReady arcs ws).1 (takeReady arcs ws).2 := by
  induction ws using takeReady.induct arcs with
  | case1 ws hnone =>
    rw [takeReady_of_none hnone]
    refine ⟨.refl _, by simp, fun w hw => h.exists_blocks hw ?_⟩
    exact List.find?_eq_none.1 hnone w hw
  | case2 ws w hsome _ _ _ ih =>
    have hw : w ∈ ws := List.mem_of_find?_eq_some hsome
    obtain ⟨hvertices, hforward, hentered⟩ := ih (h.release hw)
    rw [Waiting.map_vertex_release] at hvertices hforward
    rw [takeReady_of_some hsome]
    refine ⟨?_, fun a ha hsource htarget => ?_, hentered⟩
    · exact (hvertices.cons w.vertex).trans (Waiting.map_vertex_perm hw).symm
    · -- nothing that waits enters the vertex that is taken first
      have htarget := (List.mem_cons.1 htarget).resolve_left fun heq =>
        h.not_blocks hw (List.find?_some hsome) a ha heq hsource
      rcases List.mem_cons.1 ((Waiting.map_vertex_perm hw).mem_iff.1 hsource) with heq | hsource
      · rw [Arc.Forward, heq]
        exact (List.singleton_sublist.2 htarget).cons_cons w.vertex
      · exact (hforward a ha hsource htarget).cons w.vertex

/-! ### Circles -/

variable {v : View}

@[simp] lemma map_vertex_waiting (v : View) (arcs : List Arc) :
    (v.waiting arcs).map Waiting.vertex = v.vertices := by
  simp [waiting, Function.comp_def]

lemma counted_waiting {arcs : List Arc} (h : ∀ a ∈ arcs, a.source ∈ v.vertices) :
    Waiting.Counted arcs (v.waiting arcs) := by
  refine ⟨by rw [map_vertex_waiting]; exact v.nodup_vertices, fun w hw => ?_⟩
  obtain ⟨x, -, rfl⟩ := List.mem_map.1 hw
  refine List.countP_congr fun a ha => ?_
  simp [Waiting.blocks, h a ha]

/-- Taking ready vertices leaves some over exactly if arcs lead in a circle. -/
lemma takeReady_eq_nil_iff {arcs : List Arc}
    (h : ∀ a ∈ arcs, a.source ∈ v.vertices ∧ a.target ∈ v.vertices) :
    (takeReady arcs (v.waiting arcs)).2 = [] ↔ ¬ Arc.Circle arcs := by
  have htaken := taken_takeReady (counted_waiting fun a ha => (h a ha).1)
  constructor
  · intro hnil
    have hall := htaken.vertices
    rw [hnil, List.map_nil, List.append_nil, map_vertex_waiting] at hall
    refine Arc.not_circle_of_forward (hall.nodup_iff.2 v.nodup_vertices) fun a ha => ?_
    refine htaken.forward a ha ?_ (hall.mem_iff.2 (h a ha).2)
    rw [map_vertex_waiting]
    exact (h a ha).1
  · intro hcircle
    by_contra hne
    have hsome : (takeReady arcs (v.waiting arcs)).2.map Waiting.vertex ≠ [] :=
      mt List.map_eq_nil_iff.1 hne
    refine hcircle (Arc.circle_of_entered hsome fun y hy => ?_)
    obtain ⟨w, hw, rfl⟩ := List.mem_map.1 hy
    exact htaken.entered w hw

/-- A chart is said to have a cycle exactly if its edges lead in a circle. -/
lemma hasCycle_ofGraph (g : Graph) : (ofGraph g).hasCycle = true ↔ g.Circular := by
  rw [← circle_arcs_ofGraph, ← not_iff_not, ← takeReady_eq_nil_iff (sound_ofGraph g)]
  simp [hasCycle]

end View
end Flowchart
