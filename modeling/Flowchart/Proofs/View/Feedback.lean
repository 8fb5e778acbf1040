import Flowchart.Proofs.View.Order

/-!
# Feedback edges

While a search is under way, each arc is in one of four places: *kept*, *found* as feedback, on the
stack, or with a vertex that has not been seen.  `Explored` says what holds of them.  The vertices
of the stack, from the bottom up, and after them the finished vertices, the last one first, stand in
a line in which all kept arcs go forward; taking a vertex off the stack leaves the line as it is.
The kept arcs also lead up the stack, so an arc back to the stack closes a circle of kept arcs.

Each of the four steps of a search preserves this, and so does the whole search
(`Explored.search`).  In the end nothing is left on the stack or unseen: the kept arcs have no
circle, and every feedback arc closes one with them (`exists_kept`, and `feedback_back` for the
edges of a chart).
-/

namespace Flowchart
namespace View

open Relation

variable {v : View}

/-! ### The search, step by step -/

lemma search_nil (unseen : List String) : v.search [] unseen = ([], unseen) := by
  rw [search]

lemma search_pop (x : String) (stack : List Frame) (unseen : List String) :
    v.search (⟨x, []⟩ :: stack) unseen = v.search stack unseen := by
  rw [search]

section Steps

variable {x : String} {a : Arc} {arcs : List Arc} {stack : List Frame} {unseen : List String}

lemma search_back (h : a.target ∈ x :: stack.map Frame.vertex) :
    v.search (⟨x, a :: arcs⟩ :: stack) unseen
      = (a.key :: (v.search (⟨x, arcs⟩ :: stack) unseen).1,
          (v.search (⟨x, arcs⟩ :: stack) unseen).2) := by
  rw [search, if_pos (List.mem_cons.1 h)]

lemma search_push (h : a.target ∉ x :: stack.map Frame.vertex) (hu : a.target ∈ unseen) :
    v.search (⟨x, a :: arcs⟩ :: stack) unseen
      = v.search (⟨a.target, v.outArcs a.target⟩ :: ⟨x, arcs⟩ :: stack)
          (unseen.erase a.target) := by
  rw [search, if_neg fun h' => h (List.mem_cons.2 h'), if_pos hu]

lemma search_skip (h : a.target ∉ x :: stack.map Frame.vertex) (hu : a.target ∉ unseen) :
    v.search (⟨x, a :: arcs⟩ :: stack) unseen = v.search (⟨x, arcs⟩ :: stack) unseen := by
  rw [search, if_neg fun h' => h (List.mem_cons.2 h'), if_neg hu]

end Steps

/-! ### What holds during a search -/

/-- The vertices on the stack, from the bottom up, and after them the finished ones, the last one
first. -/
def line (stack : List Frame) (done : List String) : List String :=
  (stack.map Frame.vertex).reverse ++ done

lemma line_cons (f : Frame) (stack : List Frame) (done : List String) :
    line (f :: stack) done = line stack (f.vertex :: done) := by
  simp [line]

/-- What holds during a search, with the finished vertices, the arcs that were kept and those that
were found as feedback. -/
structure Explored (v : View) (stack : List Frame) (unseen done : List String)
    (kept found : List Arc) : Prop where
  /-- Every vertex is on the stack, finished or unseen. -/
  vertices : (line stack done ++ unseen).Perm v.vertices
  /-- Every arc is kept, found, on the stack or with an unseen vertex. -/
  arcs : (kept ++ found ++ (stack.flatMap Frame.arcs ++ unseen.flatMap v.outArcs)).Perm v.arcs
  /-- The arcs on the stack leave their vertices. -/
  source_eq : ∀ f ∈ stack, ∀ a ∈ f.arcs, a.source = f.vertex
  /-- The kept arcs go forward. -/
  forward : ∀ a ∈ kept, a.Forward (line stack done)
  /-- The kept arcs lead up the stack. -/
  path : (stack.map Frame.vertex).IsChain fun y below => Arc.Leads kept below y
  /-- Every feedback arc closes a circle of kept arcs. -/
  closes : ∀ a ∈ found, ReflTransGen (Arc.Leads kept) a.target a.source

namespace Explored

variable {x : String} {a : Arc} {arcs kept found : List Arc} {stack : List Frame}
  {unseen done : List String}

lemma initial (h : v.Sound) : v.Explored [] v.vertices [] [] [] where
  vertices := .refl _
  arcs := flatMap_outArcs_perm h
  source_eq := by simp
  forward := by simp
  path := .nil
  closes := by simp

lemma nodup (h : v.Explored stack unseen done kept found) : (line stack done ++ unseen).Nodup :=
  h.vertices.nodup_iff.2 v.nodup_vertices

/-! ### Steps -/

/-- A vertex whose arcs have all been followed is finished. -/
lemma pop (h : v.Explored (⟨x, []⟩ :: stack) unseen done kept found) :
    v.Explored stack unseen (x :: done) kept found where
  vertices := by simpa only [line_cons] using h.vertices
  arcs := h.arcs
  source_eq := fun f hf => h.source_eq f (List.mem_cons_of_mem _ hf)
  forward := by simpa only [line_cons] using h.forward
  path := h.path.tail
  closes := h.closes

lemma source_eq_next (h : v.Explored (⟨x, a :: arcs⟩ :: stack) unseen done kept found) :
    ∀ f ∈ (⟨x, arcs⟩ : Frame) :: stack, ∀ b ∈ f.arcs, b.source = f.vertex := by
  intro f hf b hb
  rcases List.mem_cons.1 hf with rfl | hf
  · exact h.source_eq _ List.mem_cons_self b (List.mem_cons_of_mem _ hb)
  · exact h.source_eq f (List.mem_cons_of_mem _ hf) b hb

lemma source_eq_top (h : v.Explored (⟨x, a :: arcs⟩ :: stack) unseen done kept found) :
    a.source = x :=
  h.source_eq _ List.mem_cons_self a List.mem_cons_self

/-- The kept arcs lead from every vertex of the stack to its top. -/
lemma leads_top {y : String} {ys : List String}
    (hpath : (x :: ys).IsChain fun y below => Arc.Leads kept below y) (hy : y ∈ x :: ys) :
    ReflTransGen (Arc.Leads kept) y x := by
  induction ys generalizing x with
  | nil =>
    obtain rfl : y = x := by simpa using hy
    exact .refl
  | cons z ys ih =>
    obtain ⟨hlead, hpath⟩ := List.isChain_cons_cons.1 hpath
    rcases List.mem_cons.1 hy with rfl | hy
    · exact .refl
    · exact (ih hpath hy).tail hlead

/-- An arc back to the stack is found. -/
lemma back (h : v.Explored (⟨x, a :: arcs⟩ :: stack) unseen done kept found)
    (ha : a.target ∈ x :: stack.map Frame.vertex) :
    v.Explored (⟨x, arcs⟩ :: stack) unseen done kept (found ++ [a]) where
  vertices := h.vertices
  arcs := by simpa using h.arcs
  source_eq := h.source_eq_next
  forward := h.forward
  path := h.path
  closes := by
    intro b hb
    rcases List.mem_append.1 hb with hb | hb
    · exact h.closes b hb
    · obtain rfl := List.mem_singleton.1 hb
      rw [h.source_eq_top]
      exact leads_top h.path ha

/-- Keeping an arc leaves walks as they are. -/
lemma closes_cons (h : v.Explored stack unseen done kept found) (a : Arc) :
    ∀ b ∈ found, ReflTransGen (Arc.Leads (a :: kept)) b.target b.source := fun b hb =>
  ReflTransGen.mono (fun _ _ => Arc.Leads.mono (List.subset_cons_self a kept)) _ _ (h.closes b hb)

lemma path_cons (h : v.Explored stack unseen done kept found) (a : Arc) :
    (stack.map Frame.vertex).IsChain fun y below => Arc.Leads (a :: kept) below y :=
  h.path.imp fun _ _ => Arc.Leads.mono (List.subset_cons_self a kept)

/-- An arc to a finished vertex is kept. -/
lemma skip (h : v.Explored (⟨x, a :: arcs⟩ :: stack) unseen done kept found)
    (ha : a.target ∈ done) :
    v.Explored (⟨x, arcs⟩ :: stack) unseen done (a :: kept) found where
  vertices := h.vertices
  arcs := by
    refine List.Perm.trans ?_ h.arcs
    simpa using (@List.perm_middle _ a (kept ++ found) _).symm
  source_eq := h.source_eq_next
  forward := by
    intro b hb
    rcases List.mem_cons.1 hb with rfl | hb
    · have hx : x ∈ ((⟨x, arcs⟩ :: stack : List Frame).map Frame.vertex).reverse := by simp
      rw [Arc.Forward, h.source_eq_top]
      exact (List.singleton_sublist.2 hx).append (List.singleton_sublist.2 ha)
    · exact h.forward b hb
  path := h.path_cons a
  closes := h.closes_cons a

/-! ### Entering a vertex -/

section Enter

variable {w : String}

lemma line_sublist_cons (f : Frame) (stack : List Frame) (done : List String) :
    (line stack done).Sublist (line (f :: stack) done) := by
  rw [line_cons]
  exact (List.Sublist.refl _).append (List.sublist_cons_self f.vertex done)

lemma vertices_enter (h : v.Explored stack unseen done kept found) (hw : w ∈ unseen) :
    (line (⟨w, v.outArcs w⟩ :: stack) done ++ unseen.erase w).Perm v.vertices := by
  refine List.Perm.trans ?_ h.vertices
  have hmove : (w :: (done ++ unseen.erase w)).Perm (done ++ unseen) :=
    List.perm_middle.symm.trans ((List.perm_cons_erase hw).symm.append_left done)
  simpa [line] using hmove.append_left (stack.map Frame.vertex).reverse

lemma outArcs_enter (hw : w ∈ unseen) :
    (v.outArcs w ++ (unseen.erase w).flatMap v.outArcs).Perm (unseen.flatMap v.outArcs) := by
  simpa using ((List.perm_cons_erase hw).flatMap_right v.outArcs).symm

lemma source_eq_enter (h : ∀ f ∈ stack, ∀ a ∈ f.arcs, a.source = f.vertex) :
    ∀ f ∈ (⟨w, v.outArcs w⟩ : Frame) :: stack, ∀ a ∈ f.arcs, a.source = f.vertex := by
  intro f hf a ha
  rcases List.mem_cons.1 hf with rfl | hf
  · exact source_of_mem_outArcs ha
  · exact h f hf a ha

/-- A search starts from an unseen vertex. -/
lemma start (h : v.Explored [] unseen done kept found) (hw : w ∈ unseen) :
    v.Explored [⟨w, v.outArcs w⟩] (unseen.erase w) done kept found where
  vertices := h.vertices_enter hw
  arcs := by
    refine List.Perm.trans ?_ h.arcs
    simpa using (outArcs_enter hw).append_left (kept ++ found)
  source_eq := source_eq_enter h.source_eq
  forward := fun a ha => (h.forward a ha).trans (line_sublist_cons _ _ _)
  path := .singleton w
  closes := h.closes

/-- An arc to an unseen vertex is kept, and the search goes on from there. -/
lemma push (h : v.Explored (⟨x, a :: arcs⟩ :: stack) unseen done kept found)
    (ha : a.target ∈ unseen) :
    v.Explored (⟨a.target, v.outArcs a.target⟩ :: ⟨x, arcs⟩ :: stack) (unseen.erase a.target) done
      (a :: kept) found where
  vertices := h.vertices_enter ha
  arcs := by
    refine List.Perm.trans ?_ h.arcs
    have hmove := (List.perm_append_comm_assoc (v.outArcs a.target)
      (arcs ++ stack.flatMap Frame.arcs) ((unseen.erase a.target).flatMap v.outArcs)).trans
        ((outArcs_enter ha).append_left _)
    simpa using List.perm_middle.symm.trans ((hmove.cons a).append_left (kept ++ found))
  source_eq := source_eq_enter h.source_eq_next
  forward := by
    intro b hb
    rcases List.mem_cons.1 hb with rfl | hb
    · rw [Arc.Forward, h.source_eq_top, line_cons, line_cons]
      exact (List.sublist_append_left [x, b.target] done).trans (List.sublist_append_right _ _)
    · exact (h.forward b hb).trans (line_sublist_cons _ _ _)
  path := List.isChain_cons_cons.2
    ⟨⟨a, List.mem_cons_self, h.source_eq_top, rfl⟩, h.path_cons a⟩
  closes := h.closes_cons a

end Enter

/-! ### Runs -/

/-- An arc of the stack leads to a vertex of the stack, to an unseen one or to a finished one. -/
lemma target_mem (hv : v.Sound) (h : v.Explored (⟨x, a :: arcs⟩ :: stack) unseen done kept found)
    (hstack : a.target ∉ x :: stack.map Frame.vertex) (hunseen : a.target ∉ unseen) :
    a.target ∈ done := by
  have ha : a ∈ v.arcs := h.arcs.subset (by simp)
  have hmem := h.vertices.mem_iff.2 (hv a ha).2
  simp only [line, List.map_cons, List.mem_append, List.mem_reverse] at hmem
  exact (hmem.resolve_right hunseen).resolve_left hstack

/-- A search keeps the arcs that it follows or passes over, and finds the others. -/
lemma search (hv : v.Sound) (h : v.Explored stack unseen done kept found) :
    ∃ done' kept' found', v.Explored [] (v.search stack unseen).2 done' kept' found' ∧
      found'.map Arc.key = found.map Arc.key ++ (v.search stack unseen).1 ∧
      (v.search stack unseen).2 ⊆ unseen := by
  induction stack, unseen using View.search.induct v generalizing done kept found with
  | case1 unseen =>
    rw [search_nil]
    exact ⟨done, kept, found, h, by simp, List.Subset.refl _⟩
  | case2 unseen x stack ih =>
    rw [search_pop]
    exact ih h.pop
  | case3 unseen x a arcs stack hback _ _ _ ih =>
    have hback := List.mem_cons.2 hback
    rw [search_back hback]
    obtain ⟨done', kept', found', h', hkeys, hsub⟩ := ih (h.back hback)
    exact ⟨done', kept', found', h', by simpa using hkeys, hsub⟩
  | case4 unseen x a arcs stack hback hunseen ih =>
    rw [search_push (fun hmem => hback (List.mem_cons.1 hmem)) hunseen]
    obtain ⟨done', kept', found', h', hkeys, hsub⟩ := ih (h.push hunseen)
    exact ⟨done', kept', found', h', hkeys, List.Subset.trans hsub List.erase_subset⟩
  | case5 unseen x a arcs stack hback hunseen ih =>
    have hback := fun hmem => hback (List.mem_cons.1 hmem)
    rw [search_skip hback hunseen]
    exact ih (h.skip (h.target_mem hv hback hunseen))

/-- Searching from some vertices leaves none of them unseen. -/
lemma searchFrom (hv : v.Sound) (starts : List String)
    (h : v.Explored [] unseen done kept found) :
    ∃ unseen' done' kept' found', v.Explored [] unseen' done' kept' found' ∧
      found'.map Arc.key = found.map Arc.key ++ v.searchFrom starts unseen ∧
      ∀ y ∈ unseen', y ∈ unseen ∧ y ∉ starts := by
  induction starts generalizing unseen done kept found with
  | nil => exact ⟨unseen, done, kept, found, h, by simp [View.searchFrom], by simp⟩
  | cons x starts ih =>
    unfold View.searchFrom
    split
    · next hx =>
      obtain ⟨done₁, kept₁, found₁, h₁, hkeys₁, hsub⟩ := (h.start hx).search hv
      obtain ⟨unseen', done', kept', found', h', hkeys, hleft⟩ := ih h₁
      refine ⟨unseen', done', kept', found', h', ?_, fun y hy => ?_⟩
      · rw [hkeys, hkeys₁, List.append_assoc]
      · have hunseen : unseen.Nodup := (List.nodup_append.1 h.nodup).2.1
        obtain ⟨hy, hstarts⟩ := hleft y hy
        obtain ⟨hne, hmem⟩ := hunseen.mem_erase_iff.1 (hsub hy)
        exact ⟨hmem, by simp [hne, hstarts]⟩
    · next hx =>
      obtain ⟨unseen', done', kept', found', h', hkeys, hleft⟩ := ih h
      refine ⟨unseen', done', kept', found', h', hkeys, fun y hy => ?_⟩
      obtain ⟨hy, hstarts⟩ := hleft y hy
      have hne : y ≠ x := by
        rintro rfl
        exact hx hy
      exact ⟨hy, by simp [hne, hstarts]⟩

end Explored

/-- The feedback arcs are those that are not kept: the kept ones go forward in a line, and each of
the others closes a circle with kept ones. -/
lemma exists_kept (hv : v.Sound) (hnodes : ∀ x ∈ v.vertices, x ∈ v.graph.nodeIds) :
    ∃ kept found, (kept ++ found).Perm v.arcs ∧ found.map Arc.key = v.feedback ∧
      ¬ Arc.Circle kept ∧ ∀ a ∈ found, ReflTransGen (Arc.Leads kept) a.target a.source := by
  obtain ⟨unseen, done, kept, found, h, hkeys, hleft⟩ :=
    (Explored.initial hv).searchFrom hv (v.roots ++ v.graph.nodeIds)
  -- every vertex is a node, and from every node a search was started
  obtain rfl : unseen = [] := by
    refine List.eq_nil_iff_forall_not_mem.2 fun x hx => ?_
    obtain ⟨hx, hstarts⟩ := hleft x hx
    exact hstarts (List.mem_append_right _ (hnodes x hx))
  refine ⟨kept, found, by simpa using h.arcs, hkeys, ?_, h.closes⟩
  exact Arc.not_circle_of_forward (List.nodup_append.1 h.nodup).1 h.forward

/-! ### Distinct edge ids -/

lemma addTo_eq_append {a : Arc} {arcs : List Arc} (h : a.key ∉ arcs.map Arc.key) :
    a.addTo arcs = arcs ++ [a] := by
  induction arcs with
  | nil => rfl
  | cons b arcs ih =>
    rw [List.map_cons, List.mem_cons, not_or] at h
    have hsame : a.same b = false := by simp [Arc.same, h.1]
    rw [Arc.addTo, hsame, ih h.2]
    rfl

/-- If the ids of the edges are distinct, the arcs are the edges. -/
lemma arcs_ofGraph {g : Graph} (h : (g.edges.map Edge.id).Nodup) :
    (ofGraph g).arcs = g.edges.map Arc.ofEdge := by
  have hfold : ∀ (es : List Edge) (arcs : List Arc),
      (arcs.map Arc.key ++ es.map Edge.id).Nodup →
        es.foldl (fun arcs e => (Arc.ofEdge e).addTo arcs) arcs = arcs ++ es.map Arc.ofEdge := by
    intro es
    induction es with
    | nil => simp
    | cons e es ih =>
      intro arcs hnodup
      have hnew : (Arc.ofEdge e).key ∉ arcs.map Arc.key := by
        intro hmem
        have := List.disjoint_of_nodup_append hnodup hmem
        simp [Arc.ofEdge] at this
      rw [List.foldl_cons, addTo_eq_append hnew, ih]
      · simp
      · simpa [Arc.ofEdge] using hnodup
  exact hfold g.edges [] h

section

variable {g : Graph} {kept found : List Arc} (hids : (g.edges.map Edge.id).Nodup)
  (hperm : (kept ++ found).Perm (g.edges.map Arc.ofEdge))
include hids hperm

lemma nodup_keys : (kept.map Arc.key ++ found.map Arc.key).Nodup := by
  rw [← List.map_append, (hperm.map Arc.key).nodup_iff, List.map_map]
  exact hids

lemma ofEdge_mem_found_iff {e : Edge} (he : e ∈ g.edges) :
    Arc.ofEdge e ∈ found ↔ e.id ∈ found.map Arc.key := by
  refine ⟨fun h => List.mem_map.2 ⟨_, h, rfl⟩, fun h => ?_⟩
  obtain ⟨a, ha, hkey⟩ := List.mem_map.1 h
  obtain ⟨e', he', rfl⟩ := List.mem_map.1 (hperm.subset (List.mem_append_right kept ha))
  rwa [← List.inj_on_of_nodup_map hids he' he hkey]

lemma ofEdge_mem_kept_iff {e : Edge} (he : e ∈ g.edges) :
    Arc.ofEdge e ∈ kept ↔ e.id ∉ found.map Arc.key := by
  constructor
  · intro h hmem
    exact List.disjoint_of_nodup_append (nodup_keys hids hperm) (List.mem_map.2 ⟨_, h, rfl⟩) hmem
  · intro h
    rw [← ofEdge_mem_found_iff hids hperm he] at h
    exact (List.mem_append.1 (hperm.mem_iff.2 (List.mem_map_of_mem he))).resolve_right h

/-- The kept arcs are the edges that are not found. -/
lemma leads_kept : Arc.Leads kept = (g.without (found.map Arc.key)).Leads := by
  ext x y
  constructor
  · rintro ⟨a, ha, rfl, rfl⟩
    obtain ⟨e, he, rfl⟩ := List.mem_map.1 (hperm.subset (List.mem_append_left found ha))
    have hnot := (ofEdge_mem_kept_iff hids hperm he).1 ha
    exact ⟨e, List.mem_filter.2 ⟨he, by simpa using hnot⟩, rfl, rfl⟩
  · rintro ⟨e, he, rfl, rfl⟩
    obtain ⟨he, hnot⟩ := List.mem_filter.1 he
    exact ⟨Arc.ofEdge e, (ofEdge_mem_kept_iff hids hperm he).2 (by simpa using hnot), rfl, rfl⟩

end

/-- Without the feedback edges no circle is left, and each of them has a way back along edges that
stay. -/
lemma feedback_back {g : Graph}
    (hends : ∀ e ∈ g.edges, e.source ∈ g.nodeIds ∧ e.target ∈ g.nodeIds)
    (hids : (g.edges.map Edge.id).Nodup) :
    (ofGraph g).feedback.Nodup ∧ (ofGraph g).feedback ⊆ g.edges.map Edge.id ∧
      ¬ (g.without (ofGraph g).feedback).Circular ∧
      ∀ e ∈ g.edges, e.id ∈ (ofGraph g).feedback →
        ReflTransGen (g.without (ofGraph g).feedback).Leads e.target e.source := by
  have hnodes : ∀ x ∈ (ofGraph g).vertices, x ∈ (ofGraph g).graph.nodeIds := by
    intro x hx
    rcases mem_vertices_ofGraph.1 hx with hx | ⟨e, he, rfl | rfl⟩
    · exact hx
    · exact (hends e he).1
    · exact (hends e he).2
  obtain ⟨kept, found, hperm, hkeys, hcircle, hcloses⟩ := exists_kept (sound_ofGraph g) hnodes
  rw [arcs_ofGraph hids] at hperm
  rw [← hkeys]
  refine ⟨(List.nodup_append.1 (nodup_keys hids hperm)).2.1, ?_, ?_, ?_⟩
  · intro id hid
    obtain ⟨a, ha, rfl⟩ := List.mem_map.1 hid
    obtain ⟨e, he, rfl⟩ := List.mem_map.1 (hperm.subset (List.mem_append_right kept ha))
    exact List.mem_map.2 ⟨e, he, rfl⟩
  · rwa [Graph.Circular, ← leads_kept hids hperm]
  · intro e he hid
    rw [← leads_kept hids hperm]
    exact hcloses _ ((ofEdge_mem_found_iff hids hperm he).2 hid)

/-- The feedback edges are a minimal set of edges without which the chart has no circle: without
them it has none, and every single one of them has a way back along edges that stay.  There are none
exactly if the chart has no circle. -/
theorem feedback_minimal (g : Graph)
    (hends : ∀ e ∈ g.edges, e.source ∈ g.nodeIds ∧ e.target ∈ g.nodeIds)
    (hids : (g.edges.map Edge.id).Nodup) :
    let found := (ofGraph g).feedback
    found.Nodup ∧ found ⊆ g.edges.map Edge.id ∧
      ¬ (g.without found).Circular ∧
      (∀ id ∈ found, (g.without (found.erase id)).Circular) ∧
      (∀ e ∈ g.edges, e.id ∈ found → ReflTransGen (g.without found).Leads e.target e.source) ∧
      (∀ e ∈ g.edges, e.source = e.target → e.id ∈ found) ∧
      (found = [] ↔ ¬ g.Circular) ∧
      ((ofGraph g).hasCycle = false ↔ ¬ g.Circular) := by
  obtain ⟨hnodup, hsub, hnone, hback⟩ := feedback_back hends hids
  refine ⟨hnodup, hsub, hnone, fun id hid => ?_, hback, fun e he hloop => ?_, ⟨?_, ?_⟩, ?_⟩
  · -- with the edge put back, its way back is still there
    obtain ⟨e, he, rfl⟩ := List.mem_map.1 (hsub hid)
    refine Graph.circular_of_back (e := e)
      (Graph.mem_edges_without.2 ⟨he, by simp [hnodup.mem_erase_iff]⟩) ?_
    exact ReflTransGen.mono (Graph.leads_without_mono List.erase_subset) _ _ (hback e he hid)
  · -- a loop that stays would be a circle
    by_contra hid
    exact hnone (Graph.circular_of_back (Graph.mem_edges_without.2 ⟨he, hid⟩) (hloop ▸ .refl))
  · intro hnil
    rwa [hnil, Graph.without_nil] at hnone
  · intro hcircle
    refine List.eq_nil_iff_forall_not_mem.2 fun id hid => hcircle ?_
    obtain ⟨e, he, rfl⟩ := List.mem_map.1 (hsub hid)
    have hmono := Graph.leads_without_mono (g := g) (List.nil_subset (ofGraph g).feedback)
    rw [Graph.without_nil] at hmono
    exact Graph.circular_of_back he (ReflTransGen.mono hmono _ _ (hback e he hid))
  · rw [← hasCycle_ofGraph, Bool.not_eq_true]

theorem feedback_minimal_rootless :
    let g : Graph :=
      { nodes := [⟨"a", .rectangle, "A", none⟩, ⟨"b", .diamond, "B", none⟩,
          ⟨"a", .ellipse, "C", none⟩]
        edges := [⟨"e1", "a", "b", none, none⟩, ⟨"e2", "b", "a", none, none⟩,
          ⟨"e3", "b", "b", none, none⟩, ⟨"e4", "b", "a", none, none⟩] }
    (ofGraph g).feedback = ["e2", "e4", "e3"] ∧ ¬ (g.without ["e2", "e4", "e3"]).Circular ∧
      (g.without ["e2", "e3"]).Circular ∧ (ofGraph g).hasCycle = true := by
  intro g
  have hfound : (ofGraph g).feedback = ["e2", "e4", "e3"] := by cbv
  obtain ⟨-, -, hnone, hback, -, -, hnil, hcycle⟩ := feedback_minimal g (by decide) (by decide)
  rw [hfound] at hnone hback hnil
  refine ⟨hfound, hnone, hback "e4" (by decide), ?_⟩
  rw [← Bool.not_eq_false, hcycle, ← hnil]
  decide

end View
end Flowchart
