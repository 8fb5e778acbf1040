import Flowchart.Proofs.Lists
import Flowchart.View.Basic

/-!
# Circles

Arcs lead in a *circle* if a walk along one arc or more comes back to where it started.  A line of
vertices without repetitions in which every arc goes forward rules circles out
(`not_circle_of_forward`); a nonempty list of vertices each of which is entered from the list gives
one (`circle_of_entered`).

The view of a chart has the walks of the chart (`leads_arcs_ofGraph`).  Its vertices are the nodes
and the ends of its arcs, and going through them finds every arc once (`flatMap_outArcs_perm`).
-/

namespace Flowchart

/-! ### Arcs -/

namespace Arc

/-- One of the arcs leads from a vertex to another. -/
def Leads (arcs : List Arc) (x y : String) : Prop :=
  ∃ a ∈ arcs, a.source = x ∧ a.target = y

/-- Some of the arcs lead in a circle. -/
def Circle (arcs : List Arc) : Prop := ∃ x, Relation.TransGen (Leads arcs) x x

/-- An arc goes forward in a line of vertices. -/
def Forward (line : List String) (a : Arc) : Prop := [a.source, a.target].Sublist line

variable {arcs arcs' : List Arc}

lemma Leads.mono {x y : String} (hsub : arcs ⊆ arcs') (h : Leads arcs x y) : Leads arcs' x y := by
  obtain ⟨a, ha, hends⟩ := h
  exact ⟨a, hsub ha, hends⟩

/-- If all arcs go forward in a line without repetitions, none lead in a circle. -/
lemma not_circle_of_forward {line : List String} (hline : line.Nodup)
    (h : ∀ a ∈ arcs, a.Forward line) : ¬ Circle arcs := by
  have hwalk : ∀ {x y}, Relation.TransGen (Leads arcs) x y → [x, y].Sublist line := by
    intro x y hxy
    induction hxy with
    | single hlead =>
      obtain ⟨a, ha, rfl, rfl⟩ := hlead
      exact h a ha
    | tail _ hlead ih =>
      obtain ⟨a, ha, rfl, rfl⟩ := hlead
      exact pair_sublist_trans hline ih (h a ha)
  rintro ⟨x, hx⟩
  exact List.nodup_iff_sublist.1 hline x (hwalk hx)

/-- If each of some vertices is entered from one of them, arcs lead in a circle. -/
lemma circle_of_entered {xs : List String} (hne : xs ≠ [])
    (h : ∀ y ∈ xs, ∃ x ∈ xs, Leads arcs x y) : Circle arcs := by
  by_contra hnone
  -- without a circle, walks order the finitely many vertices, and one of them comes first
  have hirrefl : ∀ x, ¬ Relation.TransGen (Leads arcs) x x := not_exists.1 hnone
  have : IsStrictOrder String (Relation.TransGen (Leads arcs)) :=
    { irrefl := hirrefl, trans := fun _ _ _ => Relation.TransGen.trans }
  have hwf : Set.WellFoundedOn {x | x ∈ xs} (Relation.TransGen (Leads arcs)) :=
    xs.finite_toSet.wellFoundedOn
  obtain ⟨x₀, hx₀⟩ := List.exists_mem_of_ne_nil xs hne
  refine hwf.induction (P := fun _ => False) hx₀ fun y hy ih => ?_
  obtain ⟨x, hx, hlead⟩ := h y hy
  exact ih x hx (.single hlead)

end Arc

/-! ### Charts -/

namespace Graph

/-- An edge leads from an id to another. -/
def Leads (g : Graph) (x y : String) : Prop := ∃ e ∈ g.edges, e.source = x ∧ e.target = y

/-- A walk along one edge or more comes back to where it started. -/
def Circular (g : Graph) : Prop := ∃ x, Relation.TransGen g.Leads x x

/-- A chart without the edges that have one of the given ids. -/
def without (g : Graph) (ids : List String) : Graph :=
  { g with edges := g.edges.filter fun e => e.id ∉ ids }

variable {g : Graph} {e : Edge} {ids ids' : List String}

lemma mem_edges_without : e ∈ (g.without ids).edges ↔ e ∈ g.edges ∧ e.id ∉ ids := by
  simp [without]

lemma without_nil (g : Graph) : g.without [] = g := by
  simp [without]

/-- Leaving out fewer edges leaves more walks. -/
lemma leads_without_mono (h : ids' ⊆ ids) : (g.without ids).Leads ≤ (g.without ids').Leads := by
  rintro x y ⟨e, he, hends⟩
  rw [mem_edges_without] at he
  exact ⟨e, mem_edges_without.2 ⟨he.1, fun hmem => he.2 (h hmem)⟩, hends⟩

/-- An edge with a way back from its target to its source closes a circle. -/
lemma circular_of_back (he : e ∈ g.edges)
    (hback : Relation.ReflTransGen g.Leads e.target e.source) : g.Circular :=
  ⟨e.source, .head' ⟨e, he, rfl, rfl⟩ hback⟩

end Graph

/-! ### Views -/

namespace View

lemma leads_addTo {a : Arc} {arcs : List Arc} {x y : String} :
    Arc.Leads (a.addTo arcs) x y ↔ Arc.Leads (a :: arcs) x y := by
  induction arcs with
  | nil => rfl
  | cons b arcs ih =>
    unfold Arc.addTo
    split
    · next hsame =>
      -- the arc that is replaced has the same ends
      obtain ⟨⟨hs, ht⟩, -⟩ : (a.source = b.source ∧ a.target = b.target) ∧ a.key = b.key := by
        simpa [Arc.same] using hsame
      simp [Arc.Leads, hs, ht]
    · simp only [Arc.Leads, List.mem_cons, or_and_right, exists_or, exists_eq_left] at ih ⊢
      rw [ih]
      exact or_left_comm

/-- The arcs of a view lead where the edges of the chart lead. -/
lemma leads_arcs_ofGraph (g : Graph) (x y : String) :
    Arc.Leads (ofGraph g).arcs x y ↔ g.Leads x y := by
  have hfold : ∀ (es : List Edge) (arcs : List Arc),
      Arc.Leads (es.foldl (fun arcs e => (Arc.ofEdge e).addTo arcs) arcs) x y ↔
        (∃ e ∈ es, e.source = x ∧ e.target = y) ∨ Arc.Leads arcs x y := by
    intro es
    induction es with
    | nil => simp
    | cons e es ih =>
      intro arcs
      rw [List.foldl_cons, ih, leads_addTo]
      simp only [Arc.Leads, List.mem_cons, or_and_right, exists_or, exists_eq_left]
      rw [or_left_comm, or_assoc]
      rfl
  have := hfold g.edges []
  simpa [ofGraph, Arc.Leads, Graph.Leads] using this

lemma circle_arcs_ofGraph (g : Graph) : Arc.Circle (ofGraph g).arcs ↔ g.Circular := by
  have : Arc.Leads (ofGraph g).arcs = g.Leads := by
    ext x y
    exact leads_arcs_ofGraph g x y
  rw [Arc.Circle, this, Graph.Circular]

/-- All arcs run between vertices. -/
def Sound (v : View) : Prop := ∀ a ∈ v.arcs, a.source ∈ v.vertices ∧ a.target ∈ v.vertices

lemma mem_vertices_ofGraph {g : Graph} {x : String} :
    x ∈ (ofGraph g).vertices ↔ x ∈ g.nodeIds ∨ ∃ e ∈ g.edges, x = e.source ∨ x = e.target := by
  simp [vertices, ofGraph]

lemma sound_ofGraph (g : Graph) : (ofGraph g).Sound := by
  intro a ha
  obtain ⟨e, he, hs, ht⟩ := (leads_arcs_ofGraph g _ _).1 ⟨a, ha, rfl, rfl⟩
  rw [mem_vertices_ofGraph, mem_vertices_ofGraph]
  exact ⟨.inr ⟨e, he, .inl hs.symm⟩, .inr ⟨e, he, .inr ht.symm⟩⟩

variable {v : View}

lemma nodup_vertices (v : View) : v.vertices.Nodup := nodup_eraseDups _

/-- The arcs out of a vertex, grouped or not, are the same. -/
lemma outArcs_perm (v : View) (x : String) : (v.outArcs x).Perm (v.arcsFrom x) :=
  flatMap_filter_perm (nodup_eraseDups _) fun _ ha => List.mem_eraseDups.2 (List.mem_map_of_mem ha)

lemma source_of_mem_outArcs {x : String} {a : Arc} (h : a ∈ v.outArcs x) : a.source = x := by
  have := (v.outArcs_perm x).mem_iff.1 h
  simpa using (List.mem_filter.1 this).2

/-- Going through the vertices finds every arc once. -/
lemma flatMap_outArcs_perm (h : v.Sound) : (v.vertices.flatMap v.outArcs).Perm v.arcs :=
  (List.Perm.flatMap_left _ fun x _ => v.outArcs_perm x).trans
    (flatMap_filter_perm v.nodup_vertices fun a ha => (h a ha).1)

end View
end Flowchart
