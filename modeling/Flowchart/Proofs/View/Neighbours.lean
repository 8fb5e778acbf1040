import Flowchart.Proofs.View.Answers
import Flowchart.View.Adjacency

/-!
# Neighbours

What a view says about the neighbours of a vertex can be read off the list of edges, whatever is
repeated or unlisted there: the neighbours are the other ends of the edges, each at its first
occurrence, and a node is a root or a leaf if no edge of the list enters or leaves it
(`Graph.ToldByEdges`).  This holds of both ways to keep connections (`Graph.neighbours_of_edges`).

* A view has one list of arcs, where an edge that repeats the ends and the id of another one replaces
  it in its place.  An arc and an edge of the same identity have the same ends.  So the arcs of a
  vertex are, by their identities, its edges without their repetitions (`map_identity_arcs`), and
  leaving out repetitions of edges makes no difference to the first occurrences of their ends
  (`eraseDups_map_eraseDups`).
* A multigraph has a row for each vertex.  Edge by edge, the keys of the row are the first
  occurrences of the far ends, and no neighbour is without an arc (`row_foldl_addArc`), so that the
  degree of a vertex is zero only if its row is empty.
-/

namespace Flowchart

/-! ### Tables -/

namespace Dict

variable {κ α : Type} [DecidableEq κ]

lemma keys_update (d : Dict κ α) (k : κ) (f : Option α → α) :
    (d.update k f).keys = if k ∈ d.keys then d.keys else d.keys ++ [k] :=
  map_fst_updateEntries k f d.entries

lemma get?_update (d : Dict κ α) (k : κ) (f : Option α → α) (k' : κ) :
    (d.update k f).get? k' = if k' = k then some (f (d.get? k)) else d.get? k' := by
  simp only [get?, update]
  induction d.entries with
  | nil => by_cases hk : k' = k <;> simp [updateEntries, hk, Ne.symm]
  | cons e es ih =>
    obtain ⟨l, a⟩ := e
    by_cases hl : l = k
    · subst hl
      by_cases hk : k' = l <;> simp [updateEntries, hk, Ne.symm]
    · by_cases hk : l = k'
      · subst hk
        simp [updateEntries, hl]
      · simp [updateEntries, hl, hk, ih]

lemma mem_updateEntries {k : κ} {f : Option α → α} {es : List (κ × α)} {e : κ × α}
    (he : e ∈ updateEntries k f es) : e ∈ es ∨ ∃ a?, e.2 = f a? := by
  induction es with
  | nil =>
    obtain rfl := List.mem_singleton.1 he
    exact .inr ⟨none, rfl⟩
  | cons e' es ih =>
    rw [updateEntries] at he
    split at he
    · rcases List.mem_cons.1 he with rfl | he
      · exact .inr ⟨some e'.2, rfl⟩
      · exact .inl (List.mem_cons_of_mem _ he)
    · rcases List.mem_cons.1 he with rfl | he
      · exact .inl List.mem_cons_self
      · exact (ih he).imp_left (List.mem_cons_of_mem _)

end Dict

namespace Row

/-- No neighbour is without an arc. -/
def Full (r : Row) : Prop := ∀ entry ∈ r.entries, entry.2.keys ≠ []

lemma full_empty : Row.Full .empty := fun _ h => by cases h

lemma Full.addArc {r : Row} (h : r.Full) (y : String) (e : Edge) : (r.addArc y e).Full := by
  intro entry hentry
  rcases Dict.mem_updateEntries hentry with hold | ⟨arcs?, hnew⟩
  · exact h entry hold
  · rw [hnew, Dict.keys_update]
    split
    · next hmem => exact List.ne_nil_of_mem hmem
    · simp

lemma Full.degree_eq_zero_iff {r : Row} (h : r.Full) : r.degree = 0 ↔ r.keys = [] := by
  rw [degree, List.length_eq_zero_iff, List.flatMap_eq_nil_iff, Dict.keys, List.map_eq_nil_iff,
    List.eq_nil_iff_forall_not_mem]
  exact ⟨fun hnil entry hentry => h entry hentry (hnil entry hentry),
    fun hnone entry hentry => absurd hentry (hnone entry)⟩

end Row

namespace Table

lemma row_addVertex (t : Table) (x y : String) : (t.addVertex x).row y = t.row y := by
  rw [row, row, addVertex, Dict.get?_update]
  split
  · next hy => rw [hy]; rfl
  · rfl

lemma row_foldl_addVertex (t : Table) (ids : List String) (x : String) :
    (ids.foldl addVertex t).row x = t.row x := by
  induction ids generalizing t with
  | nil => rfl
  | cons y ids ih => rw [List.foldl_cons, ih, row_addVertex]

variable {near far : Edge → String}

lemma row_addArc (t : Table) (e : Edge) (x : String) :
    (t.addArc near far e).row x = if near e = x then (t.row x).addArc (far e) e else t.row x := by
  have hends (y : String) : ((t.addVertex e.source).addVertex e.target).row y = t.row y := by
    rw [row_addVertex, row_addVertex]
  rw [row, addArc, Dict.get?_update]
  by_cases hx : x = near e
  · rw [if_pos hx, if_pos hx.symm, hx, ← hends]
    rfl
  · rw [if_neg hx, if_neg (Ne.symm hx), ← hends]
    rfl

/-- Edge by edge, the row of a vertex gets the far ends of its edges. -/
lemma row_foldl_addArc {t : Table} {x : String} (ht : t.row x = .empty) (es : List Edge) :
    ((es.foldl (addArc near far) t).row x).keys
        = ((es.filter fun e => near e = x).map far).eraseDups ∧
      ((es.foldl (addArc near far) t).row x).Full := by
  induction es using List.reverseRecOn with
  | nil =>
    rw [List.foldl_nil, ht]
    exact ⟨rfl, Row.full_empty⟩
  | append_singleton es e ih =>
    obtain ⟨hkeys, hfull⟩ := ih
    rw [List.foldl_concat, row_addArc, List.filter_append, List.filter_singleton, List.map_append]
    by_cases hx : near e = x
    · rw [if_pos hx]
      refine ⟨?_, hfull.addArc _ _⟩
      rw [Row.addArc, Dict.keys_update, hkeys, decide_eq_true hx, cond_true, List.map_singleton,
        eraseDups_concat]
      simp only [List.mem_eraseDups]
    · rw [if_neg hx]
      simpa [hx] using ⟨hkeys, hfull⟩

lemma row_ofGraph (g : Graph) (x : String) :
    ((ofGraph near far g).row x).keys = ((g.edges.filter fun e => near e = x).map far).eraseDups ∧
      decide (((ofGraph near far g).row x).degree = 0)
        = (g.edges.filter fun e => near e = x).isEmpty := by
  have hempty : (g.nodeIds.foldl addVertex .empty).row x = .empty := by
    rw [row_foldl_addVertex]
    rfl
  obtain ⟨hkeys, hfull⟩ :
      ((ofGraph near far g).row x).keys
          = ((g.edges.filter fun e => near e = x).map far).eraseDups ∧
        ((ofGraph near far g).row x).Full := row_foldl_addArc hempty g.edges
  refine ⟨hkeys, ?_⟩
  rw [Bool.eq_iff_iff, decide_eq_true_iff, hfull.degree_eq_zero_iff, hkeys, eraseDups_eq_nil_iff,
    List.map_eq_nil_iff, List.isEmpty_iff]

end Table

/-! ### Edges -/

/-- Neighbours, roots and leaves are what the list of edges says: the successors of a vertex are the
targets of the edges from it and its predecessors the sources of the edges to it, each at its first
occurrence; so one vertex is a successor of another exactly if this is a predecessor of the first.
The roots are the nodes to which no edge leads, and the leaves those from which none does. -/
structure Graph.ToldByEdges (g : Graph) (successors predecessors : String → List String)
    (roots leaves : List String) : Prop where
  successors_eq : ∀ x, successors x = ((g.edgesFrom x).map Edge.target).eraseDups
  predecessors_eq : ∀ x, predecessors x = ((g.edgesTo x).map Edge.source).eraseDups
  mem_successors_iff : ∀ x y, y ∈ successors x ↔ x ∈ predecessors y
  roots_eq : roots = g.nodeIds.filter fun x => (g.edgesTo x).isEmpty
  leaves_eq : leaves = g.nodeIds.filter fun x => (g.edgesFrom x).isEmpty

/-- An edge between two vertices is from the one and to the other. -/
lemma Graph.ToldByEdges.of_eq {g : Graph} {successors predecessors : String → List String}
    {roots leaves : List String}
    (hsucc : ∀ x, successors x = ((g.edgesFrom x).map Edge.target).eraseDups)
    (hpred : ∀ x, predecessors x = ((g.edgesTo x).map Edge.source).eraseDups)
    (hroots : roots = g.nodeIds.filter fun x => (g.edgesTo x).isEmpty)
    (hleaves : leaves = g.nodeIds.filter fun x => (g.edgesFrom x).isEmpty) :
    g.ToldByEdges successors predecessors roots leaves := by
  refine ⟨hsucc, hpred, fun x y => ?_, hroots, hleaves⟩
  rw [hsucc, hpred, List.mem_eraseDups, List.mem_eraseDups]
  simp only [Graph.edgesFrom, Graph.edgesTo, List.mem_map, List.mem_filter, decide_eq_true_eq]
  constructor
  · rintro ⟨e, ⟨he, hsource⟩, htarget⟩
    exact ⟨e, ⟨he, htarget⟩, hsource⟩
  · rintro ⟨e, ⟨he, htarget⟩, hsource⟩
    exact ⟨e, ⟨he, hsource⟩, htarget⟩

lemma Adjacency.toldByEdges (g : Graph) :
    g.ToldByEdges (ofGraph g).successors (ofGraph g).predecessors ((ofGraph g).roots g)
      ((ofGraph g).leaves g) :=
  .of_eq (fun x => (Table.row_ofGraph g x).1) (fun x => (Table.row_ofGraph g x).1)
    (List.filter_congr fun x _ => (Table.row_ofGraph g x).2)
    (List.filter_congr fun x _ => (Table.row_ofGraph g x).2)

namespace View

/-! ### Arcs -/

variable (near far : String × String × String → String)

/-- The far ends of the arcs at a vertex are those of the edges.  Which end is near and which is far
is told by the identity. -/
lemma eraseDups_map_far (g : Graph) (x : String) :
    (((ofGraph g).arcs.filter fun a => near a.identity = x).map fun a => far a.identity).eraseDups
      = ((g.edges.filter fun e => near e.identity = x).map fun e => far e.identity).eraseDups := by
  have h : ((((ofGraph g).arcs.map Arc.identity).filter fun i => near i = x).map far).eraseDups
      = (((g.edges.map Edge.identity).filter fun i => near i = x).map far).eraseDups := by
    rw [map_identity_arcs, ← eraseDups_filter, eraseDups_map_eraseDups]
  rw [List.filter_map, List.filter_map, List.map_map, List.map_map] at h
  exact h

/-- A vertex without edges in a direction has no arcs in it, and the other way round. -/
lemma isEmpty_arcs (g : Graph) (x : String) :
    ((ofGraph g).arcs.filter fun a => near a.identity = x).isEmpty
      = (g.edges.filter fun e => near e.identity = x).isEmpty := by
  -- without arcs there are no ends of arcs
  have hnil := congrArg (· = []) (eraseDups_map_far near near g x)
  simp only [eraseDups_eq_nil_iff, List.map_eq_nil_iff] at hnil
  rw [Bool.eq_iff_iff, List.isEmpty_iff, List.isEmpty_iff, hnil]

lemma toldByEdges (g : Graph) :
    g.ToldByEdges (ofGraph g).successors (ofGraph g).predecessors (ofGraph g).roots
      (ofGraph g).leaves :=
  .of_eq (eraseDups_map_far (·.1) (·.2.1) g) (eraseDups_map_far (·.2.1) (·.1) g)
    (List.filter_congr fun x _ => isEmpty_arcs (·.2.1) g x)
    (List.filter_congr fun x _ => isEmpty_arcs (·.1) g x)

end View

/-- Neighbours, roots and leaves are what the list of edges says, for a multigraph that keeps its arcs
by their ends and for a view that keeps them in one list. -/
theorem Graph.neighbours_of_edges (g : Graph) :
    g.ToldByEdges (Adjacency.ofGraph g).successors (Adjacency.ofGraph g).predecessors
        ((Adjacency.ofGraph g).roots g) ((Adjacency.ofGraph g).leaves g) ∧
      g.ToldByEdges (View.ofGraph g).successors (View.ofGraph g).predecessors
        (View.ofGraph g).roots (View.ofGraph g).leaves :=
  ⟨Adjacency.toldByEdges g, View.toldByEdges g⟩

example :
    let g : Graph :=
      ⟨[⟨"a", .rectangle, "", none⟩, ⟨"b", .rectangle, "", none⟩, ⟨"a", .rectangle, "", none⟩],
        [⟨"1", "a", "c", none, none⟩, ⟨"2", "a", "b", none, none⟩, ⟨"1", "a", "c", some "x", none⟩,
          ⟨"1", "b", "b", none, none⟩], {}⟩
    (Adjacency.ofGraph g).successors "a" = ["c", "b"] ∧
      (Adjacency.ofGraph g).predecessors "b" = ["a", "b"] ∧
      (Adjacency.ofGraph g).roots g = ["a", "a"] ∧ (Adjacency.ofGraph g).leaves g = [] := by
  decide +kernel

end Flowchart
