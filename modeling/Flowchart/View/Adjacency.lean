import Flowchart.View.Basic

/-!
# Adjacency

A directed multigraph keeps the connections of a chart vertex by vertex.  It has two tables, one for
each direction, with a row for every vertex: the neighbours of the vertex, and for each neighbour
the arcs in between by their ids.

Tables, rows and the arcs in between are dictionaries, which are in the order in which their keys
came in.  To enter a key again changes its value and not its place.  So neighbours come in the order
of their first edge, an edge that repeats the ends and the id of another one replaces its label, and
a vertex that is not in the node list comes in with the first edge that mentions it.
-/

namespace Flowchart

/-! ### Dictionaries -/

/-- Entries with different keys, in the order in which the keys came in. -/
structure Dict (κ α : Type) where
  entries : List (κ × α)
  nodup : (entries.map Prod.fst).Nodup

namespace Dict

variable {κ α : Type}

/-- The dictionary without entries. -/
def empty : Dict κ α := ⟨[], .nil⟩

/-- The keys, in the order in which they came in. -/
def keys (d : Dict κ α) : List κ := d.entries.map Prod.fst

variable [DecidableEq κ]

/-- The value of a key. -/
def get? (d : Dict κ α) (k : κ) : Option α := (d.entries.find? fun e => e.1 = k).map Prod.snd

/-- Change the value of a key in its place, or enter the key behind all others. -/
def updateEntries (k : κ) (f : Option α → α) : List (κ × α) → List (κ × α)
  | [] => [(k, f none)]
  | (k', a) :: es => if k' = k then (k, f (some a)) :: es else (k', a) :: updateEntries k f es

theorem map_fst_updateEntries (k : κ) (f : Option α → α) (es : List (κ × α)) :
    (updateEntries k f es).map Prod.fst
      = if k ∈ es.map Prod.fst then es.map Prod.fst else es.map Prod.fst ++ [k] := by
  induction es with
  | nil => simp [updateEntries]
  | cons e es ih =>
    obtain ⟨k', a⟩ := e
    rw [updateEntries]
    by_cases hk : k' = k
    · simp [hk]
    · rw [if_neg hk, List.map_cons, ih]
      by_cases hmem : k ∈ es.map Prod.fst
      · simp [hmem]
      · simp [hmem, Ne.symm hk]

/-- Change or enter the value of a key, by means of the value that it has if it has one. -/
def update (d : Dict κ α) (k : κ) (f : Option α → α) : Dict κ α where
  entries := updateEntries k f d.entries
  nodup := by
    rw [map_fst_updateEntries]
    split
    · exact d.nodup
    · next hk =>
      have hnew : ∀ k' ∈ d.entries.map Prod.fst, ∀ k'' ∈ [k], k' ≠ k'' := by
        rintro k' hk' k'' hk'' rfl
        exact hk (List.mem_singleton.1 hk'' ▸ hk')
      exact List.nodup_append.2 ⟨d.nodup, by simp, hnew⟩

end Dict

/-! ### Tables -/

/-- The neighbours of a vertex, and for each of them the labels of the arcs in between by the ids of
the edges. -/
abbrev Row := Dict String (Dict String (Option String))

/-- Enter the arc of an edge to or from a neighbour, or replace its label. -/
def Row.addArc (r : Row) (y : String) (e : Edge) : Row :=
  r.update y fun arcs? => (arcs?.getD .empty).update e.id fun _ => e.label

/-- How many arcs there are in a row. -/
def Row.degree (r : Row) : Nat := (r.entries.flatMap fun entry => entry.2.keys).length

/-- The rows of all vertices. -/
abbrev Table := Dict String Row

namespace Table

/-- The row of a vertex, which is empty if there is no such vertex. -/
def row (t : Table) (x : String) : Row := (t.get? x).getD .empty

/-- Enter a vertex, unless it is there. -/
def addVertex (t : Table) (x : String) : Table := t.update x fun r? => r?.getD .empty

/-- Enter the arc of an edge between a vertex and a neighbour, and before it the ends of the edge. -/
def addArc (near far : Edge → String) (t : Table) (e : Edge) : Table :=
  ((t.addVertex e.source).addVertex e.target).update (near e) fun r? =>
    (r?.getD .empty).addArc (far e) e

/-- The table of a chart in one direction. -/
def ofGraph (near far : Edge → String) (g : Graph) : Table :=
  g.edges.foldl (addArc near far) (g.nodeIds.foldl addVertex .empty)

end Table

/-! ### Multigraphs -/

/-- A directed multigraph. -/
structure Adjacency where
  /-- For each vertex those it points to. -/
  succ : Table
  /-- For each vertex those that point to it. -/
  pred : Table

namespace Adjacency

/-- The multigraph of a chart. -/
def ofGraph (g : Graph) : Adjacency :=
  ⟨.ofGraph Edge.source Edge.target g, .ofGraph Edge.target Edge.source g⟩

/-- The vertices that a vertex points to. -/
def successors (a : Adjacency) (x : String) : List String := (a.succ.row x).keys

/-- The vertices that point to a vertex. -/
def predecessors (a : Adjacency) (x : String) : List String := (a.pred.row x).keys

/-- The ids of the nodes that no arc enters, in node order. -/
def roots (a : Adjacency) (g : Graph) : List String :=
  g.nodeIds.filter fun x => (a.pred.row x).degree = 0

/-- The ids of the nodes that no arc leaves, in node order. -/
def leaves (a : Adjacency) (g : Graph) : List String :=
  g.nodeIds.filter fun x => (a.succ.row x).degree = 0

end Adjacency
end Flowchart
