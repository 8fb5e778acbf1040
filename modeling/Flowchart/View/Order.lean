import Flowchart.Chart.Written
import Flowchart.View.Feedback

/-!
# Cycles, order and length

Three questions are answered in the same way: take away a vertex that no arc enters, with its arcs,
as long as there is one.

* If vertices are left over at the end, there is a cycle (`hasCycle`).
* The order in which they are taken is a topological order; taking the earliest node each time gives
  the least one (`topologicalOrder`).
* A vertex that is taken knows the length of the longest path to it (`longestPath`).

Each vertex that waits carries the number of arcs that still block it, so a step only looks at the
arcs out of the vertex that was taken.
-/

namespace Flowchart
namespace View

/-- A vertex that waits to be taken. -/
structure Waiting where
  vertex : String
  /-- Its place among the nodes, if it is one. -/
  place : Option Nat
  /-- The number of arcs into it from vertices that wait. -/
  blocked : Nat
  /-- The most arcs on a path to it whose other vertices have been taken. -/
  depth : Nat := 0
deriving DecidableEq, Repr

/-- Whether a vertex can be taken. -/
def Waiting.isReady (w : Waiting) : Bool := w.blocked = 0

/-- The place of a node: that of the last node with the id. -/
def place? (v : View) (x : String) : Option Nat :=
  (v.graph.nodeIds.zipIdx.reverse.find? fun p => p.1 = x).map Prod.snd

/-- All vertices wait at first, blocked by the given arcs. -/
def waiting (v : View) (arcs : List Arc) : List Waiting :=
  v.vertices.map fun x => ⟨x, v.place? x, arcs.countP fun a => a.target = x, 0⟩

/-- What the others wait for after `w` has been taken. -/
def Waiting.release (arcs : List Arc) (w : Waiting) (ws : List Waiting) : List Waiting :=
  let out := (arcs.filter fun a => a.source = w.vertex).map Arc.target
  ws.map fun u =>
    if u.vertex ∈ out then
      { u with blocked := u.blocked - out.count u.vertex, depth := max u.depth (w.depth + 1) }
    else u

@[simp] theorem Waiting.length_release (arcs : List Arc) (w : Waiting) (ws : List Waiting) :
    (w.release arcs ws).length = ws.length := by
  simp [Waiting.release]

/-! ### Taking vertices -/

/-- Take ready vertices, always the first one, as long as there are any: those that were taken and
those that are left. -/
def takeReady (arcs : List Arc) (ws : List Waiting) : List Waiting × List Waiting :=
  match _h : ws.find? Waiting.isReady with
  | none => ([], ws)
  | some w =>
    let (taken, left) := takeReady arcs (w.release arcs (ws.erase w))
    (w :: taken, left)
termination_by ws.length
decreasing_by
  have hw := List.mem_of_find?_eq_some _h
  have hpos := List.length_pos_of_mem hw
  simp only [Waiting.length_release, List.length_erase_of_mem hw]
  omega

/-- Whether some arcs lead in a circle. -/
def hasCycle (v : View) : Bool :=
  !(takeReady v.arcs (v.waiting v.arcs)).2.isEmpty

/-- There is a cycle where there should be none. -/
structure Cyclic where
deriving DecidableEq, Repr

/-- What is reported for a cycle. -/
def Cyclic.message (_ : Cyclic) : String :=
  "Graph contains a cycle or graph changed during iteration"

/-- The most arcs on a path, leaving out every arc that has the id of a feedback edge.  A chart
without nodes has no path. -/
def longestPath (v : View) : Except Cyclic Nat :=
  if v.graph.nodes.isEmpty then .ok 0
  else
    let feedback := v.feedback
    let arcs := v.arcs.filter fun a => a.key ∉ feedback
    match takeReady arcs (v.waiting arcs) with
    | (taken, []) => .ok (taken.foldl (fun n w => max n w.depth) 0)
    | _ => .error {}

/-! ### The least order -/

/-- The ready vertex with the least place. -/
def Waiting.least? : List Waiting → Option Waiting
  | [] => none
  | w :: ws =>
    if w.isReady then
      match least? ws with
      | none => some w
      | some u => if u.place.getD 0 < w.place.getD 0 then some u else some w
    else least? ws

/-- The first ready vertex that is not a node, among vertices in a given order. -/
def Waiting.stray? (ws : List Waiting) (order : List String) : Option String :=
  order.find? fun x => ws.any fun w => w.vertex = x && w.isReady && w.place.isNone

theorem Waiting.mem_of_least? {ws : List Waiting} {w : Waiting} (h : Waiting.least? ws = some w) :
    w ∈ ws := by
  induction ws with
  | nil => simp [Waiting.least?] at h
  | cons x ws ih =>
    unfold Waiting.least? at h
    split at h
    · split at h
      · simp_all
      · -- the tail has a least ready vertex, and it or the head is taken
        next u hu =>
        split at h
        · exact List.mem_cons_of_mem _ (ih (hu.trans h))
        · simp_all
    · exact List.mem_cons_of_mem _ (ih h)

/-- Take the earliest ready node as long as there is one.  There is no order if vertices are left
over, and an id that is not a node is an error as soon as nothing blocks it. -/
def takeLeast (v : View) (ws : List Waiting) : Except UnknownNode (Option (List String)) :=
  match _h : Waiting.least? ws with
  | none => .ok (if ws.isEmpty then some [] else none)
  | some w =>
    let rest := w.release v.arcs (ws.erase w)
    match Waiting.stray? rest (v.successors w.vertex) with
    | some x => .error ⟨x⟩
    | none => (takeLeast v rest).map (Option.map (w.vertex :: ·))
termination_by ws.length
decreasing_by
  have hw := Waiting.mem_of_least? _h
  have hpos := List.length_pos_of_mem hw
  simp only [Waiting.length_release, List.length_erase_of_mem hw]
  omega

/-- The ids of the nodes so that every edge goes forward, the earliest nodes as early as possible; in
node order if there is a cycle. -/
def topologicalOrder (v : View) : Except UnknownNode (List String) :=
  let ws := v.waiting v.arcs
  match Waiting.stray? ws v.vertices with
  | some x => .error ⟨x⟩
  | none => (v.takeLeast ws).map fun order => order.getD v.graph.nodeIds

end View
end Flowchart
