import Flowchart.Proofs.Build.Directives
import Flowchart.Proofs.Build.Series
import Flowchart.Proofs.View.Answers
import Flowchart.Proofs.View.Renamed

/-!
# Charts with other ids

A text that is read twice, with ids from two supplies that do not repeat themselves, gives the same
chart but for the ids: what was drawn first from the one supply stands where the first one of the
other stands, and so on.  Hence everything that is said about the two charts is the same up to this
renaming (`exists_renaming_parse`).

`IdSupply.Renamed` says that the next names of one supply are those of another, renamed, and
`State.Renamed` that two passes have come equally far.  A token leads from such a pair of states to
another one (`State.Renamed.step`), and so does a pass (`State.Renamed.run`).  Whether a token finds
its node is a matter of keys, so both passes draw at the same tokens.
-/

namespace Flowchart

/-! ### Supplies -/

/-- The next `n` names of a supply are those of another, renamed. -/
structure IdSupply.Renamed (r : String → String) (n : Nat) (ids ids' : IdSupply) : Prop where
  lasts : ids.Lasts n
  lasts_other : ids'.Lasts n
  ahead : ids'.ahead n = (ids.ahead n).map r

section Draw

variable {r : String → String} {n : Nat} {ids ids' : IdSupply}

lemma IdSupply.Renamed.name (h : Renamed r (n + 1) ids ids') :
    ids'.name ids'.drawn = r (ids.name ids.drawn) := by
  have hahead := h.ahead
  rw [ahead_succ, ahead_succ, List.map_cons] at hahead
  exact (List.cons.inj hahead).1

lemma IdSupply.Renamed.next (h : Renamed r (n + 1) ids ids') : Renamed r n ids.next ids'.next := by
  have hahead := h.ahead
  rw [ahead_succ, ahead_succ, List.map_cons] at hahead
  exact ⟨h.lasts.next, h.lasts_other.next, (List.cons.inj hahead).2⟩

end Draw

namespace Build

/-! ### Two passes -/

/-- Two states that have come equally far: the second has the nodes and edges of the first under
other ids. -/
structure State.Renamed (r : String → String) (s s' : State) : Prop where
  nodes : s'.nodes = s.nodes.map (Node.refer r)
  edges : s'.edges = s.edges.map (Edge.rename r)
  options : s'.options = s.options
  chain : s'.chain = { s.chain with last := s.chain.last.map (Node.refer r) }

namespace State.Renamed

variable {r : String → String} {s s' : State} {n : Node} {shape : Shape} {text : String}
  {ts : List Token} {k : Nat}

lemma graph (h : s.Renamed r s') : s'.graph = s.graph.rename r := by
  rw [State.graph, h.nodes, h.edges, h.options]
  rfl

lemma keys (h : s.Renamed r s') : s'.keys = s.keys := by
  rw [State.keys, State.keys, h.nodes, List.map_map]
  rfl

lemma node? (h : s.Renamed r s') (key : Node.Key) :
    s'.node? key = (s.node? key).map (Node.refer r) := by
  rw [State.node?, h.nodes]
  exact find?_map_of (fun _ => rfl) s.nodes

lemma last (h : s.Renamed r s') : s'.chain.last = s.chain.last.map (Node.refer r) := by
  rw [h.chain]

/-- Both tokens find a node, or both make one. -/
lemma ensureNode (h : s.Renamed r s') (hids : IdSupply.Renamed r
      ((newKeys s.keys (.node shape text :: ts)).length + k) s.ids s'.ids) :
    ∃ n s₁ s₁' a a', s.ensureNode (shape, text) = .ok (n, s₁, a) ∧
      s'.ensureNode (shape, text) = .ok (n.refer r, s₁', a') ∧ s₁.Renamed r s₁' ∧
      n.key = (shape, text) ∧ s₁.chain = s.chain ∧
      IdSupply.Renamed r ((newKeys s₁.keys ts).length + k) s₁.ids s₁'.ids := by
  by_cases hmem : (shape, text) ∈ s.keys
  · rw [newKeys_of_mem hmem] at hids
    obtain ⟨n, hn⟩ : ∃ n, s.node? (shape, text) = some n := by
      rw [← Option.ne_none_iff_exists', Ne, node?_eq_none_iff, not_not]
      exact hmem
    have hn' : s'.node? (shape, text) = some (n.refer r) := by
      rw [h.node?, hn]
      rfl
    exact ⟨n, s, s', _, _, ensureNode_eq_ok_iff.2 (.inl ⟨hn, rfl, rfl⟩),
      ensureNode_eq_ok_iff.2 (.inl ⟨hn', rfl, rfl⟩), h, (node?_eq_some hn).2, rfl, hids⟩
  · rw [newKeys_of_not_mem hmem, List.length_cons, Nat.add_right_comm] at hids
    have hmem' : (shape, text) ∉ s'.keys := by rwa [h.keys]
    have hnode : (s.newNode (shape, text)).refer r = s'.newNode (shape, text) := by
      rw [newNode, newNode, hids.name]
      rfl
    refine ⟨s.newNode (shape, text), s.addNode (shape, text), s'.addNode (shape, text), _, _,
      ensureNode_eq_ok_iff.2 (.inr ⟨hmem, hids.lasts.offers, rfl, rfl, rfl⟩),
      ensureNode_eq_ok_iff.2 (.inr ⟨hmem', hids.lasts_other.offers, hnode, rfl, rfl⟩),
      ⟨?_, h.edges, h.options, h.chain⟩, rfl, rfl, ?_⟩
    · rw [State.addNode, h.nodes, ← hnode]
      simp [State.addNode]
    · rw [keys_addNode]
      exact hids.next

/-- Both nodes are connected, or none is. -/
lemma connect (h : s.Renamed r s') (hn : n.key = (shape, text)) (hids : IdSupply.Renamed r
      (k + (s.linksLeft (.node shape text :: ts)).length) s.ids s'.ids) :
    ∃ s₁ s₁' as as', s.connect n = .ok (s₁, as) ∧ s'.connect (n.refer r) = .ok (s₁', as') ∧
      (s₁.goOnFrom n).Renamed r (s₁'.goOnFrom (n.refer r)) ∧ s₁.keys = s.keys ∧
      IdSupply.Renamed r (k + ((s₁.goOnFrom n).linksLeft ts).length) (s₁.goOnFrom n).ids
        (s₁'.goOnFrom (n.refer r)).ids := by
  have hlast' := h.last
  cases hlast : s.chain.last with
  | none =>
    rw [hlast] at hlast'
    refine ⟨s, s', [], [], connect_eq_ok_iff.2 (.inl ⟨hlast, rfl, rfl⟩),
      connect_eq_ok_iff.2 (.inl ⟨hlast', rfl, rfl⟩), ⟨h.nodes, h.edges, h.options, ?_⟩, rfl, ?_⟩
    · simp [goOnFrom, h.chain]
    · simpa [linksLeft, goOnFrom, hn, hlast, linksFrom] using hids
  | some m =>
    rw [hlast] at hlast'
    simp only [linksLeft, hlast, Option.map_some, linksFrom, List.length_cons,
      ← Nat.add_assoc] at hids
    have hedge : s'.newEdge (m.refer r) (n.refer r) = (s.newEdge m n).rename r := by
      rw [newEdge, newEdge, hids.name, h.chain]
      rfl
    refine ⟨s.addEdge m n, s'.addEdge (m.refer r) (n.refer r), _, _,
      connect_eq_ok_iff.2 (.inr ⟨m, hlast, hids.lasts.offers, rfl, rfl⟩),
      connect_eq_ok_iff.2 (.inr ⟨m.refer r, hlast', hids.lasts_other.offers, rfl, rfl⟩),
      ⟨h.nodes, ?_, h.options, ?_⟩, rfl, ?_⟩
    · simp [goOnFrom, State.addEdge, hedge, h.edges]
    · simp [goOnFrom, State.addEdge, h.chain]
    · simpa [linksLeft, goOnFrom, State.addEdge, hn] using hids.next

/-- A token fails on both states or on none, and leaves states that have come equally far. -/
lemma step {t : Token} (h : s.Renamed r s')
    (hids : IdSupply.Renamed r (s.needs (t :: ts)) s.ids s'.ids) :
    (s'.step t).failure = (s.step t).failure ∧ (s.step t).state.Renamed r (s'.step t).state ∧
      ((s.step t).failure = none →
        IdSupply.Renamed r ((s.step t).state.needs ts) (s.step t).state.ids
          (s'.step t).state.ids) := by
  cases t with
  | newline => exact ⟨rfl, ⟨h.nodes, h.edges, h.options, rfl⟩, fun _ => hids⟩
  | arrow dashed =>
    refine ⟨rfl, ⟨h.nodes, h.edges, h.options, ?_⟩, fun _ => hids⟩
    simp [State.step, h.chain]
  | label text =>
    refine ⟨rfl, ⟨h.nodes, h.edges, h.options, ?_⟩, fun _ => hids⟩
    simp [State.step, h.chain]
  | directive text =>
    simp only [State.step, State.direct, h.options]
    cases applyDirective s.options text with
    | error e => exact ⟨rfl, h, by simp⟩
    | ok p => exact ⟨rfl, ⟨h.nodes, h.edges, rfl, h.chain⟩, fun _ => hids⟩
  | node shape text =>
    -- the node first and then the edge, as in a single pass
    obtain ⟨n, s₁, s₁', a, a', he, he', h₁, hkey, hchain, hids₁⟩ := h.ensureNode hids
    rw [linksLeft, ← hchain] at hids₁
    obtain ⟨s₂, s₂', as, as', hc, hc', h₂, hkeys, hids₂⟩ := h₁.connect hkey hids₁
    simp only [State.step, mention_eq he hc, mention_eq he' hc']
    refine ⟨trivial, h₂, fun _ => ?_⟩
    rw [← hkeys] at hids₂
    exact hids₂

lemma run (h : s.Renamed r s') (hids : IdSupply.Renamed r (s.needs ts) s.ids s'.ids) (i : Nat) :
    (run i s' ts).failure = (run i s ts).failure ∧
      (run i s ts).state.Renamed r (run i s' ts).state := by
  induction ts generalizing i s s' with
  | nil => exact ⟨rfl, h⟩
  | cons t ts ih =>
    obtain ⟨hfailure, hstate, hrest⟩ := h.step hids
    cases hf : (s.step t).failure with
    | some e =>
      simp only [Build.run, hfailure, hf]
      exact ⟨trivial, hstate⟩
    | none =>
      simp only [Build.run, hfailure, hf]
      exact ih hstate (hrest hf) (i + 1)

end State.Renamed

/-- With renamed ids a build fails alike, or makes the renamed chart. -/
lemma graph_build_renamed {r : String → String} {ids ids' : IdSupply} {ts : List Token}
    (h : IdSupply.Renamed r (idsNeeded ts) ids ids') (o : Options) :
    (build ids' o ts).graph = (build ids o ts).graph.map (Graph.rename r) := by
  have hinit : State.Renamed r { options := o, ids } { options := o, ids := ids' } :=
    ⟨rfl, rfl, rfl, rfl⟩
  rw [← needs_initial o ids] at h
  obtain ⟨hfailure, hstate⟩ := hinit.run h 0
  rw [Result.graph, Result.graph, build, build, hfailure, hstate.graph]
  split <;> rfl

end Build

/-- A chart has as many nodes and edges as its tokens need ids. -/
lemma Graph.Depicts.size_eq {g : Graph} {ts : List Token} (h : g.Depicts ts) :
    g.nodes.length + g.edges.length = Build.idsNeeded ts := by
  rw [Build.idsNeeded, ← h.keys, ← h.edges.length_eq, Graph.keys, List.length_map]

namespace Build

/-! ### The same text with other ids -/

/-- A text that is read with two supplies gives two charts that differ by a renaming, which takes
the ids drawn from the one to those drawn from the other, in order.  The canonical text is the same,
and so are all answers of the view, renamed.  The text may leave the spacing of the options it is
read with as it is, so that this must not have too many digits. -/
theorem exists_renaming_parse (ids ids' : IdSupply) (o : Options) (text : String) (g : Graph)
    (ho : o.nodeSpacing.natAbs < 10 ^ Number.maxDigits) (hfresh : ids.Fresh) (hfresh' : ids'.Fresh)
    (hlasts : ids.Lasts (idsNeeded (Token.ofText text)))
    (hlasts' : ids'.Lasts (idsNeeded (Token.ofText text)))
    (hg : (parse ids o text).graph = .ok g) :
    ∃ r : Equiv.Perm String,
      let n := g.nodes.length + g.edges.length
      let g' := g.rename r
      let v := View.ofGraph g
      let v' := View.ofGraph g'
      (g.ids.Perm (ids.ahead n) ∧ ids'.ahead n = (ids.ahead n).map r) ∧
      (parse ids' o text).graph = .ok g' ∧
      (∃ written, g.render = .ok written ∧ g'.render = .ok written) ∧
      v'.roots = v.roots.map r ∧ v'.leaves = v.leaves.map r ∧
      (∀ x, v'.successors (r x) = (v.successors x).map r) ∧
      (∀ x, v'.predecessors (r x) = (v.predecessors x).map r) ∧
      v'.feedback = v.feedback.map r ∧
      (∃ order, v.topologicalOrder = .ok order ∧ v'.topologicalOrder = .ok (order.map r)) ∧
      v'.hasCycle = v.hasCycle ∧
      ∃ length, v.longestPath = .ok length ∧ v'.longestPath = .ok length := by
  have hdepicts : g.Depicts (Token.ofText text) := (depicts_of_build hfresh hg).1
  obtain ⟨r, hahead⟩ : ∃ r : Equiv.Perm String, ids'.ahead (idsNeeded (Token.ofText text))
      = (ids.ahead (idsNeeded (Token.ofText text))).map r :=
    exists_perm_map (hfresh.nodup_ahead hlasts) (hfresh'.nodup_ahead hlasts')
      (by simp [IdSupply.ahead])
  have hrenamed : IdSupply.Renamed r (idsNeeded (Token.ofText text)) ids ids' :=
    ⟨hlasts, hlasts', hahead⟩
  have hr : Function.Injective r := r.injective
  have hends := hdepicts.sound.ends_mem
  refine ⟨r, ⟨?_, by rw [hdepicts.size_eq]; exact hahead⟩, ?_, ?_, ?_⟩
  · -- every id of the chart was drawn, and every id that was drawn is one of the chart
    have hdraws := (State.Draws.initial (fun size hsize => by
      have := hlasts size hsize
      omega) o).run 0 (Token.ofText text)
    obtain ⟨-, rfl⟩ := graph_eq_ok_iff.1 hg
    exact hdraws.used
  · rw [parse, graph_build_renamed hrenamed o]
    exact congrArg (Except.map (Graph.rename r)) hg
  · obtain ⟨written, hwritten⟩ :=
      (Graph.exists_render_iff hends).2 (natAbs_of_parse_lt hfresh ho hg)
    exact ⟨written, hwritten, (Graph.render_rename hr hends).trans hwritten⟩
  · obtain ⟨order, horder, -⟩ := View.exists_topologicalOrder (v := View.ofGraph g) fun _ =>
      View.mem_nodeIds_of_mem_vertices hends
    obtain ⟨length, hlength⟩ := View.exists_longestPath hends
    simp only [View.ofGraph_rename hr]
    refine ⟨View.roots_rename hr _, View.leaves_rename hr _, View.successors_rename hr _,
      View.predecessors_rename hr _, View.feedback_rename hr _, ⟨order, horder, ?_⟩,
      View.hasCycle_rename hr _, length, hlength, (View.longestPath_rename hr _).trans hlength⟩
    rw [View.topologicalOrder_rename hr, horder]
    rfl

theorem exists_renaming_parse_circle :
    let text := "[A] -> {B} --> [A]\n(C)"
    let g : Graph :=
      { nodes := [⟨"n1", .rectangle, "A", none⟩, ⟨"n2", .diamond, "B", none⟩,
          ⟨"n5", .ellipse, "C", none⟩]
        edges := [⟨"n3", "n1", "n2", none, none⟩,
          ⟨"n4", "n2", "n1", none, some { strokeStyle := some .dashed }⟩] }
    (parse .counting {} text).graph = .ok g ∧ (View.ofGraph g).feedback = ["n4"] ∧
      ∃ g', (parse (.sequential "x" 7) {} text).graph = .ok g' ∧
        (View.ofGraph g').feedback = ["x10"] ∧ g'.render = g.render := by
  intro text g
  have hg : (parse .counting {} text).graph = .ok g :=
    graph_eq_ok_iff.2 ⟨by decide +kernel, by decide +kernel⟩
  have hfound : (View.ofGraph g).feedback = ["n4"] := by cbv
  obtain ⟨r, ⟨-, hahead⟩, hg', ⟨written, hwritten, hwritten'⟩, -, -, -, -, hfeedback, -⟩ :=
    exists_renaming_parse .counting (.sequential "x" 7) {} text g Options.natAbs_usual_lt
      (IdSupply.sequential_fresh _ _) (IdSupply.sequential_fresh _ _) (by decide +kernel)
      (by decide +kernel) hg
  -- the fourth id that is drawn is that of the edge that leads back
  have hback : r "n4" = "x10" := by
    have hname := congrArg (·[3]?) hahead
    exact (Option.some.inj hname).symm
  refine ⟨hg, hfound, g.rename r, hg', ?_, hwritten'.trans hwritten.symm⟩
  rw [hfeedback, hfound, List.map_cons, List.map_nil, hback]

end Build
end Flowchart
