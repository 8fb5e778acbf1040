import Flowchart.Build.Traced
import Flowchart.Proofs.Build.Editing

/-!
# What a trace says about a pass

A trace only watches: with and without one a pass is the same, and a trace that is kept gets the
records and the snapshots of the pass behind what it had (`runTraced_eq`).

What it gets is faithful.  `Recorded` says what one token does to the chart and which actions are
recorded of it, and every token is recorded so (`recorded_step`).  Over a whole pass, the records of
the tokens come one after another (`records_run`), those of new nodes list the nodes of the chart
and those of new edges its edges (`details_run`).

The main statement is `parseTraced_faithful`.
-/

namespace Flowchart

/-! ### The record of one token -/

/-- A chart with nodes and edges behind its own. -/
def Graph.extend (g : Graph) (ns : List Node) (es : List Edge) : Graph :=
  { g with nodes := g.nodes ++ ns, edges := g.edges ++ es }

lemma Graph.extend_extend (g : Graph) (ns ns' : List Node) (es es' : List Edge) :
    (g.extend ns es).extend ns' es' = g.extend (ns ++ ns') (es ++ es') := by
  simp [extend]

/-- The action that adds an edge. -/
def Edge.creation (e : Edge) : Action := .edgeCreated e.source e.target

namespace Build

/-- What a token does to a chart and what is recorded of it, in order.  A node token may make one
edge to its node, which is recorded after the node. -/
inductive Recorded (g : Graph) : Graph → Token → List Action → Prop
  /-- A new node. -/
  | created (n : Node) (made : List Edge) (hkey : n.key ∉ g.nodes.map Node.key)
      (hmade : made.length ≤ 1) (htarget : ∀ e ∈ made, e.target = n.id) :
      Recorded g (g.extend [n] made) (.node n.shape n.label)
        (.nodeCreated n.id :: made.map Edge.creation)
  /-- A node that is there. -/
  | reused (n : Node) (made : List Edge) (hn : n ∈ g.nodes)
      (hmade : made.length ≤ 1) (htarget : ∀ e ∈ made, e.target = n.id) :
      Recorded g (g.extend [] made) (.node n.shape n.label)
        (.nodeReused n.id :: made.map Edge.creation)
  | arrow (dashed : Bool) : Recorded g g (.arrow dashed) [.arrowPending]
  | label (text : String) : Recorded g g (.label text) [.labelPending text]
  /-- A directive that sets the direction. -/
  | direction (text : String) (d : Direction) :
      Recorded g { g with options := { g.options with direction := d } } (.directive text)
        [.directiveApplied d.name]
  /-- A directive that sets the spacing. -/
  | spacing (text : String) (n : Int) :
      Recorded g { g with options := { g.options with nodeSpacing := n } } (.directive text)
        [.directiveApplied (toString n)]
  /-- Any other directive. -/
  | ignored (text : String) :
      Recorded g g (.directive text)
        [.directiveIgnored (Token.directiveName text) (Token.directiveValue text)]
  /-- The end of a line that left something open, of one with nodes, and of any other. -/
  | newline (as : List Action) (has : as ∈ [[.pendingDiscarded], [.chainReset], []]) :
      Recorded g g .newline as

lemma applyDirective_eq_ok {o o' : Options} {text : String} {a : Action}
    (h : applyDirective o text = .ok (o', a)) :
    (∃ d, o' = { o with direction := d } ∧ a = .directiveApplied d.name) ∨
      (∃ n, o' = { o with nodeSpacing := n } ∧ a = .directiveApplied (toString n)) ∨
      o' = o ∧ a = .directiveIgnored (Token.directiveName text) (Token.directiveValue text) := by
  simp only [applyDirective] at h
  split at h
  · split at h <;> obtain ⟨rfl, rfl⟩ := Prod.mk.inj (Except.ok.inj h)
    · exact .inl ⟨_, rfl, rfl⟩
    · exact .inr (.inr ⟨rfl, rfl⟩)
  · split at h
    · cases hn : Number.leading (Token.directiveValue text).toList with
      | error e => simp [hn, Except.map] at h
      | ok n? =>
        rw [hn] at h
        cases n? <;> obtain ⟨rfl, rfl⟩ := Prod.mk.inj (Except.ok.inj h)
        · exact .inr (.inr ⟨rfl, rfl⟩)
        · exact .inr (.inl ⟨_, rfl, rfl⟩)
    · obtain ⟨rfl, rfl⟩ := Prod.mk.inj (Except.ok.inj h)
      exact .inr (.inr ⟨rfl, rfl⟩)

variable {s s' : State} {t : Token} {ts : List Token}

lemma graph_addNode (s : State) (key : Node.Key) :
    (s.addNode key).graph = s.graph.extend [s.newNode key] [] := by
  simp [State.addNode, State.graph, Graph.extend]

lemma graph_addEdge (s : State) (m n : Node) :
    (s.addEdge m n).graph = s.graph.extend [] [s.newEdge m n] := by
  simp [State.addEdge, State.graph, Graph.extend]

/-- A connection is recorded as the edge it makes. -/
lemma exists_made {n : Node} {as : List Action} (h : s.connect n = .ok (s', as)) :
    ∃ made : List Edge, s'.graph = s.graph.extend [] made ∧ as = made.map Edge.creation ∧
      made.length ≤ 1 ∧ ∀ e ∈ made, e.target = n.id := by
  rcases State.connect_eq_ok_iff.1 h with ⟨-, rfl, rfl⟩ | ⟨m, -, -, rfl, rfl⟩
  · exact ⟨[], by simp [Graph.extend], rfl, by simp, by simp⟩
  · exact ⟨[s.newEdge m n], graph_addEdge s m n, rfl, by simp, by simp [State.newEdge]⟩

/-- Every token is recorded as what it did. -/
lemma recorded_step (h : (s.step t).failure = none) :
    Recorded s.graph (s.step t).state.graph t (s.step t).actions := by
  cases t with
  | newline =>
    refine .newline _ ?_
    simp only [State.step, State.endLine]
    split_ifs <;> simp
  | arrow dashed => exact .arrow dashed
  | label text => exact .label text
  | directive text =>
    cases ha : applyDirective s.options text with
    | error e => simp [State.step, State.direct, ha] at h
    | ok r =>
      obtain ⟨o', a⟩ := r
      simp only [State.step, State.direct, ha]
      rcases applyDirective_eq_ok ha with ⟨d, rfl, rfl⟩ | ⟨n, rfl, rfl⟩ | ⟨rfl, rfl⟩
      · exact .direction text d
      · exact .spacing text n
      · exact .ignored text
  | node shape label =>
    obtain ⟨n, s₁, found, s₂, connected, he, hc⟩ := State.exists_of_mention h
    obtain ⟨made, hgraph, rfl, hmade, htarget⟩ := exists_made hc
    have hstep : s.step (.node shape label)
        = { state := s₂.goOnFrom n, actions := found :: made.map Edge.creation } :=
      State.mention_eq he hc
    rw [hstep]
    change Recorded _ s₂.graph _ _
    rw [hgraph]
    rcases State.ensureNode_eq_ok_iff.1 he with ⟨hn, rfl, rfl⟩ | ⟨hkey, -, rfl, rfl, rfl⟩
    · obtain ⟨hmem, hkey⟩ := State.node?_eq_some hn
      obtain ⟨rfl, rfl⟩ := Prod.mk.inj hkey
      exact .reused n made hmem hmade htarget
    · rw [graph_addNode, Graph.extend_extend, List.append_nil, List.nil_append]
      exact .created _ made hkey hmade htarget

/-! ### The records of a pass -/

lemma decisions_run_cons (i : Nat) (ts : List Token) (h : (s.step t).failure = none) :
    (run i s (t :: ts)).decisions
      = (s.step t).actions.map (⟨some (i, t), ·⟩)
        ++ (run (i + 1) (s.step t).state ts).decisions := by
  simp [run, h]

/-- The records of a pass are those of its tokens, one token after another, and those at the end. -/
lemma records_run (i : Nat) (h : (run i s ts).failure = none) :
    (run i s ts).decisions.map Decision.record
      = (ts.mapIdx fun j t => ((run i s (ts.take j)).state.step t).actions.map
          fun a => Decision.record ⟨some (i + j, t), a⟩).flatten
        ++ (run i s ts).state.atEnd.map Decision.record := by
  induction ts generalizing i s with
  | nil => rfl
  | cons t ts ih =>
    rw [failure_run_cons, Option.or_eq_none_iff] at h
    obtain ⟨ht, hts⟩ := h
    rw [decisions_run_cons i ts ht, List.map_append, List.map_map, ih (i + 1) hts,
      state_run_cons i ts ht, List.mapIdx_cons, List.flatten_cons, List.append_assoc]
    simp only [List.take_zero, List.take_succ_cons, state_run_cons i _ ht, Nat.add_right_comm i 1]
    rfl

lemma failure_run_take {i : Nat} (h : (run i s ts).failure = none) (j : Nat) :
    (run i s (ts.take j)).failure = none := by
  rw [← List.take_append_drop j ts] at h
  exact (run_append h).1

/-- A pass over the first tokens goes on with the next one. -/
lemma state_run_take_succ {i j : Nat} (h : (run i s ts).failure = none) (ht : ts[j]? = some t) :
    ((run i s (ts.take j)).state.step t).failure = none ∧
      (run i s (ts.take (j + 1))).state = ((run i s (ts.take j)).state.step t).state := by
  have htake : ts.take (j + 1) = ts.take j ++ [t] := by rw [List.take_add_one, ht]; rfl
  have hfirst := failure_run_take h (j + 1)
  rw [htake] at hfirst ⊢
  obtain ⟨-, hnext, hstate⟩ := run_append hfirst
  rw [failure_run_cons, Option.or_eq_none_iff] at hnext
  rw [hstate, state_run_cons _ [] hnext.1]
  exact ⟨hnext.1, rfl⟩

/-- The one record that is possible at the end. -/
lemma record_atEnd (s : State) :
    s.atEnd.map Decision.record = [] ∨
      s.atEnd.map Decision.record = [⟨-1, "end", "pending_discarded", ""⟩] := by
  rw [State.atEnd]
  split_ifs
  · exact .inr rfl
  · exact .inl rfl

/-! ### Nodes and edges in records -/

/-- The particulars of the records of one action. -/
def details (action : String) (rs : List Record) : List String :=
  (rs.filter fun r => r.action = action).map Record.detail

lemma details_append (action : String) (rs rs' : List Record) :
    details action (rs ++ rs') = details action rs ++ details action rs' := by
  simp [details]

/-- The ends of an edge as records show them. -/
def ends (e : Edge) : String := s!"{e.source} -> {e.target}"

/-- The particulars of actions that are recorded of one token, or at the end. -/
lemma details_record (action : String) (place : Option (Nat × Token)) (as : List Action) :
    details action (as.map fun a => Decision.record ⟨place, a⟩)
      = (as.filter fun a => a.name = action).map Action.detail := by
  cases place <;> simp [details, List.filter_map, Decision.record, Function.comp_def]

lemma details_creation (action : String) (es : List Edge) :
    ((es.map Edge.creation).filter fun a => a.name = action).map Action.detail
      = if action = "edge_created" then es.map ends else [] := by
  have hname (e : Edge) : e.creation.name = "edge_created" := rfl
  rw [List.filter_map, List.map_map]
  split_ifs with h
  · rw [List.filter_eq_self.2 fun e _ => by simp [hname, h]]
    rfl
  · rw [List.filter_eq_nil_iff.2 fun e _ => by simpa [hname, eq_comm] using h]
    rfl

/-- The records of a token name the nodes and the edges that it adds. -/
lemma Recorded.details_eq {g g' : Graph} {as : List Action} (h : Recorded g g' t as) (i : Nat) :
    g'.nodeIds = g.nodeIds
        ++ details "node_created" (as.map fun a => Decision.record ⟨some (i, t), a⟩) ∧
      g'.edges.map ends = g.edges.map ends
        ++ details "edge_created" (as.map fun a => Decision.record ⟨some (i, t), a⟩) := by
  simp only [details_record]
  cases h with
  | created n made =>
    have hname : (Action.nodeCreated n.id).name = "node_created" := rfl
    simp [hname, details_creation, Graph.extend, Graph.nodeIds, Action.detail]
  | reused n made =>
    have hname : (Action.nodeReused n.id).name = "node_reused" := rfl
    simp [hname, details_creation, Graph.extend, Graph.nodeIds]
  | arrow dashed => simp [Action.name]
  | label text => simp [Action.name]
  | direction text d => simp [Action.name, Graph.nodeIds]
  | spacing text n => simp [Action.name, Graph.nodeIds]
  | ignored text => simp [Action.name]
  | newline as has =>
    simp only [List.mem_cons, List.not_mem_nil, or_false] at has
    rcases has with rfl | rfl | rfl <;> simp [Action.name]

/-- The records of a pass name the nodes and the edges that it adds, in order. -/
lemma details_run (i : Nat) (h : (run i s ts).failure = none) :
    (run i s ts).state.graph.nodeIds = s.graph.nodeIds
        ++ details "node_created" ((run i s ts).decisions.map Decision.record) ∧
      (run i s ts).state.graph.edges.map ends = s.graph.edges.map ends
        ++ details "edge_created" ((run i s ts).decisions.map Decision.record) := by
  induction ts generalizing i s with
  | nil =>
    rcases record_atEnd s with hend | hend <;> simp [run, hend, details]
  | cons t ts ih =>
    rw [failure_run_cons, Option.or_eq_none_iff] at h
    obtain ⟨ht, hts⟩ := h
    obtain ⟨hnodes, hedges⟩ := (recorded_step ht).details_eq i
    obtain ⟨hnodes', hedges'⟩ := ih (i + 1) hts
    rw [decisions_run_cons i ts ht, state_run_cons i ts ht, List.map_append, List.map_map,
      details_append, details_append, hnodes', hedges', hnodes, hedges, List.append_assoc,
      List.append_assoc]
    exact ⟨rfl, rfl⟩

/-! ### Traces -/

/-- Decisions can be recorded ahead of the pass that goes on from them. -/
lemma addPass_addRecords (t : Trace) (ds : List Decision) (r : Result) :
    (t.addRecords (ds.map Decision.record)).addPass r
      = t.addPass { r with decisions := ds ++ r.decisions } := by
  have hgraph : Result.graph { r with decisions := ds ++ r.decisions } = r.graph := rfl
  simp only [Trace.addPass, hgraph]
  cases r.graph <;> simp [Trace.addRecords, Trace.addStage]

/-- A pass is the same with and without a trace, and a trace gets its records and its snapshot. -/
lemma runTraced_eq (i : Nat) (s : State) (trace : Option Trace) (ts : List Token) :
    runTraced i s trace ts
      = ⟨(run i s ts).state, trace.map (·.addPass (run i s ts)), (run i s ts).failure⟩ := by
  induction ts generalizing i s trace with
  | nil => cases trace <;> rfl
  | cons t ts ih =>
    cases ht : (s.step t).failure with
    | some e => simp [runTraced, run, ht, recordAll, Trace.addPass, Result.graph]
    | none =>
      simp only [runTraced, run, ht, ih, recordAll, Option.map_map, Function.comp_def,
        addPass_addRecords]

lemma parseTraced_eq (ids : IdSupply) (o : Options) (trace : Option Trace) (text : String) :
    parseTraced ids o trace text
      = ⟨(parse ids o text).state, trace.map (·.addParse text (parse ids o text)),
          (parse ids o text).failure⟩ := by
  rw [parseTraced, runTraced_eq, Option.map_map]
  rfl

lemma graph_parseTraced (ids : IdSupply) (o : Options) (trace : Option Trace) (text : String) :
    (parseTraced ids o trace text).graph = (parse ids o text).graph := by
  rw [parseTraced_eq]
  rfl

lemma addParse_of_graph {r : Result} {g : Graph} (h : r.graph = .ok g) (trace : Trace)
    (text : String) :
    trace.addParse text r
      = ⟨trace.stages ++ [.ofTokens (Token.ofText text), .ofGraph g],
          trace.records ++ r.decisions.map Decision.record, text⟩ := by
  simp [Trace.addParse, Trace.addPass, Trace.addRecords, Trace.addStage, h]

/-- A trace is passive, only gets longer, and is right about the pass it watched.

If a text is read into a chart, that chart is also read without a trace.  The trace keeps what it
had; then come the records of the tokens in their order, where `log i t` is what is recorded of the
token `t` at index `i`, and possibly one record more.  The records of a token are `Recorded` between
the charts before and after it.  Over all tokens, the new nodes in the records are the nodes of the
chart, the new edges are its edges, and the last snapshot shows its size and its options. -/
theorem parseTraced_faithful (ids : IdSupply) (o : Options) (trace : Trace) (text : String)
    (g : Graph) (h : (parseTraced ids o (some trace) text).graph = .ok g) :
    (parseTraced ids o none text).graph = .ok g ∧
    ∃ (new final : List Record) (log : Nat → Token → List Action) (chart : Nat → Graph)
        (trace' : Trace),
      (parseTraced ids o (some trace) text).trace = some trace' ∧
      trace'.records = trace.records ++ new ∧
      new = ((Token.ofText text).mapIdx fun i t =>
        (log i t).map fun a => ⟨i, t.render, a.name, a.detail⟩).flatten ++ final ∧
      (∀ i, (build ids o ((Token.ofText text).take i)).graph = .ok (chart i)) ∧
      (∀ i t, (Token.ofText text)[i]? = some t → Recorded (chart i) (chart (i + 1)) t (log i t)) ∧
      (final = [] ∨ final = [⟨-1, "end", "pending_discarded", ""⟩]) ∧
      details "node_created" new = g.nodes.map Node.id ∧
      details "edge_created" new = g.edges.map (fun e => s!"{e.source} -> {e.target}") ∧
      trace'.stages = trace.stages ++
        [⟨"scan", [("tokens", .item (.number (Token.ofText text).length)),
            ("kinds", .list ((Token.ofText text).map fun t => .text t.kind))]⟩,
          ⟨"build", [("nodes", .item (.number g.nodes.length)),
            ("edges", .item (.number g.edges.length)),
            ("direction", .item (.text g.options.direction.name)),
            ("node_spacing", .item (.number g.options.nodeSpacing))]⟩] := by
  rw [graph_parseTraced] at h ⊢
  have htrace : (parseTraced ids o (some trace) text).trace
      = some (trace.addParse text (parse ids o text)) := by
    rw [parseTraced_eq]
    rfl
  rw [addParse_of_graph h] at htrace
  obtain ⟨hfail, rfl⟩ := graph_eq_ok_iff.1 h
  -- the pass over the tokens, from the state with nothing built
  have hrun : (run 0 { options := o, ids } (Token.ofText text)).failure = none := hfail
  obtain ⟨hnodes, hedges⟩ := details_run 0 hrun
  have hrecords := records_run 0 hrun
  simp only [Nat.zero_add] at hrecords
  refine ⟨h, _, _, _, fun i => (build ids o ((Token.ofText text).take i)).state.graph, _, htrace,
    rfl, hrecords, fun i => ?_, fun i t ht => ?_, record_atEnd _, hnodes.symm,
    hedges.symm, rfl⟩
  · exact graph_eq_ok_iff.2 ⟨failure_run_take hrun i, rfl⟩
  · obtain ⟨hstep, hstate⟩ := state_run_take_succ hrun ht
    simp only [build, hstate]
    exact recorded_step hstep

theorem parseTraced_faithful_reused :
    let trace : Trace := { records := [⟨0, "NODE('X')", "node_created", "x"⟩], input := "[X]" }
    let text := "@spacing 30\n[A] -> \"x\" (B) -> [A]\n@colour red\n[C] -->"
    ∃ g trace', (parseTraced .counting {} (some trace) text).graph = .ok g ∧
      (parseTraced .counting {} none text).graph = .ok g ∧
      (parseTraced .counting {} (some trace) text).trace = some trace' ∧
      trace.records <+: trace'.records ∧
      details "node_created" trace'.records = ["x", "n1", "n2", "n5"] ∧
      details "edge_created" trace'.records = ["n1 -> n2", "n2 -> n1"] := by
  intro trace text
  have hparse : (parse .counting {} text).failure = none := by decide +kernel
  have hg := (graph_parseTraced _ _ (some trace) _).trans (graph_eq_ok_iff.2 ⟨hparse, rfl⟩)
  obtain ⟨hnone, new, final, log, chart, trace', htrace, hrecords, -, -, -, -, hnodes, hedges, -⟩ :=
    parseTraced_faithful .counting {} trace text _ hg
  refine ⟨_, trace', hg, hnone, htrace, ⟨new, hrecords.symm⟩, ?_, ?_⟩
  · rw [hrecords, details_append, hnodes]
    decide +kernel
  · rw [hrecords, details_append, hedges]
    decide +kernel

end Build
end Flowchart
