import Flowchart.Proofs.Build.Pass
import Flowchart.Proofs.Chart.Keys

/-!
# What a pass builds

The chart of a token list has one node for each key, in the order of first occurrence, and its edges
are the connections that `links` reads off the lines.  `Graph.Depicts` says this for a finished
chart and `State.Shows` for a pass that is under way; the two parts of a node token preserve
`State.Shows`, so does every step, and so does a run (`Shows.run`).

A chart names its edges by ids and a connection by keys, which is why an edge `Joins` the ends of a
link by way of the nodes.
-/

namespace Flowchart

/-- An edge is the given connection between nodes of the list. -/
structure Edge.Joins (nodes : List Node) (e : Edge) (l : Link) : Prop where
  source : ∃ n ∈ nodes, n.key = l.source ∧ n.id = e.source
  target : ∃ n ∈ nodes, n.key = l.target ∧ n.id = e.target
  label : e.label = l.label
  style : e.style = Build.connectionStyle l.dashed

lemma Edge.Joins.mono {nodes nodes' : List Node} {e : Edge} {l : Link} (h : e.Joins nodes l)
    (hsub : nodes ⊆ nodes') : e.Joins nodes' l := by
  obtain ⟨⟨m, hm, hsource⟩, ⟨n, hn, htarget⟩, hlabel, hstyle⟩ := h
  exact ⟨⟨m, hsub hm, hsource⟩, ⟨n, hsub hn, htarget⟩, hlabel, hstyle⟩

/-- A chart is the one that the tokens describe: a node for each key, in the order of first
occurrence, an edge for each connection, and no id twice. -/
structure Graph.Depicts (g : Graph) (ts : List Token) : Prop where
  keys : g.keys = (Build.nodeKeys ts).eraseDups
  keys_nodup : g.keys.Nodup
  plain : ∀ n ∈ g.nodes, n.style = none
  edges : List.Forall₂ (Edge.Joins g.nodes) g.edges (Build.links ts)
  ids : (g.nodes.map Node.id ++ g.edges.map Edge.id).Nodup

namespace Build

namespace State

variable {s s' : State} {key : Node.Key} {n : Node} {ls : List Link}

/-- The ids in use. -/
def usedIds (s : State) : List String := s.nodes.map Node.id ++ s.edges.map Edge.id

/-- The chart built so far has the given connections, and the state can be gone on from. -/
structure Shows (s : State) (ls : List Link) : Prop where
  keys_nodup : s.keys.Nodup
  plain : ∀ n ∈ s.nodes, n.style = none
  edges : List.Forall₂ (Edge.Joins s.nodes) s.edges ls
  freshFor : s.ids.FreshFor s.usedIds
  last_mem : ∀ n ∈ s.chain.last, n ∈ s.nodes

/-! ### One step -/

lemma Shows.addNode (h : s.Shows ls) (hkey : key ∉ s.keys) (ho : s.ids.Offers s.ids.drawn) :
    (s.addNode key).Shows ls := by
  have hsub : s.nodes ⊆ (s.addNode key).nodes := List.subset_append_left _ _
  refine ⟨?_, ?_, ?_, ?_, fun n hn => hsub (h.last_mem n hn)⟩
  · rw [keys_addNode, List.nodup_append]
    refine ⟨h.keys_nodup, by simp, ?_⟩
    rintro k hk _ hk' rfl
    exact hkey (List.mem_singleton.1 hk' ▸ hk)
  · intro n hn
    rcases List.mem_append.1 hn with hn | hn
    · exact h.plain n hn
    · rw [List.mem_singleton.1 hn]
      rfl
  · exact h.edges.imp fun e l hl => hl.mono hsub
  · refine (h.freshFor.next ho).of_perm ?_
    simp [usedIds, State.addNode, newNode]

lemma Shows.addEdge {m : Node} (h : s.Shows ls) (hm : s.chain.last = some m) (hn : n ∈ s.nodes)
    (ho : s.ids.Offers s.ids.drawn) :
    (s.addEdge m n).Shows
      (ls ++ [⟨m.key, n.key, connectionLabel s.chain.label, s.chain.dashed⟩]) := by
  refine ⟨h.keys_nodup, h.plain, ?_, ?_, h.last_mem⟩
  · have hjoins : (s.newEdge m n).Joins s.nodes
        ⟨m.key, n.key, connectionLabel s.chain.label, s.chain.dashed⟩ :=
      ⟨⟨m, h.last_mem m hm, rfl, rfl⟩, ⟨n, hn, rfl, rfl⟩, rfl, rfl⟩
    exact List.rel_append h.edges (.cons hjoins .nil)
  · refine (h.freshFor.next ho).of_perm ?_
    simpa [usedIds, State.addEdge, newEdge] using
      List.perm_append_singleton (s.ids.name s.ids.drawn) s.usedIds

lemma Shows.goOnFrom (h : s.Shows ls) (hn : n ∈ s.nodes) : (s.goOnFrom n).Shows ls := by
  refine ⟨h.keys_nodup, h.plain, h.edges, h.freshFor, ?_⟩
  rintro m ⟨⟩
  exact hn

/-- A node token stands for a node with its key, which is new exactly if its key is. -/
lemma Shows.ensureNode {a : Action} (h : s.Shows ls) (he : s.ensureNode key = .ok (n, s', a)) :
    s'.Shows ls ∧ n ∈ s'.nodes ∧ n.key = key ∧ s'.chain = s.chain ∧
      ∀ ts, s'.keys ++ newKeys s'.keys ts = s.keys ++ newKeys s.keys (.node key.1 key.2 :: ts) := by
  rcases ensureNode_eq_ok_iff.1 he with ⟨hfind, rfl, -⟩ | ⟨hkey, ho, rfl, rfl, -⟩
  · obtain ⟨hn, hkey⟩ := node?_eq_some hfind
    have hmem : key ∈ s'.keys := List.mem_map.2 ⟨n, hn, hkey⟩
    exact ⟨h, hn, hkey, rfl, fun ts => by rw [newKeys_of_mem hmem]⟩
  · refine ⟨h.addNode hkey ho, by simp [State.addNode], rfl, rfl, fun ts => ?_⟩
    rw [newKeys_of_not_mem hkey, keys_addNode, List.append_assoc, List.singleton_append]

/-- The connection that a node token makes is the first of those that were left. -/
lemma Shows.connect {as : List Action} (h : s.Shows ls) (hn : n ∈ s.nodes)
    (hc : s.connect n = .ok (s', as)) :
    ∃ made, (s'.goOnFrom n).Shows (ls ++ made) ∧ s'.keys = s.keys ∧
      ∀ ts, s.linksLeft (.node n.shape n.label :: ts) = made ++ (s'.goOnFrom n).linksLeft ts := by
  rcases connect_eq_ok_iff.1 hc with ⟨hlast, rfl, -⟩ | ⟨m, hlast, ho, rfl, -⟩
  · refine ⟨[], by rw [List.append_nil]; exact h.goOnFrom hn, rfl, fun ts => ?_⟩
    simp [linksLeft, State.goOnFrom, hlast, linksFrom, Node.key]
  · refine ⟨_, (h.addEdge hlast hn ho).goOnFrom hn, rfl, fun ts => ?_⟩
    simp [linksLeft, State.goOnFrom, State.addEdge, hlast, linksFrom, Node.key]

/-- A token adds the connection it makes, and takes it and its key from what was left. -/
lemma Shows.step {t : Token} (h : s.Shows ls) (hf : (s.step t).failure = none) :
    ∃ made, (s.step t).state.Shows (ls ++ made) ∧
      (∀ ts, s.linksLeft (t :: ts) = made ++ (s.step t).state.linksLeft ts) ∧
      ∀ ts, s.keys ++ newKeys s.keys (t :: ts)
        = (s.step t).state.keys ++ newKeys (s.step t).state.keys ts := by
  cases t with
  | newline =>
    refine ⟨[], ?_, fun ts => rfl, fun ts => rfl⟩
    rw [List.append_nil]
    exact ⟨h.keys_nodup, h.plain, h.edges, h.freshFor, fun _ hn => nomatch hn⟩
  | arrow dashed =>
    refine ⟨[], ?_, fun ts => rfl, fun ts => rfl⟩
    rw [List.append_nil]
    exact ⟨h.keys_nodup, h.plain, h.edges, h.freshFor, h.last_mem⟩
  | label text =>
    refine ⟨[], ?_, fun ts => rfl, fun ts => rfl⟩
    rw [List.append_nil]
    exact ⟨h.keys_nodup, h.plain, h.edges, h.freshFor, h.last_mem⟩
  | directive text =>
    cases ha : applyDirective s.options text with
    | error e => simp [State.step, State.direct, ha] at hf
    | ok r =>
      have hstep : (s.step (.directive text)).state = { s with options := r.1 } := by
        simp [State.step, State.direct, ha]
      rw [hstep]
      refine ⟨[], ?_, fun ts => rfl, fun ts => rfl⟩
      rw [List.append_nil]
      exact ⟨h.keys_nodup, h.plain, h.edges, h.freshFor, h.last_mem⟩
  | node shape text =>
    -- the node goes into the keys, the edge into the connections
    obtain ⟨n, s₁, found, s₂, connected, he, hc⟩ := exists_of_mention hf
    obtain ⟨h₁, hn, hkey, hchain, hkeys⟩ := h.ensureNode he
    obtain ⟨made, h₂, hsame, hlinks⟩ := h₁.connect hn hc
    have hstep : (s.step (.node shape text)).state = s₂.goOnFrom n := by
      rw [State.step, mention_eq he hc]
    obtain ⟨rfl, rfl⟩ : n.shape = shape ∧ n.label = text := Prod.ext_iff.1 hkey
    rw [hstep]
    refine ⟨made, h₂, fun ts => ?_, fun ts => ?_⟩
    · rw [← hlinks, linksLeft, linksLeft, hchain]
    · rw [← hkeys ts, ← hsame]
      rfl

end State

/-! ### A run -/

/-- A run adds exactly the connections and the keys that were left. -/
lemma State.Shows.run {s : State} {ls : List Link} {ts : List Token} {i : Nat} (h : s.Shows ls)
    (hf : (run i s ts).failure = none) :
    (run i s ts).state.Shows (ls ++ s.linksLeft ts) ∧
      (run i s ts).state.keys = s.keys ++ newKeys s.keys ts := by
  induction ts generalizing i s ls with
  | nil =>
    have hlinks : s.linksLeft [] = [] := rfl
    have hkeys : newKeys s.keys [] = [] := rfl
    rw [hlinks, hkeys, List.append_nil, List.append_nil]
    exact ⟨h, rfl⟩
  | cons t ts ih =>
    rw [failure_run_cons, Option.or_eq_none_iff] at hf
    obtain ⟨made, hstep, hlinks, hkeys⟩ := h.step hf.1
    obtain ⟨hrun, hall⟩ := ih hstep hf.2
    rw [state_run_cons i ts hf.1, hlinks ts, hkeys ts, ← List.append_assoc]
    exact ⟨hrun, hall⟩

lemma graph_eq_ok_iff {r : Result} {g : Graph} :
    r.graph = .ok g ↔ r.failure = none ∧ r.state.graph = g := by
  cases h : r.failure <;> simp [Result.graph, h]

/-- The chart that a pass builds is the one its tokens describe. -/
lemma depicts_of_build {ids : IdSupply} {o : Options} {ts : List Token} {g : Graph}
    (hfresh : ids.Fresh) (h : (build ids o ts).graph = .ok g) :
    g.Depicts ts ∧ g.options = ts.foldl directed o := by
  obtain ⟨hf, rfl⟩ := graph_eq_ok_iff.1 h
  have hinit : State.Shows { options := o, ids } [] :=
    ⟨List.nodup_nil, by simp, .nil, hfresh.freshFor_nil, by simp⟩
  obtain ⟨hshows, hkeys⟩ := hinit.run hf
  refine ⟨⟨?_, hshows.keys_nodup, hshows.plain, ?_, hshows.freshFor.nodup⟩, options_run 0 hf⟩
  · rw [← newKeys_nil_left]
    exact hkeys
  · rw [links_eq_linksFrom]
    exact hshows.edges

lemma graph_eq_error_iff {r : Result} {e : Number.TooLong} :
    r.graph = .error e ↔ r.failure = some e := by
  cases h : r.failure <;> simp [Result.graph, h]

lemma failure_build {ids : IdSupply} {o : Options} {ts : List Token}
    (hlasts : ids.Lasts (idsNeeded ts)) :
    (build ids o ts).failure = (ts.findSome? Token.overlong?).map .read :=
  failure_run 0 (by rwa [needs_initial])

/-- With enough ids, a chart comes out if no spacing has too many digits. -/
lemma exists_build {ids : IdSupply} {o : Options} {ts : List Token}
    (hlasts : ids.Lasts (idsNeeded ts)) (hshort : ∀ t ∈ ts, t.overlong? = none) :
    ∃ g, (build ids o ts).graph = .ok g := by
  refine ⟨_, graph_eq_ok_iff.2 ⟨?_, rfl⟩⟩
  rw [failure_build hlasts, List.findSome?_eq_none_iff.2 hshort]
  rfl

end Build

namespace Graph.Depicts

variable {g : Graph} {ts : List Token}

lemma sound (h : g.Depicts ts) : g.Sound := by
  refine ⟨(List.nodup_append.1 h.ids).1, fun e he => ?_⟩
  obtain ⟨i, hi, rfl⟩ := List.getElem_of_mem he
  have hjoins := h.edges.get hi (h.edges.length_eq ▸ hi)
  obtain ⟨m, hm, -, hsource⟩ := hjoins.source
  obtain ⟨n, hn, -, htarget⟩ := hjoins.target
  exact ⟨List.mem_map.2 ⟨m, hm, hsource⟩, List.mem_map.2 ⟨n, hn, htarget⟩⟩

/-- By their keys, the edges are the connections that the tokens describe. -/
lemma links_eq (h : g.Depicts ts) : g.links = (Build.links ts).map some := by
  have hlabel : ∀ l ∈ Build.links ts, Build.connectionLabel l.label = l.label := by
    rw [Build.links_eq_linksFrom]
    exact Build.connectionLabel_of_mem_linksFrom
  have hedges := h.edges
  rw [Graph.links]
  generalize g.edges = es, Build.links ts = ls at hedges hlabel
  induction hedges with
  | nil => rfl
  | @cons e l es ls hjoins _ ih =>
    obtain ⟨m, hm, hsource, hm'⟩ := hjoins.source
    obtain ⟨n, hn, htarget, hn'⟩ := hjoins.target
    have hdashed : e.dashed = l.dashed := by
      rw [Edge.dashed, hjoins.style]
      cases l.dashed <;> rfl
    have hlink : g.link? e = some l := by
      rw [link?_of_ends h.sound hm hn hm' hn', hsource, htarget, hjoins.label, hdashed,
        hlabel l (by simp)]
    rw [List.map_cons, List.map_cons, hlink, ih fun l hl => hlabel l (by simp [hl])]

lemma length_edges (h : g.Depicts ts) :
    g.edges.length
      = ((ts.splitOn .newline).map fun line => (Build.nodeKeys line).length - 1).sum := by
  rw [h.edges.length_eq, Build.links, List.length_flatMap]
  simp only [Build.length_lineLinks]

end Graph.Depicts

namespace Build

/-- Every token list without an overlong spacing is built into the chart it describes.  All edges
run between nodes of the chart, and a line with `k` nodes gives `k - 1` of them. -/
theorem exists_build_depicts (ids : IdSupply) (o : Options) (ts : List Token) (hfresh : ids.Fresh)
    (hlasts : ids.Lasts (idsNeeded ts)) (hshort : ∀ t ∈ ts, t.overlong? = none) :
    ∃ g, (build ids o ts).graph = .ok g ∧ g.Depicts ts ∧
      (∀ e ∈ g.edges, e.source ∈ g.nodeIds ∧ e.target ∈ g.nodeIds) ∧
      g.edges.length
        = ((ts.splitOn .newline).map fun line => (nodeKeys line).length - 1).sum := by
  obtain ⟨g, hg⟩ := exists_build (o := o) hlasts hshort
  have hdepicts := (depicts_of_build hfresh hg).1
  exact ⟨g, hg, hdepicts, hdepicts.sound.ends_mem, hdepicts.length_edges⟩

theorem exists_build_depicts_counting :
    let ts : List Token :=
      [.label "x", .node .rectangle "A", .arrow true, .node .diamond "B", .newline,
        .directive "spacing 30", .node .diamond "B", .label "y", .label "", .node .rectangle "A"]
    ∃ g, (build .counting {} ts).graph = .ok g ∧ g.Depicts ts ∧ g.edges.length = 2 := by
  intro ts
  obtain ⟨g, hg, hdepicts, -, hlength⟩ := exists_build_depicts .counting {} ts
    (IdSupply.sequential_fresh _ _) (by decide +kernel) (by decide +kernel)
  exact ⟨g, hg, hdepicts, hlength⟩

end Build
end Flowchart
