import Flowchart.Chart.Written
import Flowchart.Proofs.Build.Links
import Flowchart.Proofs.Number.Leading

/-!
# Charts by their keys

The canonical text of a chart knows nodes by their keys only.  What it shows of a chart is

* `links`: for each edge, the keys of its ends, its label and whether it is dashed;
* `isolatedKeys`: the keys of the nodes that take part in no edge;
* the direction and the spacing.

`render_eq` writes the text of a sound chart from these.  Two sound charts that agree on them have
the same text, and their keys are those of the links together with the isolated ones
(`mem_keys_iff`).  A chart whose edges have listed ends is written exactly if its spacing does not
have too many digits (`exists_render_iff`).
-/

namespace Flowchart

open Build (connectionLabel)

/-- The keys of the two ends of a connection. -/
def Link.ends (l : Link) : List Node.Key := [l.source, l.target]

/-- The line of a connection. -/
def Link.line (l : Link) : List Char := Written.connection l.source l.target l.label l.dashed

/-- The usual spacing can be written. -/
lemma Options.natAbs_usual_lt : ({} : Options).nodeSpacing.natAbs < 10 ^ Number.maxDigits := by
  decide +kernel

namespace Written

/-- The lines of options whose spacing can be written. -/
def optionLines (o : Options) : List (List Char) :=
  direction o ++
    if o.nodeSpacing = ({} : Options).nodeSpacing then []
    else [s!"@spacing {o.nodeSpacing}".toList]

lemma directives_eq (o : Options) :
    directives o = if o.nodeSpacing.natAbs < 10 ^ Number.maxDigits then .ok (optionLines o)
      else .error .write := by
  by_cases husual : o.nodeSpacing = ({} : Options).nodeSpacing
  · have hshort : o.nodeSpacing.natAbs < 10 ^ Number.maxDigits := husual ▸ Options.natAbs_usual_lt
    rw [directives, spacing, optionLines, if_pos husual, if_pos husual, if_pos hshort]
    rfl
  · rw [directives, spacing, optionLines, if_neg husual, if_neg husual, Number.write_eq]
    split <;> rfl

end Written

namespace Graph

variable {g : Graph} {n : Node} {k : Node.Key}

/-- The keys of the nodes, in node order. -/
def keys (g : Graph) : List Node.Key := g.nodes.map Node.key

/-- The ids of the nodes are distinct, and edges run between nodes of the chart. -/
structure Sound (g : Graph) : Prop where
  ids_nodup : g.nodeIds.Nodup
  ends_mem : ∀ e ∈ g.edges, e.source ∈ g.nodeIds ∧ e.target ∈ g.nodeIds

/-- The connection of an edge by keys, if its ends are nodes of the chart. -/
def link? (g : Graph) (e : Edge) : Option Link :=
  match g.lastNode? e.source, g.lastNode? e.target with
  | some m, some n => some ⟨m.key, n.key, connectionLabel e.label, e.dashed⟩
  | _, _ => none

/-- The connections of the edges, in order. -/
def links (g : Graph) : List (Option Link) := g.edges.map g.link?

/-- The keys at the ends of the edges, in order and with repetitions. -/
def linkedKeys (g : Graph) : List Node.Key := g.links.flatMap fun l? => l?.elim [] Link.ends

/-- The keys of the nodes that take part in no edge, in node order. -/
def isolatedKeys (g : Graph) : List Node.Key := (g.nodes.filter g.isIsolated).map Node.key

/-! ### Ends of edges -/

lemma eq_of_id_eq (h : g.Sound) {m : Node} (hm : m ∈ g.nodes) (hn : n ∈ g.nodes)
    (hid : m.id = n.id) : m = n :=
  List.inj_on_of_nodup_map h.ids_nodup hm hn hid

lemma lastNode?_id (h : g.Sound) (hn : n ∈ g.nodes) : g.lastNode? n.id = some n := by
  cases hfind : g.lastNode? n.id with
  | none =>
    have hno := List.find?_eq_none.1 hfind n (List.mem_reverse.2 hn)
    simp at hno
  | some m =>
    have hm : m ∈ g.nodes := List.mem_reverse.1 (List.mem_of_find?_eq_some hfind)
    have hid : m.id = n.id := by simpa using List.find?_some hfind
    rw [eq_of_id_eq h hm hn hid]

lemma link?_of_ends (h : g.Sound) {m : Node} (hm : m ∈ g.nodes) (hn : n ∈ g.nodes) {e : Edge}
    (hsource : m.id = e.source) (htarget : n.id = e.target) :
    g.link? e = some ⟨m.key, n.key, connectionLabel e.label, e.dashed⟩ := by
  rw [link?, ← hsource, ← htarget, lastNode?_id h hm, lastNode?_id h hn]

/-- Every edge of a sound chart has a connection. -/
lemma exists_link? (h : g.Sound) {e : Edge} (he : e ∈ g.edges) :
    ∃ m ∈ g.nodes, ∃ n ∈ g.nodes, m.id = e.source ∧ n.id = e.target ∧
      g.link? e = some ⟨m.key, n.key, connectionLabel e.label, e.dashed⟩ := by
  obtain ⟨hsource, htarget⟩ := h.ends_mem e he
  obtain ⟨m, hm, hm'⟩ := List.mem_map.1 hsource
  obtain ⟨n, hn, hn'⟩ := List.mem_map.1 htarget
  exact ⟨m, hm, n, hn, hm', hn', link?_of_ends h hm hn hm' hn'⟩

lemma exists_links (h : g.Sound) :
    ∃ ls : List Link, g.links = ls.map some ∧ ∀ l ∈ ls, connectionLabel l.label = l.label := by
  have hall : ∀ l? ∈ g.links, ∃ l : Link, l? = some l ∧ connectionLabel l.label = l.label := by
    intro l? hl
    obtain ⟨e, he, rfl⟩ := List.mem_map.1 hl
    obtain ⟨m, -, n, -, -, -, heq⟩ := exists_link? h he
    exact ⟨_, heq, by simp [connectionLabel]⟩
  generalize g.links = ls? at hall
  induction ls? with
  | nil => exact ⟨[], rfl, by simp⟩
  | cons l? ls? ih =>
    obtain ⟨l, rfl, hlabel⟩ := hall l? (by simp)
    obtain ⟨ls, rfl, hlabels⟩ := ih fun l? hl => hall l? (by simp [hl])
    exact ⟨l :: ls, rfl, by simpa using ⟨hlabel, hlabels⟩⟩

lemma linkedKeys_eq {ls : List Link} (h : g.links = ls.map some) :
    g.linkedKeys = ls.flatMap Link.ends := by
  rw [linkedKeys, h, List.flatMap_map]
  rfl

/-! ### Linked and isolated nodes -/

lemma isIsolated_eq_false_iff :
    g.isIsolated n = false ↔ ∃ e ∈ g.edges, e.source = n.id ∨ e.target = n.id := by
  simp only [isIsolated, List.all_eq_false, Bool.not_eq_true, decide_eq_false_iff_not, ne_eq,
    not_and_or, not_not]

/-- The keys at the ends of edges are those of the nodes that are not isolated. -/
lemma mem_linkedKeys_iff (h : g.Sound) :
    k ∈ g.linkedKeys ↔ ∃ n ∈ g.nodes, n.key = k ∧ g.isIsolated n = false := by
  constructor
  · intro hk
    obtain ⟨l?, hl, hk⟩ := List.mem_flatMap.1 hk
    obtain ⟨e, he, rfl⟩ := List.mem_map.1 hl
    obtain ⟨m, hm, n, hn, hsource, htarget, heq⟩ := exists_link? h he
    simp only [heq, Option.elim_some, Link.ends, List.mem_cons, List.not_mem_nil, or_false] at hk
    rcases hk with rfl | rfl
    · exact ⟨m, hm, rfl, isIsolated_eq_false_iff.2 ⟨e, he, .inl hsource.symm⟩⟩
    · exact ⟨n, hn, rfl, isIsolated_eq_false_iff.2 ⟨e, he, .inr htarget.symm⟩⟩
  · rintro ⟨n, hn, rfl, hlinked⟩
    obtain ⟨e, he, hend⟩ := isIsolated_eq_false_iff.1 hlinked
    obtain ⟨m, hm, n', hn', hsource, htarget, heq⟩ := exists_link? h he
    refine List.mem_flatMap.2 ⟨_, List.mem_map.2 ⟨e, he, heq⟩, ?_⟩
    rcases hend with hend | hend
    · obtain rfl := eq_of_id_eq h hm hn (hsource.trans hend)
      simp [Link.ends]
    · obtain rfl := eq_of_id_eq h hn' hn (htarget.trans hend)
      simp [Link.ends]

/-- Every key is at the end of an edge or isolated. -/
lemma mem_keys_iff (h : g.Sound) : k ∈ g.keys ↔ k ∈ g.linkedKeys ++ g.isolatedKeys := by
  rw [List.mem_append, mem_linkedKeys_iff h]
  simp only [keys, isolatedKeys, List.mem_map, List.mem_filter]
  constructor
  · rintro ⟨n, hn, rfl⟩
    cases hiso : g.isIsolated n with
    | false => exact .inl ⟨n, hn, rfl, hiso⟩
    | true => exact .inr ⟨n, ⟨hn, hiso⟩, rfl⟩
  · rintro (⟨n, hn, rfl, -⟩ | ⟨n, ⟨hn, -⟩, rfl⟩)
    · exact ⟨n, hn, rfl⟩
    · exact ⟨n, hn, rfl⟩

/-- If the keys are distinct, the isolated ones are those at no end of an edge. -/
lemma isolatedKeys_eq (h : g.Sound) (hkeys : g.keys.Nodup) :
    g.isolatedKeys = g.keys.filter (· ∉ g.linkedKeys) := by
  rw [isolatedKeys, keys, List.filter_map]
  refine congrArg _ (List.filter_congr fun n hn => ?_)
  -- a node with the key of a linked node is that node
  rw [Bool.eq_iff_iff, ← not_iff_not, Bool.not_eq_true, Function.comp_apply, decide_eq_true_eq,
    not_not, mem_linkedKeys_iff h]
  constructor
  · exact fun hlinked => ⟨n, hn, rfl, hlinked⟩
  · rintro ⟨m, hm, hkey, hlinked⟩
    rwa [← List.inj_on_of_nodup_map hkeys hm hn hkey]

/-! ### The canonical text -/

lemma edgeLine_of_link? {e : Edge} {l : Link} (h : g.link? e = some l) :
    g.edgeLine e = .ok l.line := by
  cases hm : g.lastNode? e.source with
  | none => simp [link?, hm] at h
  | some m =>
    cases hn : g.lastNode? e.target with
    | none => simp [link?, hm, hn] at h
    | some n =>
      obtain rfl : (⟨m.key, n.key, connectionLabel e.label, e.dashed⟩ : Link) = l := by
        simpa [link?, hm, hn] using h
      have hline : Written.connection m.key n.key (connectionLabel e.label) e.dashed
          = Written.connection m.key n.key e.label e.dashed := by
        simp [Written.connection, connectionLabel]
      rw [Link.line, hline]
      simp only [edgeLine, endpoint, hm, hn]
      rfl

lemma mapM_edgeLine {es : List Edge} {ls : List Link} (h : es.map g.link? = ls.map some) :
    es.mapM g.edgeLine = .ok (ls.map Link.line) := by
  induction es generalizing ls with
  | nil =>
    obtain rfl : ls = [] := by simpa using h.symm
    rfl
  | cons e es ih =>
    cases ls with
    | nil => simp at h
    | cons l ls =>
      obtain ⟨hl, hls⟩ := List.cons.inj h
      rw [List.mapM_cons, edgeLine_of_link? hl, ih hls]
      rfl

/-- The lines after the directives: the connections, then the isolated nodes. -/
lemma body_eq {ls : List Link} (h : g.links = ls.map some) :
    g.body = .ok (ls.map Link.line ++ g.isolatedKeys.map fun k => Written.node k.1 k.2) := by
  rw [body, mapM_edgeLine h, isolatedKeys, List.map_map]
  rfl

/-- The text of a chart: its directives, its connections, its isolated nodes. -/
lemma render_eq {ls : List Link} (h : g.links = ls.map some)
    (hspacing : g.options.nodeSpacing.natAbs < 10 ^ Number.maxDigits) :
    g.render = .ok (Written.text (Written.optionLines g.options ++
      (ls.map Link.line ++ g.isolatedKeys.map fun k => Written.node k.1 k.2))) := by
  rw [render, lines, body_eq h, Written.directives_eq, if_pos hspacing]
  rfl

/-! ### Listed ends -/

lemma exists_lastNode? {id : String} (h : id ∈ g.nodeIds) : ∃ n, g.lastNode? id = some n := by
  obtain ⟨n, hn, rfl⟩ := List.mem_map.1 h
  rw [← Option.isSome_iff_exists, lastNode?, List.find?_isSome]
  exact ⟨n, List.mem_reverse.2 hn, by simp⟩

/-- Every edge whose ends are listed has a connection, also if ids of nodes are repeated. -/
lemma links_of_ends (hends : ∀ e ∈ g.edges, e.source ∈ g.nodeIds ∧ e.target ∈ g.nodeIds) :
    g.links = (g.edges.filterMap g.link?).map some := by
  rw [List.map_filterMap, links, ← List.filterMap_eq_map']
  refine List.filterMap_congr fun e he => ?_
  obtain ⟨m, hm⟩ := exists_lastNode? (hends e he).1
  obtain ⟨n, hn⟩ := exists_lastNode? (hends e he).2
  simp [link?, hm, hn]

/-- A chart whose edges have listed ends is written exactly if its spacing can be written. -/
lemma exists_render_iff (hends : ∀ e ∈ g.edges, e.source ∈ g.nodeIds ∧ e.target ∈ g.nodeIds) :
    (∃ text, g.render = .ok text) ↔ g.options.nodeSpacing.natAbs < 10 ^ Number.maxDigits := by
  refine ⟨?_, fun hspacing => ⟨_, render_eq (links_of_ends hends) hspacing⟩⟩
  rintro ⟨text, htext⟩
  by_contra hlong
  rw [render, lines, Written.directives_eq, if_neg hlong] at htext
  cases htext

/-- The spacing is written before the ends of the edges are looked up. -/
example :
    let g : Graph :=
      { edges := [⟨"e", "x", "y", none, none⟩]
        options := { nodeSpacing := (10 ^ 4300 : Nat) } }
    g.render = .error (.number .write) := by
  decide +kernel

end Graph
end Flowchart
