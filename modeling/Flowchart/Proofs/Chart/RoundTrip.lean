import Flowchart.Proofs.Build.Directives
import Flowchart.Proofs.Lists

/-!
# Reading the canonical text

The canonical text of a chart is read line by line: the directives, a line for each connection and
a line for each isolated node.  `ofText_chart` says which tokens it has if all labels fit their
shapes, and `exists_parse_chart` which chart they give.

* `exists_render_parse`: a sound chart whose labels fit their shapes is read back up to its ids;
* `parse_render_iff`: a chart that was read and whose labels do not close their own shapes is read
  back exactly if its labels do not open them either.  A label that opens its own shape takes in the
  bracket that was to close it, and shows up as a key the chart did not have.
-/

namespace Flowchart

open Build Token

/-! ### Lines -/

namespace Link

/-- The text between the two nodes of a line. -/
def between (l : Link) : List Char :=
  ' ' :: Written.arrow l.dashed ++ ' ' :: (connectionLabel l.label).elim []
    fun s => Written.label s ++ ' ' :: Written.arrow l.dashed ++ [' ']

/-- The tokens between the two nodes of a line. -/
def marks (l : Link) : List Token :=
  .arrow l.dashed :: (connectionLabel l.label).elim [] fun s => [.label s, .arrow l.dashed]

/-- The tokens of the line of a connection. -/
def tokens (l : Link) : List Token :=
  .node l.source.1 l.source.2 :: l.marks ++ [.node l.target.1 l.target.2, .newline]

lemma line_eq (l : Link) :
    l.line = Written.node l.source.1 l.source.2 ++ l.between
      ++ Written.node l.target.1 l.target.2 := by
  rw [line, Written.connection, between, connectionLabel]
  cases l.label.filter (· ≠ "") <;> simp

lemma readsAs_between (l : Link) : ReadsAs l.between l.marks := by
  have harrow : ReadsAs (' ' :: Written.arrow l.dashed ++ [' ']) [.arrow l.dashed] :=
    (readsAs_space.append (readsAs_arrow l.dashed)).append readsAs_space
  unfold between marks
  cases connectionLabel l.label with
  | none => exact harrow
  | some s =>
    have hlabel := harrow.append ((readsAs_label s).append harrow)
    simpa using hlabel

lemma readsAs_line {l : Link} (hsource : l.source.1.Fits l.source.2)
    (htarget : l.target.1.Fits l.target.2) : ReadsAs (l.line ++ ['\n']) l.tokens := by
  have hline := (((readsAs_node hsource).append l.readsAs_between).append
    (readsAs_node htarget)).append readsAs_newline
  rw [line_eq]
  simpa [tokens] using hline

section Spoils

variable {l : Link}

lemma decided_line (hsource : Decided (Written.node l.source.1 l.source.2))
    (htarget : Decided (Written.node l.target.1 l.target.2)) : Decided (l.line ++ ['\n']) := by
  rw [line_eq]
  exact ((hsource.append (.inl ⟨_, l.readsAs_between⟩)).append htarget).append
    (.inl ⟨_, readsAs_newline⟩)

/-- A line is spoiled by each of its nodes. -/
lemma spoils_line (hsource : Decided (Written.node l.source.1 l.source.2)) {k : Node.Key}
    (hk : k ∈ l.ends) (hspoils : Spoils (Written.node k.1 k.2)) : Spoils (l.line ++ ['\n']) := by
  rw [line_eq]
  simp only [ends, List.mem_cons, List.not_mem_nil, or_false] at hk
  rcases hk with rfl | rfl
  · exact ((hspoils.append _).append _).append _
  · exact ((hsource.append (.inl ⟨_, l.readsAs_between⟩)).spoils_append hspoils).append _

end Spoils

lemma nodeKeys_marks (l : Link) : nodeKeys l.marks = [] := by
  unfold marks
  cases connectionLabel l.label <;> rfl

lemma nodeKeys_tokens (l : Link) : nodeKeys l.tokens = l.ends := by
  rw [tokens, List.cons_append, nodeKeys_cons_node, nodeKeys_append, nodeKeys_marks]
  rfl

/-- The line of a connection makes it. -/
lemma linksFrom_tokens {l : Link} (h : connectionLabel l.label = l.label) (ts : List Token) :
    linksFrom none none false (l.tokens ++ ts) = l :: linksFrom none none false ts := by
  obtain ⟨source, target, label, dashed⟩ := l
  -- with a label there are two arrows, and the second says again what the first said
  cases label with
  | none => rfl
  | some s =>
    simp only [tokens, marks, h, Option.elim_some, List.cons_append, List.nil_append, linksFrom]

lemma ne_directive_of_mem_tokens (l : Link) : ∀ t ∈ l.tokens, ∀ text, t ≠ .directive text := by
  unfold tokens marks
  cases connectionLabel l.label <;> simp

end Link

/-! ### The whole text -/

namespace Written

/-- The text of a chart with the given options, connections and isolated nodes. -/
def chart (o : Options) (ls : List Link) (ks : List Node.Key) : String :=
  text (optionLines o ++ (ls.map Link.line ++ ks.map fun k => node k.1 k.2))

/-- The tokens of the lines after the directives. -/
def bodyTokens (ls : List Link) (ks : List Node.Key) : List Token :=
  ls.flatMap Link.tokens ++ ks.flatMap fun k => [.node k.1 k.2, .newline]

/-- The tokens of the whole text. -/
def chartTokens (o : Options) (ls : List Link) (ks : List Node.Key) : List Token :=
  directiveTokens o ++ bodyTokens ls ks

lemma ofText_text (lines : List (List Char)) :
    ofText (text lines) = scan (lines.flatMap (· ++ ['\n'])) := by
  rw [ofText, text, String.toList_ofList]

section

variable {o : Options} {ls : List Link} {ks : List Node.Key}

/-- A text whose labels fit their shapes is read piece by piece. -/
lemma ofText_chart (hls : ∀ l ∈ ls, ∀ k ∈ l.ends, k.1.Fits k.2) (hks : ∀ k ∈ ks, k.1.Fits k.2) :
    ofText (chart o ls ks) = chartTokens o ls ks := by
  have hlinks : ReadsAs ((ls.map Link.line).flatMap (· ++ ['\n'])) (ls.flatMap Link.tokens) := by
    rw [List.flatMap_map]
    refine .flatMap fun l hl => Link.readsAs_line ?_ ?_
    · exact hls l hl l.source (by simp [Link.ends])
    · exact hls l hl l.target (by simp [Link.ends])
  have hnodes : ReadsAs ((ks.map fun k => node k.1 k.2).flatMap (· ++ ['\n']))
      (ks.flatMap fun k => [.node k.1 k.2, .newline]) := by
    rw [List.flatMap_map]
    exact .flatMap fun k hk => (readsAs_node (hks k hk)).append readsAs_newline
  rw [chart, ofText_text, List.flatMap_append, List.flatMap_append]
  exact ((readsAs_optionLines o).append (hlinks.append hnodes)).scan_eq

/-- If one of the nodes spoils the text, a label is read that closes its own shape. -/
lemma exists_closing_of_spoils
    (hdecided : ∀ k ∈ ls.flatMap Link.ends ++ ks, Decided (node k.1 k.2)) {k : Node.Key}
    (hk : k ∈ ls.flatMap Link.ends ++ ks) (hspoils : Spoils (node k.1 k.2)) :
    ∃ shape label, .node shape label ∈ ofText (chart o ls ks) ∧
      shape.closing <:+: label.toList := by
  have hends : ∀ l ∈ ls, ∀ k ∈ l.ends, Decided (node k.1 k.2) := fun l hl k hk =>
    hdecided k (List.mem_append_left _ (List.mem_flatMap.2 ⟨l, hl, hk⟩))
  have hsource : ∀ l ∈ ls, Decided (node l.source.1 l.source.2) := fun l hl =>
    hends l hl _ (by simp [Link.ends])
  have hlines : ∀ l ∈ ls, Decided (l.line ++ ['\n']) := fun l hl =>
    Link.decided_line (hsource l hl) (hends l hl _ (by simp [Link.ends]))
  have hnodes : ∀ k ∈ ks, Decided (node k.1 k.2 ++ ['\n']) := fun k hk =>
    (hdecided k (List.mem_append_right _ hk)).append (.inl ⟨_, readsAs_newline⟩)
  -- the spoiling node stands in the line of a connection or on a line of its own
  have hbody : Spoils ((ls.map Link.line).flatMap (· ++ ['\n']) ++
      (ks.map fun k => node k.1 k.2).flatMap (· ++ ['\n'])) := by
    rw [List.flatMap_map, List.flatMap_map]
    rcases List.mem_append.1 hk with hk | hk
    · obtain ⟨l, hl, hk⟩ := List.mem_flatMap.1 hk
      exact (spoils_flatMap hlines hl (Link.spoils_line (hsource l hl) hk hspoils)).append _
    · exact (decided_flatMap hlines).spoils_append (spoils_flatMap hnodes hk (hspoils.append _))
  have hall := Decided.spoils_append (.inl ⟨_, readsAs_optionLines o⟩) hbody []
  rwa [List.append_nil, ← List.flatMap_append, ← List.flatMap_append, ← ofText_text] at hall

lemma nodeKeys_chartTokens : nodeKeys (chartTokens o ls ks) = ls.flatMap Link.ends ++ ks := by
  have hlinks : nodeKeys (ls.flatMap Link.tokens) = ls.flatMap Link.ends := by
    rw [nodeKeys, List.filterMap_flatMap]
    exact congrArg (List.flatMap · ls) (funext Link.nodeKeys_tokens)
  have hnodes : nodeKeys (ks.flatMap fun k => [.node k.1 k.2, .newline]) = ks := by
    rw [nodeKeys, List.filterMap_flatMap]
    exact List.flatMap_singleton' ks
  rw [chartTokens, bodyTokens, nodeKeys_append, nodeKeys_append, nodeKeys_directiveTokens, hlinks,
    hnodes, List.nil_append]

lemma links_chartTokens (hlabels : ∀ l ∈ ls, connectionLabel l.label = l.label) :
    Build.links (chartTokens o ls ks) = ls := by
  have hnodes : linksFrom none none false
      (ks.flatMap fun k => [Token.node k.1 k.2, Token.newline]) = [] := by
    induction ks with
    | nil => rfl
    | cons k ks ih => exact ih
  rw [links_eq_linksFrom, chartTokens, linksFrom_directiveTokens, bodyTokens]
  induction ls with
  | nil => exact hnodes
  | cons l ls ih =>
    rw [List.flatMap_cons, List.append_assoc, Link.linksFrom_tokens (hlabels l (by simp)),
      ih fun l hl => hlabels l (by simp [hl])]

lemma ne_directive_of_mem_bodyTokens : ∀ t ∈ bodyTokens ls ks, ∀ text, t ≠ .directive text := by
  intro t ht
  rcases List.mem_append.1 ht with ht | ht
  · obtain ⟨l, -, ht⟩ := List.mem_flatMap.1 ht
    exact l.ne_directive_of_mem_tokens t ht
  · obtain ⟨k, -, ht⟩ := List.mem_flatMap.1 ht
    simp only [List.mem_cons, List.not_mem_nil, or_false] at ht
    rcases ht with rfl | rfl <;> simp

lemma overlong?_chartTokens (hspacing : o.nodeSpacing.natAbs < 10 ^ Number.maxDigits) :
    ∀ t ∈ chartTokens o ls ks, t.overlong? = none := by
  intro t ht
  rcases List.mem_append.1 ht with ht | ht
  · exact overlong?_directiveTokens hspacing t ht
  · exact overlong?_eq_none (ne_directive_of_mem_bodyTokens t ht)

lemma foldl_directed_chartTokens (hspacing : o.nodeSpacing.natAbs < 10 ^ Number.maxDigits) :
    (chartTokens o ls ks).foldl directed {}
      = { direction := o.direction, nodeSpacing := o.nodeSpacing } := by
  rw [chartTokens, List.foldl_append, foldl_directed_directiveTokens hspacing,
    foldl_directed_eq_self ne_directive_of_mem_bodyTokens]

/-- The chart that is read from the canonical text. -/
lemma exists_parse_chart {ids : IdSupply} (hls : ∀ l ∈ ls, ∀ k ∈ l.ends, k.1.Fits k.2)
    (hks : ∀ k ∈ ks, k.1.Fits k.2) (hlabels : ∀ l ∈ ls, connectionLabel l.label = l.label)
    (hspacing : o.nodeSpacing.natAbs < 10 ^ Number.maxDigits) (hfresh : ids.Fresh)
    (hlasts : ids.Lasts ((ls.flatMap Link.ends ++ ks).eraseDups.length + ls.length)) :
    ∃ h, (parse ids {} (chart o ls ks)).graph = .ok h ∧ h.Sound ∧ h.links = ls.map some ∧
      h.keys = (ls.flatMap Link.ends ++ ks).eraseDups ∧ h.keys.Nodup ∧
      h.options = { direction := o.direction, nodeSpacing := o.nodeSpacing } := by
  have hkeys : nodeKeys (chartTokens o ls ks) = ls.flatMap Link.ends ++ ks := nodeKeys_chartTokens
  have hlinks : Build.links (chartTokens o ls ks) = ls := links_chartTokens hlabels
  have hneeded : ids.Lasts (idsNeeded (chartTokens o ls ks)) := by
    rwa [idsNeeded, hkeys, hlinks]
  obtain ⟨h, hh⟩ := exists_build (o := {}) hneeded (overlong?_chartTokens hspacing)
  obtain ⟨hdepicts, hoptions⟩ := depicts_of_build hfresh hh
  refine ⟨h, ?_, hdepicts.sound, ?_, ?_, hdepicts.keys_nodup, ?_⟩
  · rw [parse, ofText_chart hls hks, hh]
  · rw [hdepicts.links_eq, hlinks]
  · rw [hdepicts.keys, hkeys]
  · rw [hoptions, foldl_directed_chartTokens hspacing]

end

end Written

/-! ### Charts that are read back -/

namespace Graph

variable {g h : Graph} {ids : IdSupply}

/-- How many ids it takes to read the canonical text of a chart. -/
def idsNeeded (g : Graph) : Nat :=
  (g.linkedKeys ++ g.isolatedKeys).eraseDups.length + g.edges.length

/-- A chart whose labels fit their shapes is read back by its keys. -/
lemma exists_parse_render (hg : g.Sound) (hfits : ∀ n ∈ g.nodes, n.shape.Fits n.label)
    (hspacing : g.options.nodeSpacing.natAbs < 10 ^ Number.maxDigits) (hfresh : ids.Fresh)
    (hlasts : ids.Lasts g.idsNeeded) :
    ∃ t h, g.render = .ok t ∧ (parse ids {} t).graph = .ok h ∧ h.Sound ∧ h.links = g.links ∧
      h.keys = (g.linkedKeys ++ g.isolatedKeys).eraseDups ∧ h.keys.Nodup ∧
      h.options = { direction := g.options.direction, nodeSpacing := g.options.nodeSpacing } := by
  obtain ⟨ls, hls, hlabels⟩ := exists_links hg
  have hlinked := linkedKeys_eq hls
  have hkeys : ∀ k ∈ g.linkedKeys ++ g.isolatedKeys, k.1.Fits k.2 := by
    intro k hk
    obtain ⟨n, hn, rfl⟩ := List.mem_map.1 ((mem_keys_iff hg).2 hk)
    exact hfits n hn
  have hends : ∀ l ∈ ls, ∀ k ∈ l.ends, k.1.Fits k.2 := fun l hl k hk =>
    hkeys k (List.mem_append_left _ (hlinked ▸ List.mem_flatMap.2 ⟨l, hl, hk⟩))
  have hlength : ls.length = g.edges.length := by
    simpa [Graph.links] using (congrArg List.length hls).symm
  rw [idsNeeded, hlinked, ← hlength] at hlasts
  obtain ⟨h, hparse, hsound, hh⟩ := Written.exists_parse_chart (o := g.options) hends
    (fun k hk => hkeys k (List.mem_append_right _ hk)) hlabels hspacing hfresh hlasts
  rw [hls, hlinked]
  exact ⟨_, h, render_eq hls hspacing, hparse, hsound, hh⟩

/-- If the keys of a chart are distinct, a chart that was read back has the same isolated keys. -/
lemma isolatedKeys_eq_of_keys_eq (hg : g.Sound) (hnodup : g.keys.Nodup) (hh : h.Sound)
    (hnodup' : h.keys.Nodup) (hlinks : h.links = g.links)
    (hkeys : h.keys = (g.linkedKeys ++ g.isolatedKeys).eraseDups) :
    h.isolatedKeys = g.isolatedKeys := by
  have hlinked : h.linkedKeys = g.linkedKeys := by rw [linkedKeys, hlinks, linkedKeys]
  have hiso := isolatedKeys_eq hg hnodup
  have hapart : ∀ k ∈ g.isolatedKeys, k ∉ g.linkedKeys := by
    intro k hk
    rw [hiso] at hk
    simpa using (List.mem_filter.1 hk).2
  have hiso_nodup : g.isolatedKeys.Nodup := hiso ▸ hnodup.filter _
  have hnone : g.linkedKeys.eraseDups.filter (· ∉ g.linkedKeys) = [] :=
    List.filter_eq_nil_iff.2 fun k hk => by simpa using List.mem_eraseDups.1 hk
  have hremove : g.isolatedKeys.removeAll g.linkedKeys = g.isolatedKeys :=
    List.filter_eq_self.2 fun k hk => by simpa using hapart k hk
  have hall : g.isolatedKeys.filter (· ∉ g.linkedKeys) = g.isolatedKeys :=
    List.filter_eq_self.2 fun k hk => by simpa using hapart k hk
  -- the linked keys come first and drop out, and nothing is erased from the isolated ones
  rw [isolatedKeys_eq hh hnodup', hlinked, hkeys, List.eraseDups_append, hremove,
    eraseDups_of_nodup hiso_nodup, List.filter_append, hnone, hall, List.nil_append]

/-- A sound chart whose labels fit their shapes is read back up to its ids.  Its nodes come in the
order of the edges and then of the isolated nodes, and if its keys were distinct, its text stays as
it was. -/
theorem exists_render_parse (g : Graph) (ids : IdSupply) (hg : g.Sound)
    (hfits : ∀ n ∈ g.nodes, n.shape.Fits n.label)
    (hspacing : g.options.nodeSpacing.natAbs < 10 ^ Number.maxDigits) (hfresh : ids.Fresh)
    (hlasts : ids.Lasts g.idsNeeded) :
    ∃ t h, g.render = .ok t ∧ (parse ids {} t).graph = .ok h ∧
      h.links = g.links ∧
      h.keys = (g.linkedKeys ++ g.isolatedKeys).eraseDups ∧ h.keys.Nodup ∧
      (∀ k, k ∈ h.keys ↔ k ∈ g.keys) ∧
      h.options.direction = g.options.direction ∧
      h.options.nodeSpacing = g.options.nodeSpacing ∧
      (g.keys.Nodup → h.render = g.render) := by
  obtain ⟨t, h, hrender, hparse, hsound, hlinks, hkeys, hnodup, hoptions⟩ :=
    exists_parse_render hg hfits hspacing hfresh hlasts
  refine ⟨t, h, hrender, hparse, hlinks, hkeys, hnodup, fun k => ?_, by rw [hoptions],
    by rw [hoptions], fun hdistinct => ?_⟩
  · rw [hkeys, List.mem_eraseDups, mem_keys_iff hg]
  · obtain ⟨ls, hls, -⟩ := exists_links hg
    have hspacing' : h.options.nodeSpacing.natAbs < 10 ^ Number.maxDigits := by rwa [hoptions]
    rw [render_eq hls hspacing, render_eq (hlinks.trans hls) hspacing', hoptions,
      isolatedKeys_eq_of_keys_eq hg hdistinct hsound hnodup hlinks hkeys]
    rfl

theorem exists_render_parse_counting :
    let g : Graph :=
      { nodes := [⟨"b", .database, "d]", none⟩, ⟨"i", .diamond, "#\n@", none⟩,
          ⟨"a", .rectangle, "[x] y", none⟩]
        edges := [⟨"e", "a", "b", some "\"\\", some { strokeStyle := some .dashed }⟩,
          ⟨"f", "b", "b", some "", some { strokeStyle := some .dotted }⟩]
        options := { direction := .left, nodeSpacing := -7 } }
    ∃ t h, g.render = .ok t ∧ (parse .counting {} t).graph = .ok h ∧ h.render = .ok t ∧
      h.keys = [(.rectangle, "[x] y"), (.database, "d]"), (.diamond, "#\n@")] := by
  intro g
  obtain ⟨t, h, hrender, hparse, -, hkeys, -, -, -, -, hagain⟩ :=
    exists_render_parse g .counting ⟨by decide, by decide⟩ (by decide) (by decide +kernel)
      (IdSupply.sequential_fresh _ _) (by decide +kernel)
  exact ⟨t, h, hrender, hparse, (hagain (by decide)).trans hrender, hkeys⟩

/-! ### Charts that were read -/

lemma strip_of_parse {o : Options} {text : String} (hfresh : ids.Fresh)
    (hg : (parse ids o text).graph = .ok g) :
    ∀ n ∈ g.nodes, Text.strip n.label.toList = n.label.toList := by
  intro n hn
  have hkey : n.key ∈ g.keys := List.mem_map.2 ⟨n, hn, rfl⟩
  rw [(depicts_of_build hfresh hg).1.keys, List.mem_eraseDups] at hkey
  exact strip_of_mem_scan (mem_nodeKeys_iff.1 hkey)

/-- A label that opens its own shape makes the text of the chart read as another chart. -/
lemma exists_closing_of_render (hg : g.Sound)
    (hstrip : ∀ n ∈ g.nodes, Text.strip n.label.toList = n.label.toList)
    (hclosing : ∀ n ∈ g.nodes, ¬ n.shape.closing <:+: n.label.toList)
    (hspacing : g.options.nodeSpacing.natAbs < 10 ^ Number.maxDigits) {n : Node}
    (hn : n ∈ g.nodes) {b : Char × Char} (hb : n.shape.brackets? = some b)
    (hopens : b.1 ∈ n.label.toList) :
    ∃ t, g.render = .ok t ∧ ∃ shape label, .node shape label ∈ ofText t ∧
      shape.closing <:+: label.toList := by
  -- a node either fits its shape or spoils the text, since its label closes nothing
  have hspoils : ∀ m ∈ g.nodes, ∀ b' ∈ m.shape.brackets?, b'.1 ∈ m.label.toList →
      Spoils (Written.node m.shape m.label) := by
    intro m hm b' hb' hmem
    have hno := hclosing m hm
    rw [Shape.closing_of_brackets hb', List.singleton_infix_iff] at hno
    exact spoils_node hb' hmem hno
  have hdecided : ∀ k ∈ g.keys, Decided (Written.node k.1 k.2) := by
    intro k hk
    obtain ⟨m, hm, rfl⟩ := List.mem_map.1 hk
    by_cases hall : ∀ b' ∈ m.shape.brackets?, b'.1 ∉ m.label.toList
    · exact .inl ⟨_, readsAs_node (Shape.fits_of_notMem (hstrip m hm) (hclosing m hm) hall)⟩
    · push Not at hall
      obtain ⟨b', hb', hmem⟩ := hall
      exact .inr (hspoils m hm b' hb' hmem)
  obtain ⟨ls, hls, -⟩ := exists_links hg
  have hkeys : ∀ k, k ∈ g.keys ↔ k ∈ ls.flatMap Link.ends ++ g.isolatedKeys := by
    intro k
    rw [mem_keys_iff hg, linkedKeys_eq hls]
  refine ⟨_, render_eq hls hspacing, Written.exists_closing_of_spoils (k := n.key)
    (fun k hk => hdecided k ((hkeys k).2 hk)) ?_ (hspoils n hn b hb hopens)⟩
  exact (hkeys _).1 (List.mem_map.2 ⟨n, hn, rfl⟩)

/-- A chart that was read and whose labels do not close their own shapes is read back from its text
exactly if no label opens its own shape. -/
theorem parse_render_iff (ids ids' : IdSupply) (text : String) (g : Graph) (hfresh : ids.Fresh)
    (hg : (parse ids {} text).graph = .ok g)
    (hclosing : ∀ n ∈ g.nodes, ¬ n.shape.closing <:+: n.label.toList)
    (hfresh' : ids'.Fresh) (hlasts : ids'.Lasts g.idsNeeded) :
    (∃ t h, g.render = .ok t ∧ (parse ids' {} t).graph = .ok h ∧
        (∀ k, k ∈ h.keys ↔ k ∈ g.keys) ∧ h.links = g.links) ↔
      ∀ n ∈ g.nodes, ∀ b ∈ n.shape.brackets?, b.1 ∉ n.label.toList := by
  have hsound := (depicts_of_build hfresh hg).1.sound
  have hstrip := strip_of_parse hfresh hg
  have hspacing := natAbs_of_parse_lt hfresh Options.natAbs_usual_lt hg
  constructor
  · rintro ⟨t, h, hrender, hparse, hkeys, -⟩ n hn b hb hopens
    obtain ⟨t', hrender', shape, label, hmem, hcloses⟩ :=
      exists_closing_of_render hsound hstrip hclosing hspacing hn hb hopens
    obtain rfl : t = t' := Except.ok.inj (hrender.symm.trans hrender')
    -- the new key is one of the chart that was read again, but not of this one
    have hnew : (shape, label) ∈ h.keys := by
      rw [(depicts_of_build hfresh' hparse).1.keys, List.mem_eraseDups]
      exact mem_nodeKeys_iff.2 hmem
    obtain ⟨m, hm, hkey⟩ := List.mem_map.1 ((hkeys (shape, label)).1 hnew)
    obtain ⟨rfl, rfl⟩ : m.shape = shape ∧ m.label = label := Prod.ext_iff.1 hkey
    exact hclosing m hm hcloses
  · intro hopening
    have hfits : ∀ n ∈ g.nodes, n.shape.Fits n.label := fun n hn =>
      Shape.fits_of_notMem (hstrip n hn) (hclosing n hn) (hopening n hn)
    obtain ⟨t, h, hrender, hparse, -, hlinks, hkeys, -⟩ :=
      exists_parse_render hsound hfits hspacing hfresh' hlasts
    refine ⟨t, h, hrender, hparse, fun k => ?_, hlinks⟩
    rw [hkeys, List.mem_eraseDups, mem_keys_iff hsound]

theorem parse_render_iff_counting :
    let g : Graph :=
      { nodes := [⟨"n1", .rectangle, "A", none⟩, ⟨"n2", .ellipse, "[[B", none⟩]
        edges := [⟨"n3", "n1", "n2", some "x", some { strokeStyle := some .dashed }⟩] }
    ∃ t h, g.render = .ok t ∧ (parse .counting {} t).graph = .ok h ∧
      (∀ k, k ∈ h.keys ↔ k ∈ g.keys) ∧ h.links = g.links := by
  intro g
  exact (parse_render_iff .counting .counting "[A] \"x\" --> ([[B" g
    (IdSupply.sequential_fresh _ _) (by decide +kernel) (by decide)
    (IdSupply.sequential_fresh _ _) (by decide +kernel)).2 (by decide)

/-- Half a chart is a chart, but it need not be read back. -/
theorem parse_render_unclosed :
    ∃ g t h, (parse .counting {} "[a [b").graph = .ok g ∧
      (∀ n ∈ g.nodes, ¬ n.shape.closing <:+: n.label.toList) ∧
      g.render = .ok t ∧ (parse .counting {} t).graph = .ok h ∧
      g.keys = [(.rectangle, "a [b")] ∧ h.keys = [(.rectangle, "a [b]")] :=
  ⟨{ nodes := [⟨"n1", .rectangle, "a [b", none⟩] }, "[a [b]\n",
    { nodes := [⟨"n1", .rectangle, "a [b]", none⟩] },
    by decide +kernel, by decide, by decide +kernel, by decide +kernel, by decide, by decide⟩

end Graph
end Flowchart
