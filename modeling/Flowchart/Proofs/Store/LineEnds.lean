import Flowchart.Proofs.Chart.RoundTrip
import Flowchart.Proofs.Store.Saved

/-!
# Line ends in saved charts

A file is read with its line ends folded, so that a carriage return in it is read as a line feed.
Outside labels the text of a chart has none.  So a chart that was saved as text is loaded like its
text if no label has a carriage return (`Graph.NoReturns`), and if all labels fit their shapes it is
not loaded like its text otherwise (`exists_saveText_loadText`).

* A chart without carriage returns in its labels has none in its text (`notMem_render`).
* What is scanned has no other characters than the text (`subset_of_mem_scan`), so that no label of
  a loaded chart has a carriage return (`noReturns_of_parse`).

A label that does not fit its shape takes in what follows it in the text, or lets it be taken for
something else.  Then a carriage return may end up where it makes no difference.
-/

namespace Flowchart

/-! ### Characters of tokens -/

namespace Token

/-- The text inside a node or a quoted label. -/
def inscription? : Token → Option String
  | node _ text => some text
  | label text => some text
  | _ => none

/-- What is read and what is left are parts of a text. -/
structure Enclosed.Within (e : Enclosed) (s : List Char) : Prop where
  inner : e.inner ⊆ s
  rest : e.rest ⊆ s

namespace Enclosed.Within

variable {e : Enclosed} {s : List Char}

lemma cons (h : e.Within s) (c : Char) : (e.cons c).Within (c :: s) :=
  ⟨List.cons_subset_cons c h.inner, List.Subset.trans h.rest (List.subset_cons_self c s)⟩

lemma skip (h : e.Within s) (c : Char) : e.Within (c :: s) :=
  ⟨List.Subset.trans h.inner (List.subset_cons_self c s),
    List.Subset.trans h.rest (List.subset_cons_self c s)⟩

lemma closed (s : List Char) : Within ⟨[], s, true⟩ s :=
  ⟨List.nil_subset s, List.Subset.refl s⟩

lemma unclosed : Within ⟨[], [], false⟩ [] :=
  ⟨List.Subset.refl [], List.Subset.refl []⟩

end Enclosed.Within

open Enclosed

lemma within_readBalanced (opening closing : Char) (depth : Nat) (s : List Char) :
    (readBalanced opening closing depth s).Within s := by
  induction s generalizing depth with
  | nil => exact .unclosed
  | cons c s ih =>
    unfold readBalanced
    split
    · exact (ih _).cons c
    · split
      · split
        · exact (Within.closed s).skip c
        · exact (ih _).cons c
      · exact (ih _).cons c

lemma within_readDatabase (s : List Char) : (readDatabase s).Within s := by
  fun_induction readDatabase s with
  | case1 => exact .unclosed
  | case2 s => exact ((Within.closed s).skip ']').skip ']'
  | case3 c s _ ih => exact ih.cons c

lemma within_readQuoted (s : List Char) : (readQuoted s).Within s := by
  fun_induction readQuoted s with
  | case1 => exact .unclosed
  | case2 s => exact (Within.closed s).skip '"'
  | case3 c s ih => exact (ih.cons c).skip '\\'
  | case4 c s _ _ ih => exact ih.cons c

/-- A step finds and leaves nothing but parts of the text. -/
lemma subset_step (c : Char) (s : List Char) :
    (∀ t ∈ (step c s).token?, ∀ text ∈ t.inscription?, text.toList ⊆ c :: s) ∧
      (step c s).rest ⊆ c :: s := by
  have hnode {u : List Char} (shape : Shape) {e : Enclosed} (overrun : Nat) (he : e.Within u) :
      (∀ t ∈ (Step.node shape e overrun).token?, ∀ text ∈ t.inscription?, text.toList ⊆ u) ∧
        (Step.node shape e overrun).rest ⊆ u := by
    refine ⟨?_, he.rest⟩
    rintro _ ⟨⟩ _ ⟨⟩
    rw [String.toList_ofList]
    exact List.Subset.trans (Text.strip_infix e.inner).subset he.inner
  have hquoted {u : List Char} {e : Enclosed} (he : e.Within u) :
      ∀ text ∈ (Token.label (String.ofList e.inner)).inscription?, text.toList ⊆ u := by
    rintro _ ⟨⟩
    rw [String.toList_ofList]
    exact he.inner
  unfold step
  split
  · exact ⟨by rintro _ ⟨⟩ _ ⟨⟩, List.subset_cons_self _ _⟩
  · exact ⟨by rintro _ ⟨⟩, List.Subset.trans (List.dropWhile_suffix _).subset
      (List.subset_cons_self _ _)⟩
  · refine ⟨by rintro _ ⟨⟩ _ ⟨⟩, ?_⟩
    exact List.Subset.trans ((List.dropWhile_suffix _).trans (List.dropWhile_suffix _)).subset
      (List.subset_cons_self _ _)
  · exact hnode _ _ (((within_readDatabase _).skip _).skip _)
  · exact hnode _ _ ((within_readBalanced ..).skip _)
  · exact hnode _ _ ((within_readBalanced ..).skip _)
  · exact hnode _ _ ((within_readBalanced ..).skip _)
  · exact ⟨by rintro _ ⟨⟩ _ ⟨⟩, fun x hx => by simp [hx]⟩
  · exact ⟨by rintro _ ⟨⟩ _ ⟨⟩, fun x hx => by simp [hx]⟩
  · refine ⟨?_, ((within_readQuoted _).skip _).rest⟩
    rintro _ ⟨⟩
    exact hquoted ((within_readQuoted _).skip _)
  · exact ⟨by rintro _ ⟨⟩, List.subset_cons_self _ _⟩

/-- The text inside a token is part of the text it was read from. -/
lemma subset_of_mem_scan {s : List Char} {t : Token} (ht : t ∈ scan s) :
    ∀ text ∈ t.inscription?, text.toList ⊆ s := by
  induction s using scan.induct with
  | case1 => simp [scan_nil] at ht
  | case2 c s next hnone ih =>
    rw [scan_cons, hnone] at ht
    exact fun text htext => List.Subset.trans (ih ht text htext) (subset_step c s).2
  | case3 c s next t' hsome ih =>
    rw [scan_cons, hsome] at ht
    rcases List.mem_cons.1 ht with rfl | ht
    · exact (subset_step c s).1 t hsome
    · exact fun text htext => List.Subset.trans (ih ht text htext) (subset_step c s).2

end Token

/-- The label of a connection was read, before or from the tokens. -/
lemma Build.label_of_mem_linksFrom {last : Option Node.Key} {label : Option String} {dashed : Bool}
    {ts : List Token} : ∀ l ∈ linksFrom last label dashed ts, ∀ s ∈ l.label,
      label = some s ∨ .label s ∈ ts := by
  induction ts generalizing last label dashed with
  | nil => exact fun l hl => absurd hl List.not_mem_nil
  | cons t ts ih =>
    intro l hl s hs
    cases t with
    | newline => exact .inr (List.mem_cons_of_mem _ ((ih l hl s hs).resolve_left (by simp)))
    | directive text => exact (ih l hl s hs).imp_right (List.mem_cons_of_mem _)
    | arrow dashed => exact (ih l hl s hs).imp_right (List.mem_cons_of_mem _)
    | label text =>
      rcases ih l hl s hs with ⟨⟨⟩⟩ | hmem
      · exact .inr List.mem_cons_self
      · exact .inr (List.mem_cons_of_mem _ hmem)
    | node shape text =>
      cases last with
      | none => exact (ih l hl s hs).imp_right (List.mem_cons_of_mem _)
      | some a =>
        rcases List.mem_cons.1 hl with rfl | hl
        · exact .inl (Option.mem_filter_iff.1 hs).1
        · exact .inr (List.mem_cons_of_mem _ ((ih l hl s hs).resolve_left (by simp)))

/-! ### Charts without carriage returns -/

namespace Graph

variable {g : Graph}

/-- No label of a chart has a carriage return. -/
structure NoReturns (g : Graph) : Prop where
  node : ∀ n ∈ g.nodes, '\r' ∉ n.label.toList
  edge : ∀ e ∈ g.edges, ∀ s ∈ e.label, '\r' ∉ s.toList

/-- An empty label has none, so that it makes no difference that connections leave it out. -/
lemma noReturns_iff (hg : g.Sound) :
    g.NoReturns ↔ (∀ k ∈ g.keys, '\r' ∉ k.2.toList) ∧
      ∀ l, some l ∈ g.links → ∀ s ∈ l.label, '\r' ∉ s.toList := by
  have hlink : ∀ e ∈ g.edges, ∃ l, g.link? e = some l ∧
      l.label = Build.connectionLabel e.label := by
    intro e he
    obtain ⟨m, -, n, -, -, -, heq⟩ := exists_link? hg he
    exact ⟨_, heq, rfl⟩
  constructor
  · rintro ⟨hnode, hedge⟩
    refine ⟨?_, fun l hl s hs => ?_⟩
    · intro k hk
      obtain ⟨n, hn, rfl⟩ := List.mem_map.1 hk
      exact hnode n hn
    · obtain ⟨e, he, heq⟩ := List.mem_map.1 hl
      obtain ⟨l', hl', hlabel⟩ := hlink e he
      obtain rfl : l' = l := by simpa [hl'] using heq
      rw [hlabel] at hs
      exact hedge e he s (Option.mem_filter_iff.1 hs).1
  · rintro ⟨hkeys, hlinks⟩
    refine ⟨fun n hn => hkeys n.key (List.mem_map.2 ⟨n, hn, rfl⟩), fun e he s hs hmem => ?_⟩
    obtain ⟨l, hl, hlabel⟩ := hlink e he
    have hne : s ≠ "" := by
      rintro rfl
      simp at hmem
    refine hlinks l (hl ▸ List.mem_map.2 ⟨e, he, rfl⟩) s ?_ hmem
    rw [hlabel]
    exact Option.mem_filter_iff.2 ⟨hs, by simpa using hne⟩

end Graph

namespace Written

lemma notMem_node (shape : Shape) {label : String} (h : '\r' ∉ label.toList) :
    '\r' ∉ node shape label := by
  have hpad : '\r' ∉ shape.pad label.toList := by rwa [shape.mem_pad_iff (by decide)]
  cases shape <;> simp [node, Shape.opening, Shape.closing, hpad]

lemma notMem_label {s : String} (h : '\r' ∉ s.toList) : '\r' ∉ label s := by
  simp only [label, List.mem_append, List.mem_cons, List.mem_flatMap, List.not_mem_nil, or_false,
    not_or, not_exists, not_and]
  refine ⟨⟨by decide, fun c hc => ?_⟩, by decide⟩
  have hne : '\r' ≠ c := by
    rintro rfl
    exact h hc
  unfold labelChar
  split <;> simp [hne]

lemma notMem_arrow (dashed : Bool) : '\r' ∉ arrow dashed := by
  cases dashed <;> decide

lemma notMem_line {l : Link} (hends : ∀ k ∈ l.ends, '\r' ∉ k.2.toList)
    (hlabel : ∀ s ∈ l.label, '\r' ∉ s.toList) : '\r' ∉ l.line := by
  have hbetween : '\r' ∉ l.between := by
    unfold Link.between
    cases hl : Build.connectionLabel l.label with
    | none => simp [notMem_arrow]
    | some s =>
      have hs := notMem_label (hlabel s (Option.mem_filter_iff.1 hl).1)
      simp [notMem_arrow, hs]
  have hsource := notMem_node l.source.1 (hends l.source (by simp [Link.ends]))
  have htarget := notMem_node l.target.1 (hends l.target (by simp [Link.ends]))
  simp [Link.line_eq, hsource, hbetween, htarget]

lemma notMem_optionLines (o : Options) : ∀ line ∈ optionLines o, '\r' ∉ line := by
  have hnumber : '\r' ∉ (toString o.nodeSpacing).toList := by
    intro hmem
    rcases Number.mem_toString hmem with h | h
    · exact absurd h (by decide)
    · exact absurd h (by decide)
  have hname : '\r' ∉ o.direction.name.toList := by
    cases o.direction <;> decide
  intro line hline
  rcases List.mem_append.1 hline with hline | hline
  · simp only [direction] at hline
    split at hline
    · cases hline
    · rw [List.mem_singleton.1 hline, String.toList_append, List.mem_append, not_or]
      exact ⟨by decide, hname⟩
  · split at hline
    · cases hline
    · rw [List.mem_singleton.1 hline, String.toList_append, List.mem_append, not_or]
      exact ⟨by decide, hnumber⟩

/-- Only a label brings a carriage return into the text of a chart. -/
lemma notMem_render {g : Graph} (hg : g.Sound) (h : g.NoReturns)
    (hspacing : g.options.nodeSpacing.natAbs < 10 ^ Number.maxDigits) {t : String}
    (ht : g.render = .ok t) : '\r' ∉ t.toList := by
  obtain ⟨hkeys, hlabels⟩ := (Graph.noReturns_iff hg).1 h
  obtain ⟨ls, hls, -⟩ := Graph.exists_links hg
  have hends : ∀ k ∈ ls.flatMap Link.ends ++ g.isolatedKeys, '\r' ∉ k.2.toList := by
    intro k hk
    rw [← Graph.linkedKeys_eq hls, ← Graph.mem_keys_iff hg] at hk
    exact hkeys k hk
  have hlines : ∀ l ∈ ls, '\r' ∉ l.line := fun l hl =>
    notMem_line
      (fun k hk => hends k (List.mem_append_left _ (List.mem_flatMap.2 ⟨l, hl, hk⟩)))
      (hlabels l (hls ▸ List.mem_map.2 ⟨l, hl, rfl⟩))
  have hnodes : ∀ k ∈ g.isolatedKeys, '\r' ∉ node k.1 k.2 := fun k hk =>
    notMem_node k.1 (hends k (List.mem_append_right _ hk))
  rw [Graph.render_eq hls hspacing, Except.ok.injEq] at ht
  rw [← ht, text, String.toList_ofList, List.mem_flatMap]
  rintro ⟨line, hline, hmem⟩
  have hline' : '\r' ∉ line := by
    simp only [List.mem_append, List.mem_map] at hline
    rcases hline with hline | ⟨l, hl, rfl⟩ | ⟨k, hk, rfl⟩
    · exact notMem_optionLines g.options line hline
    · exact hlines l hl
    · exact hnodes k hk
  simp [hline'] at hmem

end Written

/-! ### Charts that are alike -/

/-- Two results are alike if they are the same error, or charts with the same nodes, connections and
options up to their ids. -/
def Build.SameByKeys : Except Number.TooLong Graph → Except Number.TooLong Graph → Prop
  | .ok g, .ok h => g.keys = h.keys ∧ g.links = h.links ∧ g.options = h.options
  | .error e, .error e' => e = e'
  | _, _ => False

namespace Build

variable {ids ids' : IdSupply}

/-- Up to its ids, a chart does not depend on the supply. -/
lemma sameByKeys_build {o : Options} {ts : List Token} (hfresh : ids.Fresh) (hfresh' : ids'.Fresh)
    (hlasts : ids.Lasts (idsNeeded ts)) (hlasts' : ids'.Lasts (idsNeeded ts)) :
    SameByKeys (build ids o ts).graph (build ids' o ts).graph := by
  have hfailure : (build ids' o ts).failure = (build ids o ts).failure := by
    rw [failure_build hlasts', failure_build hlasts]
  cases hg : (build ids o ts).graph with
  | error e =>
    rw [graph_eq_error_iff.2 (hfailure.trans (graph_eq_error_iff.1 hg))]
    rfl
  | ok g =>
    have hnone := (graph_eq_ok_iff.1 hg).1
    obtain ⟨h, hh⟩ : ∃ h, (build ids' o ts).graph = .ok h :=
      ⟨_, graph_eq_ok_iff.2 ⟨hfailure.trans hnone, rfl⟩⟩
    obtain ⟨hdepicts, hoptions⟩ := depicts_of_build hfresh hg
    obtain ⟨hdepicts', hoptions'⟩ := depicts_of_build hfresh' hh
    rw [hh]
    exact ⟨by rw [hdepicts.keys, hdepicts'.keys], by rw [hdepicts.links_eq, hdepicts'.links_eq],
      by rw [hoptions, hoptions']⟩

/-- A text without carriage returns gives a chart without them. -/
lemma noReturns_of_parse {o : Options} {text : String} {g : Graph} (hfresh : ids.Fresh)
    (hg : (parse ids o text).graph = .ok g) (htext : '\r' ∉ text.toList) : g.NoReturns := by
  have hdepicts := (depicts_of_build hfresh hg).1
  have hscan : ∀ t ∈ Token.ofText text, ∀ s ∈ t.inscription?, '\r' ∉ s.toList :=
    fun t ht s hs hmem => htext (Token.subset_of_mem_scan ht s hs hmem)
  rw [Graph.noReturns_iff hdepicts.sound, hdepicts.keys, hdepicts.links_eq]
  constructor
  · intro k hk
    exact hscan _ (mem_nodeKeys_iff.1 (List.mem_eraseDups.1 hk)) k.2 rfl
  · intro l hl s hs
    obtain ⟨l', hl', heq⟩ := List.mem_map.1 hl
    obtain rfl := Option.some.inj heq
    rw [links_eq_linksFrom] at hl'
    rcases label_of_mem_linksFrom l' hl' s hs with ⟨⟨⟩⟩ | hmem
    exact hscan _ hmem s rfl

end Build

/-- From the text of a chart whose labels fit their shapes, a chart is read that has its keys and
its connections. -/
lemma Graph.exists_parse_of_render {g : Graph} {ids : IdSupply} {t : String} (hg : g.Sound)
    (hfits : ∀ n ∈ g.nodes, n.shape.Fits n.label)
    (hspacing : g.options.nodeSpacing.natAbs < 10 ^ Number.maxDigits) (ht : g.render = .ok t)
    (hfresh : ids.Fresh) (hlasts : ids.Lasts (Build.idsNeeded (Token.ofText t))) :
    ∃ h, (Build.parse ids {} t).graph = .ok h ∧ (∀ k ∈ g.keys, k ∈ h.keys) ∧ h.links = g.links := by
  obtain ⟨ls, hls, hlabels⟩ := exists_links hg
  have hkeys (k : Node.Key) : k ∈ g.keys ↔ k ∈ ls.flatMap Link.ends ++ g.isolatedKeys := by
    rw [mem_keys_iff hg, linkedKeys_eq hls]
  have hfits' : ∀ k ∈ ls.flatMap Link.ends ++ g.isolatedKeys, k.1.Fits k.2 := by
    intro k hk
    obtain ⟨n, hn, rfl⟩ := List.mem_map.1 ((hkeys k).2 hk)
    exact hfits n hn
  have htokens : Token.ofText t = Written.chartTokens g.options ls g.isolatedKeys := by
    obtain rfl : Written.chart g.options ls g.isolatedKeys = t :=
      Except.ok.inj ((render_eq hls hspacing).symm.trans ht)
    exact Written.ofText_chart
      (fun l hl k hk => hfits' k (List.mem_append_left _ (List.mem_flatMap.2 ⟨l, hl, hk⟩)))
      (fun k hk => hfits' k (List.mem_append_right _ hk))
  obtain ⟨h, hh⟩ : ∃ h, (Build.parse ids {} t).graph = .ok h :=
    Build.exists_build hlasts (htokens ▸ Written.overlong?_chartTokens hspacing)
  have hdepicts := (Build.depicts_of_build hfresh hh).1
  rw [htokens] at hdepicts
  refine ⟨h, hh, ?_, ?_⟩
  · intro k hk
    rw [hdepicts.keys, List.mem_eraseDups, Written.nodeKeys_chartTokens]
    exact (hkeys k).1 hk
  · rw [hdepicts.links_eq, Written.links_chartTokens hlabels, hls]

/-! ### Saving and loading -/

namespace Store

open Files.Folder (WritesElsewhere)
open Build (parse SameByKeys idsNeeded)

variable {f : Files.Folder} {path : String} {place : List String} {g : Graph}

/-- A chart that was saved as text is loaded from its text with the line ends folded. -/
lemma exists_saveText (hr : f.resolve (Files.tidy path) true = .ok place) {t : String}
    (ht : g.render = .ok t) :
    ∃ saved, saveText f g path = .ok saved ∧
      ∀ later, Relation.ReflTransGen (WritesElsewhere place) saved later → ∀ ids o,
        loadText ids o later path
          = .ok (parse ids o (String.ofList (Text.foldLineEnds t.toList))) := by
  obtain ⟨saved, hsaved, hread⟩ := exists_writeText hr t
  refine ⟨saved, ?_, fun later hlater ids o => ?_⟩
  · rw [saveText, ht]
    exact hsaved
  · rw [loadText, hread later hlater]
    rfl

/-- A chart that was read and is saved as text is loaded like its text if no label has a carriage
return.  If all its labels fit their shapes, it is not loaded like its text otherwise. -/
theorem exists_saveText_loadText (ids : IdSupply) (text : String) (hfresh : ids.Fresh)
    (hg : (parse ids {} text).graph = .ok g)
    (hr : f.resolve (Files.tidy path) true = .ok place) :
    ∃ t saved, g.render = .ok t ∧ saveText f g path = .ok saved ∧
      ∀ later, Relation.ReflTransGen (WritesElsewhere place) saved later →
      ∀ ids₁ ids₂ : IdSupply, ids₁.Fresh → ids₁.Lasts (idsNeeded (Token.ofText t)) →
        ids₂.Fresh → ids₂.Lasts (idsNeeded (Token.ofText t)) →
        ∃ r, loadText ids₂ {} later path = .ok r ∧
          (g.NoReturns → SameByKeys (parse ids₁ {} t).graph r.graph) ∧
          ((∀ n ∈ g.nodes, n.shape.Fits n.label) →
            SameByKeys (parse ids₁ {} t).graph r.graph → g.NoReturns) := by
  have hsound := (Build.depicts_of_build hfresh hg).1.sound
  obtain ⟨ls, hls, -⟩ := Graph.exists_links hsound
  have hspacing := Build.natAbs_of_parse_lt hfresh Options.natAbs_usual_lt hg
  have ht := Graph.render_eq hls hspacing
  generalize Written.text _ = t at ht
  obtain ⟨saved, hsaved, hload⟩ := exists_saveText hr ht
  refine ⟨t, saved, ht, hsaved, fun later hlater ids₁ ids₂ hfresh₁ hlasts₁ hfresh₂ hlasts₂ =>
    ⟨_, hload later hlater ids₂ {}, fun hreturns => ?_, fun hfits hsame => ?_⟩⟩
  · rw [Text.foldLineEnds_eq_self (Written.notMem_render hsound hreturns hspacing ht),
      String.ofList_toList]
    exact Build.sameByKeys_build hfresh₁ hfresh₂ hlasts₁ hlasts₂
  · obtain ⟨h, hh, hkeys, hlinks⟩ := Graph.exists_parse_of_render hsound hfits hspacing ht
      hfresh₁ hlasts₁
    cases hk : (parse ids₂ {} (String.ofList (Text.foldLineEnds t.toList))).graph with
    | error e => simp [hh, hk, SameByKeys] at hsame
    | ok k =>
      rw [hh, hk] at hsame
      obtain ⟨hkeys', hlinks', -⟩ := hsame
      -- the loaded chart has no carriage return, and it has all labels of this one
      have hreturns : k.NoReturns :=
        Build.noReturns_of_parse hfresh₂ hk (by simpa using Text.notMem_foldLineEnds t.toList)
      rw [Graph.noReturns_iff (Build.depicts_of_build hfresh₂ hk).1.sound, ← hkeys', ← hlinks',
        hlinks] at hreturns
      exact (Graph.noReturns_iff hsound).2
        ⟨fun key hkey => hreturns.1 key (hkeys key hkey), hreturns.2⟩

theorem exists_saveText_loadText_counting :
    let text := "[A]\r\n{B} \"x\" --> [A]"
    let g : Graph :=
      { nodes := [⟨"n1", .rectangle, "A", none⟩, ⟨"n2", .diamond, "B", none⟩]
        edges := [⟨"n3", "n2", "n1", some "x", some { strokeStyle := some .dashed }⟩] }
    (parse .counting {} text).graph = .ok g ∧ g.NoReturns ∧
      ∃ t saved r, g.render = .ok t ∧ saveText {} g "a.flow" = .ok saved ∧
        loadText .counting {} saved "a.flow" = .ok r ∧
        SameByKeys (parse .counting {} t).graph r.graph := by
  intro text g
  have hg : (parse .counting {} text).graph = .ok g := by decide +kernel
  have hreturns : g.NoReturns := ⟨by decide, by decide⟩
  have hfresh : IdSupply.counting.Fresh := IdSupply.sequential_fresh _ _
  obtain ⟨t, saved, ht, hsaved, hload⟩ := exists_saveText_loadText .counting text hfresh hg
    (rfl : Files.Folder.resolve {} (Files.tidy "a.flow") true = .ok ["a.flow"])
  have hlasts : IdSupply.counting.Lasts (idsNeeded (Token.ofText t)) := by
    obtain rfl : "{B} --> \"x\" --> [A]\n" = t := by
      refine Except.ok.inj (Eq.trans ?_ ht)
      decide +kernel
    decide +kernel
  obtain ⟨r, hr, hsame, -⟩ := hload saved .refl .counting .counting hfresh hlasts hfresh hlasts
  exact ⟨hg, hreturns, t, saved, r, ht, hsaved, hr, hsame hreturns⟩

/-- A carriage return in a label comes back as a line feed. -/
theorem loadText_saveText_return :
    ∃ g t h saved r k, (parse .counting {} "[a\rb]").graph = .ok g ∧ g.render = .ok t ∧
      (parse .counting {} t).graph = .ok h ∧ saveText {} g "a.flow" = .ok saved ∧
      loadText .counting {} saved "a.flow" = .ok r ∧ r.graph = .ok k ∧
      h.keys = [(.rectangle, "a\rb")] ∧ k.keys = [(.rectangle, "a\nb")] := by
  let g : Graph := { nodes := [⟨"n1", .rectangle, "a\rb", none⟩] }
  have ht : g.render = .ok "[a\rb]\n" := by decide +kernel
  obtain ⟨saved, hsaved, hload⟩ := exists_saveText
    (rfl : Files.Folder.resolve {} (Files.tidy "a.flow") true = .ok ["a.flow"]) ht
  exact ⟨g, _, g, saved, _, { nodes := [⟨"n1", .rectangle, "a\nb", none⟩] }, by decide +kernel, ht,
    by decide +kernel, hsaved, hload saved .refl .counting {}, by decide +kernel, by decide,
    by decide⟩

end Store
end Flowchart
