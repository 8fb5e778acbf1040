import Flowchart.Proofs.Build.Meaning
import Flowchart.Proofs.Lists
import Flowchart.Proofs.Token.Continued

/-!
# Editing a text

A pass only appends: a token adds at most one node and at most one edge behind those that are there
(`State.Adds`).  Together with what scanning says about texts that go on, this gives two laws for
texts that are being edited.

* `dropLast_prefix_parse`: while a text is being typed, the nodes and edges of its chart stay as
  they are, ids included, apart from the last of each.
* `parse_append_line`: two texts that are put together with a line end between them have the nodes,
  connections and options of the first and then those of the second.  The first text has to be
  `Closed`, which a single line end behind it shows.
-/

namespace Flowchart
namespace Build

/-! ### What a pass adds -/

namespace State

variable {s s' s'' : State} {k l : Nat} {ts us : List Token}

/-- A state has the nodes and edges of another, and then at most `k` more of each. -/
structure Adds (k : Nat) (s s' : State) : Prop where
  nodes : ∃ ns, s'.nodes = s.nodes ++ ns ∧ ns.length ≤ k
  edges : ∃ es, s'.edges = s.edges ++ es ∧ es.length ≤ k

lemma Adds.of_eq (hnodes : s'.nodes = s.nodes) (hedges : s'.edges = s.edges) : s.Adds k s' :=
  ⟨⟨[], by simp [hnodes]⟩, ⟨[], by simp [hedges]⟩⟩

lemma Adds.trans (h : s.Adds k s') (h' : s'.Adds l s'') : s.Adds (k + l) s'' := by
  obtain ⟨⟨ns, hn, hnk⟩, ⟨es, he, hek⟩⟩ := h
  obtain ⟨⟨ns', hn', hnl⟩, ⟨es', he', hel⟩⟩ := h'
  refine ⟨⟨ns ++ ns', ?_, ?_⟩, ⟨es ++ es', ?_, ?_⟩⟩
  · rw [hn', hn, List.append_assoc]
  · rw [List.length_append]
    omega
  · rw [he', he, List.append_assoc]
  · rw [List.length_append]
    omega

/-- A token adds at most one node and one edge. -/
lemma adds_step {t : Token} (h : (s.step t).failure = none) : s.Adds 1 (s.step t).state := by
  rcases step_cases h with ⟨hnodes, hedges, -, -⟩ | ⟨key, n, s₁, _, s₂, _, he, hc, -, hstep⟩
  · exact .of_eq hnodes hedges
  · -- the node comes from the first part of the token, the edge from the second
    have hnodes : ∃ ns, s₁.nodes = s.nodes ++ ns ∧ ns.length ≤ 1 ∧ s₁.edges = s.edges := by
      rcases ensureNode_eq_ok_iff.1 he with ⟨-, rfl, -⟩ | ⟨-, -, -, rfl, -⟩
      · exact ⟨[], by simp⟩
      · exact ⟨[s.newNode _], rfl, Nat.le_refl 1, rfl⟩
    have hedges : ∃ es, s₂.edges = s₁.edges ++ es ∧ es.length ≤ 1 ∧ s₂.nodes = s₁.nodes := by
      rcases connect_eq_ok_iff.1 hc with ⟨-, rfl, -⟩ | ⟨m, -, -, rfl, -⟩
      · exact ⟨[], by simp⟩
      · exact ⟨[s₁.newEdge m n], rfl, Nat.le_refl 1, rfl⟩
    obtain ⟨ns, hns, hnone, hsame⟩ := hnodes
    obtain ⟨es, hes, heone, hsame'⟩ := hedges
    rw [hstep]
    exact ⟨⟨ns, hsame'.trans hns, hnone⟩, ⟨es, hes.trans (by rw [hsame]), heone⟩⟩

lemma adds_run {i : Nat} (h : (run i s ts).failure = none) :
    s.Adds ts.length (run i s ts).state := by
  induction ts generalizing i s with
  | nil => exact .of_eq rfl rfl
  | cons t ts ih =>
    rw [failure_run_cons, Option.or_eq_none_iff] at h
    rw [state_run_cons i ts h.1, List.length_cons, Nat.add_comm]
    exact (adds_step h.1).trans (ih h.2)

end State

/-- A pass over two token lists goes over the first and then over the second. -/
lemma run_append {i : Nat} {s : State} {ts us : List Token}
    (h : (run i s (ts ++ us)).failure = none) :
    (run i s ts).failure = none ∧ (run (i + ts.length) (run i s ts).state us).failure = none ∧
      (run i s (ts ++ us)).state = (run (i + ts.length) (run i s ts).state us).state := by
  induction ts generalizing i s with
  | nil => exact ⟨rfl, h, rfl⟩
  | cons t ts ih =>
    rw [List.cons_append, failure_run_cons, Option.or_eq_none_iff] at h
    obtain ⟨h₁, h₂, hstate⟩ := ih h.2
    rw [List.cons_append, state_run_cons i _ h.1, state_run_cons i _ h.1, failure_run_cons, h.1,
      List.length_cons, Nat.add_comm ts.length, ← Nat.add_assoc]
    exact ⟨h₁, h₂, hstate⟩

/-! ### Typing -/

/-- If a token list and all but the last of another start with the same tokens, their charts agree
up to the last node and the last edge. -/
lemma dropLast_run_prefix {i : Nat} {s : State} {ts us : List Token} (h : ts.dropLast <+: us)
    (hts : (run i s ts).failure = none) (hus : (run i s us).failure = none) :
    (run i s ts).state.nodes.dropLast <+: (run i s us).state.nodes ∧
      (run i s ts).state.edges.dropLast <+: (run i s us).state.edges := by
  obtain ⟨last, hlast, hone⟩ : ∃ last, ts = ts.dropLast ++ last ∧ last.length ≤ 1 := by
    obtain rfl | ⟨init, t, rfl⟩ := List.eq_nil_or_concat ts
    · exact ⟨[], rfl, by simp⟩
    · exact ⟨[t], by simp, by simp⟩
  obtain ⟨rest, rfl⟩ := h
  generalize ts.dropLast = init at hlast hus ⊢
  subst hlast
  -- both passes come through the same state, and the last token adds at most one of each
  obtain ⟨-, hend, hstate⟩ := run_append hts
  obtain ⟨-, hend', hstate'⟩ := run_append hus
  obtain ⟨⟨ns, hns, hnone⟩, ⟨es, hes, heone⟩⟩ := State.adds_run hend
  obtain ⟨⟨ns', hns', -⟩, ⟨es', hes', -⟩⟩ := State.adds_run hend'
  rw [hstate, hstate', hns, hes, hns', hes']
  exact ⟨(dropLast_prefix_of_append (hnone.trans hone)).trans (List.prefix_append _ _),
    (dropLast_prefix_of_append (heone.trans hone)).trans (List.prefix_append _ _)⟩

/-- While a text is typed, all tokens but the last stay, and so do all nodes and edges of the chart
but the last, with their ids. -/
theorem dropLast_prefix_parse (ids : IdSupply) (o : Options) (p s : String)
    (h : p.toList <+: s.toList) :
    (Token.ofText p).dropLast <+: Token.ofText s ∧
      ∀ g g', (parse ids o p).graph = .ok g → (parse ids o s).graph = .ok g' →
        g.nodes.dropLast <+: g'.nodes ∧ g.edges.dropLast <+: g'.edges := by
  have htokens : (Token.ofText p).dropLast <+: Token.ofText s := by
    obtain ⟨u, hu⟩ := h
    rw [Token.ofText, Token.ofText, ← hu]
    exact Token.dropLast_scan_prefix p.toList u
  refine ⟨htokens, fun g g' hg hg' => ?_⟩
  obtain ⟨hp, rfl⟩ := graph_eq_ok_iff.1 hg
  obtain ⟨hs, rfl⟩ := graph_eq_ok_iff.1 hg'
  exact dropLast_run_prefix htokens hp hs

theorem dropLast_prefix_parse_typing :
    let p := "[A] -> {B} -> ["
    let s := "[A] -> {B} -> [[C]] --> \"x\" (D)"
    ∃ g g', (parse .counting {} p).graph = .ok g ∧ (parse .counting {} s).graph = .ok g' ∧
      g.nodes.dropLast <+: g'.nodes ∧ g.edges.dropLast <+: g'.edges ∧
      g.nodes.length = 3 ∧ g'.nodes.length = 4 := by
  intro p s
  have hp : (parse .counting {} p).failure = none := by decide +kernel
  have hs : (parse .counting {} s).failure = none := by decide +kernel
  have hg := graph_eq_ok_iff.2 ⟨hp, rfl⟩
  have hg' := graph_eq_ok_iff.2 ⟨hs, rfl⟩
  have hprefix : p.toList <+: s.toList := ⟨"[C]] --> \"x\" (D)".toList, by decide⟩
  obtain ⟨hnodes, hedges⟩ := (dropLast_prefix_parse .counting {} p s hprefix).2 _ _ hg hg'
  exact ⟨_, _, hg, hg', hnodes, hedges, by decide +kernel, by decide +kernel⟩

end Build

/-! ### Lines -/

namespace Token

/-- A line end behind a text ends a line and changes nothing else. -/
def Closed (s : String) : Prop := ofText (s ++ "\n") = ofText s ++ [.newline]

instance (s : String) : Decidable (Closed s) :=
  inferInstanceAs (Decidable (ofText (s ++ "\n") = ofText s ++ [.newline]))

/-- A closed text is scanned before a line end or a comment. -/
lemma Closed.ofText_append {s u : String} (hs : Closed s) (hu : EndsLine u.toList) :
    ofText (s ++ u) = ofText s ++ ofText u := by
  rw [Closed, ofText, String.toList_append] at hs
  rw [ofText, String.toList_append]
  exact scan_append_of_closed hs hu

lemma ofText_newline (t : String) : ofText ("\n" ++ t) = .newline :: ofText t := by
  rw [ofText, String.toList_append]
  exact readsAs_newline t.toList

/-- A comment is skipped up to its line end. -/
lemma ofText_comment {c : String} (hc : '\n' ∉ c.toList) (t : String) :
    ofText ("#" ++ c ++ "\n" ++ t) = .newline :: ofText t := by
  have hdrop : (c.toList ++ '\n' :: t.toList).dropWhile (· ≠ '\n') = '\n' :: t.toList := by
    rw [List.dropWhile_append_of_pos]
    · rfl
    · intro a ha
      simpa using ne_of_mem_of_not_mem ha hc
  have htext : ("#" ++ c ++ "\n" ++ t).toList = '#' :: (c.toList ++ '\n' :: t.toList) := by
    simp
  rw [ofText, htext, scan_cons, ← ofText_newline, ofText, String.toList_append]
  exact congrArg scan hdrop

end Token

namespace Build

/-- Two texts with a line end between them are read one after the other: a closed text is not
changed by the line end, a comment in front of it makes no difference, and the chart has the
connections, the keys and the options of the two charts together. -/
theorem parse_append_line (s c t : String) (hs : Token.Closed s) (hc : '\n' ∉ c.toList) :
    Token.ofText (s ++ "\n" ++ t) = Token.ofText s ++ .newline :: Token.ofText t ∧
      Token.ofText (s ++ "#" ++ c ++ "\n" ++ t) = Token.ofText s ++ .newline :: Token.ofText t ∧
      ∀ (ids ids₁ ids₂ : IdSupply) (o o₂ : Options) (g g₁ g₂ : Graph),
        ids.Fresh → ids₁.Fresh → ids₂.Fresh →
        (parse ids₁ o s).graph = .ok g₁ → (parse ids₂ o₂ t).graph = .ok g₂ →
        (parse ids o (s ++ "\n" ++ t)).graph = .ok g →
        g.links = g₁.links ++ g₂.links ∧ g.keys = g₁.keys ++ g₂.keys.filter (· ∉ g₁.keys) ∧
          (o₂ = g₁.options → g.options = g₂.options) := by
  have hline : Token.ofText (s ++ "\n" ++ t) = Token.ofText s ++ .newline :: Token.ofText t := by
    rw [String.append_assoc, hs.ofText_append (.inl (by simp)), Token.ofText_newline]
  have hcomment : Token.ofText (s ++ "#" ++ c ++ "\n" ++ t)
      = Token.ofText s ++ .newline :: Token.ofText t := by
    have htext : s ++ "#" ++ c ++ "\n" ++ t = s ++ ("#" ++ c ++ "\n" ++ t) := by
      simp only [String.append_assoc]
    rw [htext, hs.ofText_append (.inr (by simp)), Token.ofText_comment hc]
  refine ⟨hline, hcomment, ?_⟩
  intro ids ids₁ ids₂ o o₂ g g₁ g₂ hfresh hfresh₁ hfresh₂ hg₁ hg₂ hg
  obtain ⟨hdepicts₁, hoptions₁⟩ := depicts_of_build hfresh₁ hg₁
  obtain ⟨hdepicts₂, hoptions₂⟩ := depicts_of_build hfresh₂ hg₂
  rw [parse, hline] at hg
  obtain ⟨hdepicts, hoptions⟩ := depicts_of_build hfresh hg
  refine ⟨?_, ?_, ?_⟩
  · rw [hdepicts.links_eq, hdepicts₁.links_eq, hdepicts₂.links_eq, links_eq_linksFrom,
      linksFrom_append_newline, ← links_eq_linksFrom, ← links_eq_linksFrom, List.map_append]
  · rw [hdepicts.keys, hdepicts₁.keys, hdepicts₂.keys, nodeKeys_append]
    exact eraseDups_append_filter _ _
  · rintro rfl
    rw [hoptions, hoptions₂, hoptions₁, List.foldl_append]
    rfl

theorem parse_append_line_comment :
    let s := "[A] -> {B} # yes"
    let t := "@spacing 3\n{B} --> [C]"
    ∃ g g₁ g₂, (parse .counting {} s).graph = .ok g₁ ∧
      (parse .counting g₁.options t).graph = .ok g₂ ∧
      (parse .counting {} (s ++ "\n" ++ t)).graph = .ok g ∧
      g.links = g₁.links ++ g₂.links ∧
      g.keys = [(.rectangle, "A"), (.diamond, "B"), (.rectangle, "C")] ∧
      g.options.nodeSpacing = 3 := by
  intro s t
  have h₁ : (parse .counting {} s).failure = none := by decide +kernel
  have hg₁ := graph_eq_ok_iff.2 ⟨h₁, rfl⟩
  have h₂ : (parse .counting (parse .counting {} s).state.graph.options t).failure = none := by
    decide +kernel
  have hg₂ := graph_eq_ok_iff.2 ⟨h₂, rfl⟩
  have h : (parse .counting {} (s ++ "\n" ++ t)).failure = none := by decide +kernel
  have hg := graph_eq_ok_iff.2 ⟨h, rfl⟩
  have hfresh : IdSupply.counting.Fresh := IdSupply.sequential_fresh _ _
  obtain ⟨hlinks, hkeys, hoptions⟩ := (parse_append_line s "" t (by decide +kernel) (by decide)).2.2
    _ _ _ _ _ _ _ _ hfresh hfresh hfresh hg₁ hg₂ hg
  refine ⟨_, _, _, hg₁, hg₂, hg, hlinks, ?_, ?_⟩
  · rw [hkeys]
    decide +kernel
  · rw [hoptions rfl]
    decide +kernel

end Build
end Flowchart
