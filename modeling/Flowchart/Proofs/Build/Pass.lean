import Flowchart.Proofs.Build.Ids
import Flowchart.Proofs.Build.Links

/-!
# One pass, token by token

What one token can do to the state of a pass is said here once, so that later proofs do not open
`State.step`:

* `ensureNode_eq_ok_iff` and `connect_eq_ok_iff` for the two parts of a node token, and
  `mention_eq` and `exists_of_mention` for the whole of it;
* `applyDirective_cases` for a directive;
* `step_cases` for any token, as far as nodes and edges are concerned;
* `failure_run_cons` and `state_run_cons` for the way a pass goes on or stops.

The main results are `options_run`, which says what a pass does to the options, and `failure_run`: a
pass with enough ids fails exactly at the first spacing whose number has too many digits.  How many
ids are enough can be read off the tokens (`idsNeeded`).
-/

namespace Flowchart
namespace Build

/-! ### Keys that are new -/

/-- The keys of the node tokens that are not known yet, in the order of their first occurrence. -/
def newKeys (known : List Node.Key) (ts : List Token) : List Node.Key :=
  ((nodeKeys ts).removeAll known).eraseDups

lemma newKeys_nil_left (ts : List Token) : newKeys [] ts = (nodeKeys ts).eraseDups := by
  rw [newKeys, List.removeAll_nil]

lemma newKeys_of_mem {known : List Node.Key} {shape : Shape} {text : String}
    (h : (shape, text) ∈ known) (ts : List Token) :
    newKeys known (.node shape text :: ts) = newKeys known ts := by
  rw [newKeys, nodeKeys_cons_node, List.cons_removeAll]
  simp [h, newKeys]

lemma newKeys_of_not_mem {known : List Node.Key} {shape : Shape} {text : String}
    (h : (shape, text) ∉ known) (ts : List Token) :
    newKeys known (.node shape text :: ts)
      = (shape, text) :: newKeys (known ++ [(shape, text)]) ts := by
  -- erasing the later copies of a key is the same as knowing it
  have hfilter : ((nodeKeys ts).removeAll known).filter (fun k => !k == (shape, text))
      = (nodeKeys ts).removeAll (known ++ [(shape, text)]) := by
    rw [List.removeAll, List.filter_filter, List.removeAll]
    refine List.filter_congr fun k _ => ?_
    by_cases hk : k = (shape, text) <;> simp [hk]
  rw [newKeys, nodeKeys_cons_node, List.cons_removeAll]
  simp only [List.elem_eq_mem, h, decide_false, if_true]
  rw [List.eraseDups_cons, hfilter, newKeys]

/-! ### Node tokens -/

namespace State

variable {s s' : State} {key : Node.Key} {n : Node}

/-- The keys of the nodes built so far. -/
def keys (s : State) : List Node.Key := s.nodes.map Node.key

/-- The node that the next id makes. -/
def newNode (s : State) (key : Node.Key) : Node := ⟨s.ids.name s.ids.drawn, key.1, key.2, none⟩

/-- The state after a node was added. -/
def addNode (s : State) (key : Node.Key) : State :=
  { s with nodes := s.nodes ++ [s.newNode key], ids := s.ids.next }

/-- The edge that the next id makes. -/
def newEdge (s : State) (m n : Node) : Edge :=
  ⟨s.ids.name s.ids.drawn, m.id, n.id, connectionLabel s.chain.label,
    connectionStyle s.chain.dashed⟩

/-- The state after an edge was added. -/
def addEdge (s : State) (m n : Node) : State :=
  { s with
    edges := s.edges ++ [s.newEdge m n]
    ids := s.ids.next
    chain := { s.chain with label := none, dashed := false } }

/-- The state in which the line goes on from a node. -/
def goOnFrom (s : State) (n : Node) : State :=
  { s with chain := { s.chain with arrow := false, last := some n } }

@[simp] lemma key_newNode (s : State) (key : Node.Key) : (s.newNode key).key = key := rfl

@[simp] lemma keys_addNode (s : State) (key : Node.Key) :
    (s.addNode key).keys = s.keys ++ [key] := by
  simp [keys, addNode]

lemma node?_eq_some (h : s.node? key = some n) : n ∈ s.nodes ∧ n.key = key :=
  ⟨List.mem_of_find?_eq_some h, by simpa using List.find?_some h⟩

lemma node?_eq_none_iff : s.node? key = none ↔ key ∉ s.keys := by
  simp [node?, keys]

/-- A node token finds its node or makes it. -/
lemma ensureNode_eq_ok_iff {a : Action} :
    s.ensureNode key = .ok (n, s', a) ↔
      (s.node? key = some n ∧ s' = s ∧ a = .nodeReused n.id) ∨
        (key ∉ s.keys ∧ s.ids.Offers s.ids.drawn ∧ n = s.newNode key ∧ s' = s.addNode key ∧
          a = .nodeCreated n.id) := by
  rw [← node?_eq_none_iff]
  cases hn : s.node? key with
  | some m =>
    simp only [ensureNode, hn, Except.ok.injEq, Prod.mk.injEq, Option.some.injEq, reduceCtorEq,
      false_and, or_false]
    constructor
    · rintro ⟨rfl, rfl, rfl⟩
      exact ⟨rfl, rfl, rfl⟩
    · rintro ⟨rfl, rfl, rfl⟩
      exact ⟨rfl, rfl, rfl⟩
  | none =>
    simp only [ensureNode, hn, reduceCtorEq, false_and, true_and, false_or]
    constructor
    · intro h
      cases hd : s.ids.draw with
      | error e => simp [hd, Except.map] at h
      | ok p =>
        obtain ⟨id, ids⟩ := p
        obtain ⟨ho, rfl, rfl⟩ := IdSupply.draw_eq_ok_iff.1 hd
        simp only [hd, Except.map, Except.ok.injEq, Prod.mk.injEq] at h
        obtain ⟨rfl, rfl, rfl⟩ := h
        exact ⟨ho, rfl, rfl, rfl⟩
    · rintro ⟨ho, rfl, rfl, rfl⟩
      rw [IdSupply.draw_eq_ok_iff.2 ⟨ho, rfl, rfl⟩]
      rfl

/-- A node is connected to the last node of the line, if there is one. -/
lemma connect_eq_ok_iff {as : List Action} :
    s.connect n = .ok (s', as) ↔
      (s.chain.last = none ∧ s' = s ∧ as = []) ∨
        ∃ m, s.chain.last = some m ∧ s.ids.Offers s.ids.drawn ∧ s' = s.addEdge m n ∧
          as = [.edgeCreated m.id n.id] := by
  cases hm : s.chain.last with
  | none => simp [connect, hm, eq_comm]
  | some m =>
    simp only [connect, hm, reduceCtorEq, false_and, false_or, Option.some.injEq, exists_eq_left']
    constructor
    · intro h
      cases hd : s.ids.draw with
      | error e => simp [hd, Except.map] at h
      | ok p =>
        obtain ⟨id, ids⟩ := p
        obtain ⟨ho, rfl, rfl⟩ := IdSupply.draw_eq_ok_iff.1 hd
        simp only [hd, Except.map, Except.ok.injEq, Prod.mk.injEq] at h
        obtain ⟨rfl, rfl⟩ := h
        exact ⟨ho, by simp [addEdge, newEdge, hm], rfl⟩
    · rintro ⟨ho, rfl, rfl⟩
      rw [IdSupply.draw_eq_ok_iff.2 ⟨ho, rfl, rfl⟩]
      simp [Except.map, addEdge, newEdge, hm]

lemma mention_eq {s₁ s₂ : State} {found : Action} {connected : List Action}
    (he : s.ensureNode key = .ok (n, s₁, found)) (hc : s₁.connect n = .ok (s₂, connected)) :
    s.mention key = { state := s₂.goOnFrom n, actions := found :: connected } := by
  simp only [mention, he, hc]
  rfl

lemma exists_of_mention (h : (s.mention key).failure = none) :
    ∃ n s₁ found s₂ connected, s.ensureNode key = .ok (n, s₁, found) ∧
      s₁.connect n = .ok (s₂, connected) := by
  cases he : s.ensureNode key with
  | error e => simp [mention, he] at h
  | ok p =>
    obtain ⟨n, s₁, found⟩ := p
    cases hc : s₁.connect n with
    | error e => simp [mention, he, hc] at h
    | ok q => exact ⟨n, s₁, found, q.1, q.2, rfl, hc⟩

end State

/-! ### Directives -/

/-- What a token does to the options, if it does not fail. -/
def directed (o : Options) : Token → Options
  | .directive text =>
    match applyDirective o text with
    | .ok (o', _) => o'
    | .error _ => o
  | _ => o

end Build

/-- The number of digits of a spacing that has too many of them. -/
def Token.overlong? : Token → Option Nat
  | .directive text =>
    let digits := (Number.leadingDigits (Token.directiveValue text).toList).length
    if Token.directiveName text = "spacing" ∧ Number.maxDigits < digits then some digits else none
  | _ => none

namespace Build

/-- A directive fails exactly if it is a spacing with too many digits.  If it sets a spacing, that
can be written. -/
lemma applyDirective_cases (o : Options) (text : String) :
    (∃ k, (Token.directive text).overlong? = some k ∧ applyDirective o text = .error (.read k)) ∨
      ((Token.directive text).overlong? = none ∧ ∃ o' a, applyDirective o text = .ok (o', a) ∧
        (o'.nodeSpacing = o.nodeSpacing ∨ o'.nodeSpacing.natAbs < 10 ^ Number.maxDigits)) := by
  unfold applyDirective Token.overlong?
  by_cases hdir : Token.directiveName text = "direction"
  · refine .inr ⟨by simp [hdir], ?_⟩
    simp only [hdir, if_true]
    split <;> exact ⟨_, _, rfl, .inl rfl⟩
  · by_cases hspace : Token.directiveName text = "spacing"
    · simp only [hspace, true_and, if_neg (show "spacing" ≠ "direction" by decide), if_true]
      rcases Number.leading_cases (Token.directiveValue text).toList with
        ⟨hlen, h⟩ | ⟨hlen, n?, h, hlt⟩
      · exact .inl ⟨_, if_pos hlen, by rw [h]; rfl⟩
      · refine .inr ⟨if_neg (by omega), ?_⟩
        rw [h]
        cases n? with
        | none => exact ⟨_, _, rfl, .inl rfl⟩
        | some n => exact ⟨_, _, rfl, .inr (hlt n rfl)⟩
    · exact .inr ⟨by simp [hspace], _, _, by rw [if_neg hdir, if_neg hspace], .inl rfl⟩

/-! ### Passes -/

section Run

variable {s : State} {t : Token} {ts : List Token}

lemma failure_run_cons (i : Nat) (s : State) (t : Token) (ts : List Token) :
    (run i s (t :: ts)).failure
      = (s.step t).failure.or (run (i + 1) (s.step t).state ts).failure := by
  cases h : (s.step t).failure <;> simp [run, h]

lemma state_run_cons (i : Nat) (ts : List Token) (h : (s.step t).failure = none) :
    (run i s (t :: ts)).state = (run (i + 1) (s.step t).state ts).state := by
  simp [run, h]

/-- A node token finds its node and connects it; the other tokens leave the nodes, the edges and the
ids as they are, and a line goes on from its last node or not at all. -/
lemma step_cases (h : (s.step t).failure = none) :
    ((s.step t).state.nodes = s.nodes ∧ (s.step t).state.edges = s.edges ∧
        (s.step t).state.ids = s.ids ∧ ∀ n ∈ (s.step t).state.chain.last, n ∈ s.chain.last) ∨
      ∃ key n s₁ found s₂ connected, s.ensureNode key = .ok (n, s₁, found) ∧
        s₁.connect n = .ok (s₂, connected) ∧ t = .node key.1 key.2 ∧
        (s.step t).state = s₂.goOnFrom n := by
  cases t with
  | newline => exact .inl ⟨rfl, rfl, rfl, fun _ hn => nomatch hn⟩
  | arrow dashed => exact .inl ⟨rfl, rfl, rfl, fun _ => id⟩
  | label text => exact .inl ⟨rfl, rfl, rfl, fun _ => id⟩
  | directive text =>
    cases ha : applyDirective s.options text with
    | error e => simp [State.step, State.direct, ha] at h
    | ok r =>
      have hstep : (s.step (.directive text)).state = { s with options := r.1 } := by
        simp [State.step, State.direct, ha]
      rw [hstep]
      exact .inl ⟨rfl, rfl, rfl, fun _ => id⟩
  | node shape text =>
    obtain ⟨n, s₁, found, s₂, connected, he, hc⟩ := State.exists_of_mention h
    refine .inr ⟨(shape, text), n, s₁, found, s₂, connected, he, hc, rfl, ?_⟩
    rw [State.step, State.mention_eq he hc]

/-- The options at the end of a pass are those that the directives leave. -/
lemma options_step (h : (s.step t).failure = none) :
    (s.step t).state.options = directed s.options t := by
  cases t with
  | newline => rfl
  | arrow dashed => rfl
  | label text => rfl
  | directive text =>
    cases ha : applyDirective s.options text with
    | error e => simp [State.step, State.direct, ha] at h
    | ok r => simp [State.step, State.direct, directed, ha]
  | node shape text =>
    obtain ⟨n, s₁, found, s₂, connected, he, hc⟩ := State.exists_of_mention h
    simp only [State.step, State.mention_eq he hc, State.goOnFrom, directed]
    have h₁ : s₁.options = s.options := by
      rcases State.ensureNode_eq_ok_iff.1 he with ⟨-, rfl, -⟩ | ⟨-, -, -, rfl, -⟩ <;> rfl
    have h₂ : s₂.options = s₁.options := by
      rcases State.connect_eq_ok_iff.1 hc with ⟨-, rfl, -⟩ | ⟨m, -, -, rfl, -⟩ <;> rfl
    rw [h₂, h₁]

lemma options_run (i : Nat) (h : (run i s ts).failure = none) :
    (run i s ts).state.options = ts.foldl directed s.options := by
  induction ts generalizing i s with
  | nil => rfl
  | cons t ts ih =>
    rw [failure_run_cons, Option.or_eq_none_iff] at h
    rw [state_run_cons i ts h.1, ih (i + 1) h.2, options_step h.1, List.foldl_cons]

end Run

/-! ### Failure -/

/-- The connections that the tokens that are left describe. -/
def State.linksLeft (s : State) (ts : List Token) : List Link :=
  linksFrom (s.chain.last.map Node.key) s.chain.label s.chain.dashed ts

/-- How many ids a pass draws for the tokens that are left. -/
def State.needs (s : State) (ts : List Token) : Nat :=
  (newKeys s.keys ts).length + (s.linksLeft ts).length

/-- How many ids the chart of a token list takes: one for each key and one for each connection. -/
def idsNeeded (ts : List Token) : Nat :=
  (nodeKeys ts).eraseDups.length + (links ts).length

lemma needs_initial (options : Options) (ids : IdSupply) (ts : List Token) :
    State.needs { options, ids } ts = idsNeeded ts := by
  rw [State.needs, idsNeeded, links_eq_linksFrom, ← newKeys_nil_left]
  rfl

namespace State

variable {s : State} {shape : Shape} {text : String} {ts : List Token} {k : Nat}

lemma exists_ensureNode
    (h : s.ids.Lasts ((newKeys s.keys (.node shape text :: ts)).length + k)) :
    ∃ n s' found, s.ensureNode (shape, text) = .ok (n, s', found) ∧ n.key = (shape, text) ∧
      s'.chain = s.chain ∧ s'.ids.Lasts ((newKeys s'.keys ts).length + k) := by
  by_cases hmem : (shape, text) ∈ s.keys
  · rw [newKeys_of_mem hmem] at h
    obtain ⟨n, hn⟩ : ∃ n, s.node? (shape, text) = some n := by
      rw [← Option.ne_none_iff_exists', Ne, node?_eq_none_iff, not_not]
      exact hmem
    exact ⟨n, s, _, ensureNode_eq_ok_iff.2 (.inl ⟨hn, rfl, rfl⟩), (node?_eq_some hn).2, rfl, h⟩
  · rw [newKeys_of_not_mem hmem, List.length_cons, Nat.add_right_comm] at h
    refine ⟨s.newNode (shape, text), s.addNode (shape, text), _,
      ensureNode_eq_ok_iff.2 (.inr ⟨hmem, h.offers, rfl, rfl, rfl⟩), rfl, rfl, ?_⟩
    rw [keys_addNode]
    exact h.next

lemma exists_connect {n : Node} (hn : n.key = (shape, text))
    (h : s.ids.Lasts (k + (s.linksLeft (.node shape text :: ts)).length)) :
    ∃ s' connected, s.connect n = .ok (s', connected) ∧ s'.keys = s.keys ∧
      (s'.goOnFrom n).ids.Lasts (k + ((s'.goOnFrom n).linksLeft ts).length) := by
  cases hlast : s.chain.last with
  | none =>
    refine ⟨s, [], connect_eq_ok_iff.2 (.inl ⟨hlast, rfl, rfl⟩), rfl, ?_⟩
    simpa [linksLeft, goOnFrom, hn, hlast, linksFrom] using h
  | some m =>
    simp only [linksLeft, hlast, Option.map_some, linksFrom, List.length_cons,
      ← Nat.add_assoc] at h
    refine ⟨s.addEdge m n, _, connect_eq_ok_iff.2 (.inr ⟨m, hlast, h.offers, rfl, rfl⟩), rfl, ?_⟩
    simpa [linksLeft, goOnFrom, addEdge, hn] using h.next

/-- A node token does not fail if there are enough ids for it and for what follows. -/
lemma exists_mention (h : s.ids.Lasts (s.needs (.node shape text :: ts))) :
    (s.mention (shape, text)).failure = none ∧
      (s.mention (shape, text)).state.ids.Lasts ((s.mention (shape, text)).state.needs ts) := by
  -- the node first, then the edge: each takes its id from what the other leaves
  obtain ⟨n, s₁, found, he, hn, hchain, h₁⟩ := exists_ensureNode h
  rw [linksLeft, ← hchain] at h₁
  obtain ⟨s₂, connected, hc, hkeys, h₂⟩ := exists_connect hn h₁
  rw [mention_eq he hc]
  refine ⟨rfl, ?_⟩
  rw [← hkeys] at h₂
  exact h₂

end State

/-- With enough ids, a pass fails exactly at the first spacing that has too many digits, and the
error says how many. -/
lemma failure_run {s : State} {ts : List Token} (i : Nat) (h : s.ids.Lasts (s.needs ts)) :
    (run i s ts).failure = (ts.findSome? Token.overlong?).map .read := by
  induction ts generalizing i s with
  | nil => rfl
  | cons t ts ih =>
    rw [failure_run_cons, List.findSome?_cons]
    cases t with
    | newline => exact ih (i + 1) h
    | arrow dashed => exact ih (i + 1) h
    | label text => exact ih (i + 1) h
    | node shape text =>
      -- the only step that draws ids, and there are enough of them
      obtain ⟨hnone, hrest⟩ := State.exists_mention h
      have hstep : (s.step (.node shape text)).failure = none := hnone
      rw [hstep, Option.none_or]
      exact ih (i + 1) hrest
    | directive text =>
      rcases applyDirective_cases s.options text with ⟨k, hlong, ha⟩ | ⟨hshort, o, a, ha, -⟩
      · have hstep : (s.step (.directive text)).failure = some (.read k) := by
          simp [State.step, State.direct, ha]
        rw [hstep, hlong]
        rfl
      · have hstep : s.step (.directive text)
            = { state := { s with options := o }, actions := [a] } := by
          simp [State.step, State.direct, ha]
        rw [hstep, hshort, Option.none_or]
        exact ih (i + 1) h

end Build
end Flowchart
