import Flowchart.Build.Builder
import Flowchart.Proofs.Build.Directives

/-!
# Charts of one builder

The charts that a builder makes one after another do not depend on each other
(`buildAll_independent`).  Two things carry over from a build to the next, the supply of ids and the
trace, and of these only the supply makes a difference: a build depends on it by the names that are
still to come and by nothing else.

* `Alike` supplies have the same names to come.  A pass with one of them goes like a pass with the
  other, token by token (`Alike.run`).
* A pass draws an id for each node and each edge and for nothing else, so that the ids in use are
  those that were drawn (`Draws`).  This holds at every moment, also at the one at which a build
  fails.  An edge gets its id after its ends, since both are there when it is made.

Hence the ids of a whole series are ids that were drawn one after another, and no two of them are
the same.
-/

namespace Flowchart

/-! ### The names to come -/

namespace IdSupply

variable {ids ids' : IdSupply}

/-- Two supplies with the same names to come. -/
structure Alike (ids ids' : IdSupply) : Prop where
  name : ∀ k, ids.name (ids.drawn + k) = ids'.name (ids'.drawn + k)
  offers : ∀ k, ids.Offers (ids.drawn + k) ↔ ids'.Offers (ids'.drawn + k)

lemma Alike.next (h : ids.Alike ids') : ids.next.Alike ids'.next := by
  have hmove (ids : IdSupply) (k : Nat) : ids.next.drawn + k = ids.drawn + (k + 1) := by
    show ids.drawn + 1 + k = ids.drawn + (k + 1)
    omega
  have hoffers (ids : IdSupply) (k : Nat) :
      ids.next.Offers (ids.next.drawn + k) ↔ ids.Offers (ids.drawn + (k + 1)) := by
    rw [hmove]
    refine ⟨Offers.of_next, fun ho => ⟨?_, ho.2⟩⟩
    show ids.drawn + 1 ≤ ids.drawn + (k + 1)
    omega
  refine ⟨fun k => ?_, fun k => ?_⟩
  · rw [hmove, hmove]
    exact h.name (k + 1)
  · rw [hoffers, hoffers]
    exact h.offers (k + 1)

/-- Alike supplies hand out the same name, or both have run out. -/
lemma Alike.draw (h : ids.Alike ids') :
    (∃ id, ids.draw = .ok (id, ids.next) ∧ ids'.draw = .ok (id, ids'.next)) ∨
      ids.draw = .error .write ∧ ids'.draw = .error .write := by
  have hname : ids.name ids.drawn = ids'.name ids'.drawn := h.name 0
  have hoffers : ids.Offers ids.drawn ↔ ids'.Offers ids'.drawn := h.offers 0
  by_cases ho : ids.Offers ids.drawn
  · exact .inl ⟨_, draw_eq_ok_iff.2 ⟨ho, rfl, rfl⟩, draw_eq_ok_iff.2 ⟨hoffers.1 ho, hname, rfl⟩⟩
  · exact .inr ⟨draw_eq_error ho, draw_eq_error (mt hoffers.2 ho)⟩

lemma Alike.ahead (h : ids.Alike ids') (n : Nat) : ids.ahead n = ids'.ahead n := by
  induction n generalizing ids ids' with
  | zero => rfl
  | succ n ih =>
    have hname : ids.name ids.drawn = ids'.name ids'.drawn := h.name 0
    rw [ahead_succ, ahead_succ, ih h.next, hname]

lemma ahead_sequential (stem : String) (start : Int) (n : Nat) :
    (sequential stem start).ahead n
      = (List.range n).map fun (k : Nat) => stem ++ toString (start + k) := by
  rw [List.range_eq_range']
  rfl

/-- Counting on from where a count has come to. -/
lemma alike_sequential {stem : String} {start : Int} {n : Nat}
    (h : (sequential stem start).Lasts n) :
    ((sequential stem start).advance n).Alike (sequential stem (start + n)) := by
  refine ⟨fun k => ?_, fun k => ?_⟩
  · simp only [sequential, advance, Nat.zero_add]
    push_cast
    rw [add_assoc]
  · simp only [Lasts, sequential, Option.mem_some_iff, forall_eq'] at h
    simp only [Offers, sequential, advance, Option.mem_some_iff, forall_eq']
    generalize ((10 : Nat).pow Number.maxDigits : Int) = bound at h ⊢
    -- a count that cannot start offers nothing, and has not come anywhere
    split_ifs at h ⊢ <;> omega

end IdSupply

/-! ### Passes with alike supplies -/

namespace Build

/-- Two states that differ in nothing but their supplies, and not in the names to come. -/
structure State.Alike (s s' : State) : Prop where
  ids : s.ids.Alike s'.ids
  eq : s' = { s with ids := s'.ids }

namespace State.Alike

variable {s s' : State}

lemma ensureNode (h : s.Alike s') (key : Node.Key) :
    (∃ n a s₁ s₁', s.ensureNode key = .ok (n, s₁, a) ∧ s'.ensureNode key = .ok (n, s₁', a) ∧
        s₁.Alike s₁') ∨
      s.ensureNode key = .error .write ∧ s'.ensureNode key = .error .write := by
  have hnode : s'.node? key = s.node? key := by
    rw [h.eq]
    rfl
  cases hn : s.node? key with
  | some n =>
    exact .inl ⟨n, _, s, s', by rw [State.ensureNode, hn], by rw [State.ensureNode, hnode, hn], h⟩
  | none =>
    rcases h.ids.draw with ⟨id, hdraw, hdraw'⟩ | ⟨hdraw, hdraw'⟩
    · refine .inl ⟨_, _, _, _, by rw [State.ensureNode, hn, hdraw]; rfl,
        by rw [State.ensureNode, hnode, hn, hdraw']; rfl, h.ids.next, ?_⟩
      rw [h.eq]
    · exact .inr ⟨by rw [State.ensureNode, hn, hdraw]; rfl,
        by rw [State.ensureNode, hnode, hn, hdraw']; rfl⟩

lemma connect (h : s.Alike s') (n : Node) :
    (∃ as s₁ s₁', s.connect n = .ok (s₁, as) ∧ s'.connect n = .ok (s₁', as) ∧ s₁.Alike s₁') ∨
      s.connect n = .error .write ∧ s'.connect n = .error .write := by
  have hchain : s'.chain = s.chain := by rw [h.eq]
  cases hm : s.chain.last with
  | none =>
    exact .inl ⟨[], s, s', by rw [State.connect, hm], by rw [State.connect, hchain, hm], h⟩
  | some m =>
    rcases h.ids.draw with ⟨id, hdraw, hdraw'⟩ | ⟨hdraw, hdraw'⟩
    · refine .inl ⟨_, _, _, by rw [State.connect, hm, hdraw]; rfl,
        by rw [State.connect, hchain, hm, hdraw']; rfl, h.ids.next, ?_⟩
      rw [h.eq]
    · exact .inr ⟨by rw [State.connect, hm, hdraw]; rfl,
        by rw [State.connect, hchain, hm, hdraw']; rfl⟩

/-- A token does the same to both states. -/
lemma step (h : s.Alike s') (t : Token) :
    (s'.step t).failure = (s.step t).failure ∧ (s.step t).state.Alike (s'.step t).state := by
  cases t with
  | newline => exact ⟨rfl, h.ids, by rw [h.eq]; rfl⟩
  | arrow dashed => exact ⟨rfl, h.ids, by rw [h.eq]; rfl⟩
  | label text => exact ⟨rfl, h.ids, by rw [h.eq]; rfl⟩
  | directive text =>
    have hoptions : s'.options = s.options := by rw [h.eq]
    simp only [State.step, State.direct, hoptions]
    cases applyDirective s.options text with
    | error e => exact ⟨rfl, h⟩
    | ok p => exact ⟨rfl, h.ids, by rw [h.eq]⟩
  | node shape text =>
    simp only [State.step, State.mention]
    rcases h.ensureNode (shape, text) with ⟨n, a, s₁, s₁', he, he', h₁⟩ | ⟨he, he'⟩
    · rw [he, he']
      rcases h₁.connect n with ⟨as, s₂, s₂', hc, hc', h₂⟩ | ⟨hc, hc'⟩
      · simp only [hc, hc']
        exact ⟨trivial, h₂.ids, by rw [h₂.eq]⟩
      · simp only [hc, hc']
        exact ⟨trivial, h₁⟩
    · rw [he, he']
      exact ⟨rfl, h⟩

lemma run (h : s.Alike s') (i : Nat) (ts : List Token) :
    (run i s' ts).failure = (run i s ts).failure ∧
      (run i s ts).state.Alike (run i s' ts).state := by
  induction ts generalizing i s s' with
  | nil => exact ⟨rfl, h⟩
  | cons t ts ih =>
    obtain ⟨hfailure, hstate⟩ := h.step t
    cases hf : (s.step t).failure with
    | some e =>
      simp only [Build.run, hfailure, hf]
      exact ⟨trivial, hstate⟩
    | none =>
      simp only [Build.run, hfailure, hf]
      exact ih hstate (i + 1)

end State.Alike

/-- What comes of a build depends on the supply by the names to come. -/
lemma build_of_alike {ids ids' : IdSupply} (h : ids.Alike ids') (o : Options) (ts : List Token) :
    (build ids o ts).failure = (build ids' o ts).failure ∧
      (build ids o ts).graph = (build ids' o ts).graph := by
  have halike : State.Alike { options := o, ids } { options := o, ids := ids' } := ⟨h, rfl⟩
  obtain ⟨hfailure, hstate⟩ := halike.run 0 ts
  refine ⟨hfailure.symm, ?_⟩
  rw [Result.graph, Result.graph, build, build, hfailure, hstate.eq]
  rfl

end Build

/-! ### The ids that are drawn -/

namespace IdSupply

variable {ids : IdSupply} {n : Nat}

lemma ahead_succ_last (ids : IdSupply) (n : Nat) :
    ids.ahead (n + 1) = ids.ahead n ++ [(ids.advance n).name (ids.advance n).drawn] := by
  rw [ahead_add]
  rfl

lemma Lasts.succ (h : (ids.advance n).Offers (ids.advance n).drawn) : ids.Lasts (n + 1) :=
  fun size hsize => h.2 size hsize

end IdSupply

namespace Build

/-- How many nodes and edges there are. -/
def State.size (s : State) : Nat := s.nodes.length + s.edges.length

/-- So far an id was drawn from the supply for each node and each edge, and for nothing else.  The
ids of an edge and of its ends were drawn in the order in which they were needed. -/
structure State.Draws (ids : IdSupply) (s : State) : Prop where
  ids_eq : s.ids = ids.advance s.size
  lasts : ids.Lasts s.size
  used : s.usedIds.Perm (ids.ahead s.size)
  order : ∀ e ∈ s.edges, List.Sublist [e.source, e.id] (ids.ahead s.size) ∧
    List.Sublist [e.target, e.id] (ids.ahead s.size)
  last_mem : ∀ n ∈ s.chain.last, n ∈ s.nodes

namespace State.Draws

variable {ids : IdSupply} {s s' : State} {n : Node}

lemma initial (hlasts : ids.Lasts 0) (o : Options) : State.Draws ids { options := o, ids } :=
  ⟨rfl, hlasts, List.Perm.refl [], by simp, by simp⟩

/-- Nothing is drawn if nothing is made. -/
lemma of_eq (h : s.Draws ids) (hnodes : s'.nodes = s.nodes) (hedges : s'.edges = s.edges)
    (hids : s'.ids = s.ids) (hlast : ∀ n ∈ s'.chain.last, n ∈ s.nodes) : s'.Draws ids := by
  have hsize : s'.size = s.size := by rw [State.size, State.size, hnodes, hedges]
  refine ⟨by rw [hids, hsize, h.ids_eq], by rw [hsize]; exact h.lasts, ?_, ?_, ?_⟩
  · rw [hsize, usedIds, hnodes, hedges]
    exact h.used
  · rw [hsize, hedges]
    exact h.order
  · rw [hnodes]
    exact hlast

/-- The next id is drawn for something new.  If that is an edge, its ends have their ids already. -/
lemma draw (h : s.Draws ids) (ho : s.ids.Offers s.ids.drawn) (hids : s'.ids = s.ids.next)
    (hsize : s'.size = s.size + 1)
    (hused : s'.usedIds.Perm (s.usedIds ++ [s.ids.name s.ids.drawn]))
    (hedges : ∀ e ∈ s'.edges, e ∈ s.edges ∨
      e.source ∈ s.usedIds ∧ e.target ∈ s.usedIds ∧ e.id = s.ids.name s.ids.drawn)
    (hlast : ∀ n ∈ s'.chain.last, n ∈ s'.nodes) : s'.Draws ids := by
  have hahead : ids.ahead (s.size + 1) = ids.ahead s.size ++ [s.ids.name s.ids.drawn] := by
    rw [IdSupply.ahead_succ_last, h.ids_eq]
  have hpair : ∀ id ∈ s.usedIds,
      List.Sublist [id, s.ids.name s.ids.drawn] (ids.ahead (s.size + 1)) := by
    intro id hid
    rw [hahead]
    exact (List.singleton_sublist.2 (h.used.mem_iff.1 hid)).append (List.Sublist.refl _)
  have hsub : List.Sublist (ids.ahead s.size) (ids.ahead (s.size + 1)) := by
    rw [hahead]
    exact List.sublist_append_left _ _
  refine ⟨?_, ?_, ?_, fun e he => ?_, hlast⟩
  · rw [hids, hsize, h.ids_eq]
    rfl
  · rw [hsize]
    exact IdSupply.Lasts.succ (h.ids_eq ▸ ho)
  · rw [hsize, hahead]
    exact hused.trans (h.used.append_right _)
  · rw [hsize]
    rcases hedges e he with hold | ⟨hsource, htarget, hnew⟩
    · exact ⟨(h.order e hold).1.trans hsub, (h.order e hold).2.trans hsub⟩
    · rw [hnew]
      exact ⟨hpair _ hsource, hpair _ htarget⟩

lemma addNode (h : s.Draws ids) (ho : s.ids.Offers s.ids.drawn) (key : Node.Key) :
    (s.addNode key).Draws ids := by
  refine h.draw ho rfl ?_ ?_ (fun e he => .inl he) fun n hn =>
    List.mem_append_left _ (h.last_mem n hn)
  · simp only [State.size, State.addNode, List.length_append, List.length_singleton]
    omega
  · have hused : (s.addNode key).usedIds
        = s.nodes.map Node.id ++ ([s.ids.name s.ids.drawn] ++ s.edges.map Edge.id) := by
      simp [usedIds, State.addNode, newNode]
    rw [hused, usedIds, List.append_assoc]
    exact List.perm_append_comm.append_left _

lemma addEdge {m : Node} (h : s.Draws ids) (ho : s.ids.Offers s.ids.drawn) (hm : m ∈ s.nodes)
    (hn : n ∈ s.nodes) : (s.addEdge m n).Draws ids := by
  have hid {k : Node} (hk : k ∈ s.nodes) : k.id ∈ s.usedIds :=
    List.mem_append_left _ (List.mem_map.2 ⟨k, hk, rfl⟩)
  refine h.draw ho rfl ?_ ?_ (fun e he => ?_) h.last_mem
  · simp [State.size, State.addEdge, Nat.add_assoc]
  · simp [usedIds, State.addEdge, newEdge]
  · rcases List.mem_append.1 he with he | he
    · exact .inl he
    · rw [List.mem_singleton.1 he]
      exact .inr ⟨hid hm, hid hn, rfl⟩

lemma ensureNode {key : Node.Key} {a : Action} (h : s.Draws ids)
    (he : s.ensureNode key = .ok (n, s', a)) : s'.Draws ids ∧ n ∈ s'.nodes := by
  rcases ensureNode_eq_ok_iff.1 he with ⟨hfind, rfl, -⟩ | ⟨-, ho, rfl, rfl, -⟩
  · exact ⟨h, (node?_eq_some hfind).1⟩
  · exact ⟨h.addNode ho key, by simp [State.addNode]⟩

lemma connect {as : List Action} (h : s.Draws ids) (hn : n ∈ s.nodes)
    (hc : s.connect n = .ok (s', as)) : s'.Draws ids ∧ n ∈ s'.nodes := by
  rcases connect_eq_ok_iff.1 hc with ⟨-, rfl, -⟩ | ⟨m, hlast, ho, rfl, -⟩
  · exact ⟨h, hn⟩
  · exact ⟨h.addEdge ho (h.last_mem m hlast) hn, hn⟩

/-- A token draws an id for what it makes, whether or not it fails in the end. -/
lemma step (h : s.Draws ids) (t : Token) : (s.step t).state.Draws ids := by
  cases t with
  | newline => exact h.of_eq rfl rfl rfl fun _ hn => nomatch hn
  | arrow dashed => exact h.of_eq rfl rfl rfl h.last_mem
  | label text => exact h.of_eq rfl rfl rfl h.last_mem
  | directive text =>
    simp only [State.step, State.direct]
    cases applyDirective s.options text with
    | error e => exact h
    | ok p => exact h.of_eq rfl rfl rfl h.last_mem
  | node shape text =>
    simp only [State.step, State.mention]
    cases he : s.ensureNode (shape, text) with
    | error e => exact h
    | ok p =>
      obtain ⟨n, s₁, found⟩ := p
      obtain ⟨h₁, hn⟩ := h.ensureNode he
      simp only
      cases hc : s₁.connect n with
      | error e => exact h₁
      | ok q =>
        obtain ⟨s₂, connected⟩ := q
        obtain ⟨h₂, hn₂⟩ := h₁.connect hn hc
        refine h₂.of_eq rfl rfl rfl ?_
        rintro m ⟨⟩
        exact hn₂

lemma run (h : s.Draws ids) (i : Nat) (ts : List Token) : (run i s ts).state.Draws ids := by
  induction ts generalizing i s with
  | nil => exact h
  | cons t ts ih =>
    cases hf : (s.step t).failure with
    | some e =>
      simp only [Build.run, hf]
      exact h.step t
    | none =>
      rw [state_run_cons i ts hf]
      exact ih (h.step t) (i + 1)

end State.Draws

end Build

/-! ### A series of builds -/

/-- The ids of the nodes and of the edges. -/
def Graph.ids (g : Graph) : List String := g.nodes.map Node.id ++ g.edges.map Edge.id

/-- The ids of the chart that a pass built; a pass that failed has none. -/
def Build.Result.usedIds (r : Build.Result) : List String :=
  match r.graph with
  | .ok g => g.ids
  | .error _ => []

namespace Builder

open Build

variable {b : Builder} {tss : List (List Token)} {ts : List Token} {i : Nat}

lemma options_buildAll (b : Builder) (tss : List (List Token)) :
    (b.buildAll tss).2.options = b.options := by
  induction tss generalizing b with
  | nil => rfl
  | cons ts tss ih => exact ih (b.build ts).2

lemma length_buildAll (b : Builder) (tss : List (List Token)) :
    (b.buildAll tss).1.length = tss.length := by
  induction tss generalizing b with
  | nil => rfl
  | cons ts tss ih => exact congrArg (· + 1) (ih (b.build ts).2)

/-- Each build is made by the builder that the builds before it have left. -/
lemma getElem?_buildAll (h : tss[i]? = some ts) :
    (b.buildAll tss).1[i]? = some ((b.buildAll (tss.take i)).2.build ts).1 ∧
      (b.buildAll (tss.take (i + 1))).2 = ((b.buildAll (tss.take i)).2.build ts).2 := by
  induction tss generalizing b i with
  | nil => simp at h
  | cons us tss ih =>
    cases i with
    | zero =>
      obtain rfl : us = ts := by simpa using h
      exact ⟨rfl, rfl⟩
    | succ i => exact ih (b := (b.build us).2) h

lemma draws_build (hlasts : b.ids.Lasts 0) (ts : List Token) :
    (b.build ts).1.state.Draws b.ids :=
  (State.Draws.initial hlasts b.options).run 0 ts

lemma usedIds_build (hlasts : b.ids.Lasts 0) (ts : List Token) :
    List.Subperm (b.build ts).1.usedIds (b.ids.ahead (b.build ts).1.state.size) := by
  have hdraws := draws_build hlasts ts
  unfold Result.usedIds
  split
  · next g hg =>
    obtain ⟨-, rfl⟩ := graph_eq_ok_iff.1 hg
    exact hdraws.used.subperm
  · exact List.nil_subperm

/-- The supply moves on by the ids that were drawn, and those of the charts are among them. -/
lemma exists_advance (hlasts : b.ids.Lasts 0) (tss : List (List Token)) :
    ∃ n, (b.buildAll tss).2.ids = b.ids.advance n ∧ b.ids.Lasts n ∧
      List.Subperm ((b.buildAll tss).1.flatMap Result.usedIds) (b.ids.ahead n) := by
  induction tss generalizing b with
  | nil => exact ⟨0, rfl, hlasts, List.Subperm.refl []⟩
  | cons ts tss ih =>
    have hdraws := draws_build hlasts ts
    have hids : (b.build ts).2.ids = b.ids.advance (b.build ts).1.state.size := hdraws.ids_eq
    obtain ⟨n, hn, hlast, hsub⟩ := ih (b := (b.build ts).2) (by
      rw [hids]
      exact IdSupply.Lasts.advance hdraws.lasts)
    rw [hids] at hn hlast hsub
    refine ⟨(b.build ts).1.state.size + n, ?_, ?_, ?_⟩
    · rw [← IdSupply.advance_advance]
      exact hn
    · intro size hsize
      have := hlast size hsize
      simp only [IdSupply.advance] at this
      omega
    · rw [IdSupply.ahead_add]
      exact (usedIds_build hlasts ts).append hsub

/-- No two charts of a series have an id in common. -/
lemma nodup_usedIds (hfresh : b.ids.Fresh) (hlasts : b.ids.Lasts 0) (tss : List (List Token)) :
    ((b.buildAll tss).1.flatMap Result.usedIds).Nodup := by
  obtain ⟨n, -, hn, used, hperm, hsub⟩ := exists_advance hlasts tss
  exact hperm.nodup_iff.1 ((hfresh.nodup_ahead hn).sublist hsub)

/-- After some builds with a count, what is still to come is what a new count from there gives. -/
lemma exists_alike (stem : String) (start : Int) (o : Options) (trace : Option Trace)
    (tss : List (List Token)) :
    let c := (Builder.buildAll ⟨.sequential stem start, o, trace⟩ tss).2
    c.ids.Alike (.sequential stem (start + c.ids.drawn)) ∧ c.ids.Lasts 0 := by
  intro c
  obtain ⟨n, hids, hlasts, -⟩ := exists_advance (b := ⟨.sequential stem start, o, trace⟩)
    (fun _ _ => Nat.zero_le _) tss
  have hdrawn : c.ids.drawn = n := by
    rw [hids]
    exact Nat.zero_add n
  refine ⟨?_, ?_⟩
  · rw [hdrawn, hids]
    exact IdSupply.alike_sequential hlasts
  · rw [hids]
    exact IdSupply.Lasts.advance hlasts

/-- What comes of one build with a count that has come to `here`. -/
lemma build_counting {c : Builder} {stem : String} {here : Int}
    (halike : c.ids.Alike (.sequential stem here)) (hlasts : c.ids.Lasts 0) (ts : List Token) :
    (c.build ts).1.graph = (Build.build (.sequential stem here) c.options ts).graph ∧
      ((IdSupply.sequential stem here).Lasts (idsNeeded ts) →
        (c.build ts).1.failure = (ts.findSome? Token.overlong?).map .read) ∧
      ∀ g, (c.build ts).1.graph = .ok g →
        let size := g.nodes.length + g.edges.length
        let drawn := (List.range size).map fun (k : Nat) => stem ++ toString (here + k)
        (c.build ts).2.ids.drawn = c.ids.drawn + size ∧ g.ids.Perm drawn ∧
          ∀ e ∈ g.edges, List.Sublist [e.source, e.id] drawn ∧
            List.Sublist [e.target, e.id] drawn := by
  obtain ⟨hfailure, hgraph⟩ := Build.build_of_alike halike c.options ts
  refine ⟨hgraph, fun henough => hfailure.trans (failure_build henough), fun g hg => ?_⟩
  obtain ⟨-, rfl⟩ := graph_eq_ok_iff.1 hg
  have hdraws := draws_build hlasts ts
  have hahead := halike.ahead (c.build ts).1.state.size
  rw [IdSupply.ahead_sequential] at hahead
  have hused := hdraws.used
  have horder := hdraws.order
  rw [hahead] at hused horder
  exact ⟨congrArg IdSupply.drawn hdraws.ids_eq, hused, horder⟩

/-- The builds of one builder that counts do not depend on each other: each of them is that of a new
builder that counts on from where the count has come to.  A chart takes up the next numbers, one for
each node and each edge; an edge has a later number than its ends.  No id comes twice in a series,
and the options of the builder stay as they were. -/
theorem buildAll_independent (stem : String) (start : Int) (o : Options) (trace : Option Trace)
    (tss : List (List Token)) :
    let b : Builder := ⟨.sequential stem start, o, trace⟩
    let counter (i : Nat) : Int := start + (b.buildAll (tss.take i)).2.ids.drawn
    (b.buildAll tss).1.length = tss.length ∧
      (∀ i ts r, tss[i]? = some ts → (b.buildAll tss).1[i]? = some r →
        r.graph = ((⟨.sequential stem (counter i), o, none⟩ : Builder).build ts).1.graph ∧
        ((IdSupply.sequential stem (counter i)).Lasts (idsNeeded ts) →
          r.failure = (ts.findSome? Token.overlong?).map .read) ∧
        ∀ g, r.graph = .ok g →
          let size := g.nodes.length + g.edges.length
          let drawn := (List.range size).map fun (k : Nat) => stem ++ toString (counter i + k)
          counter (i + 1) = counter i + size ∧ g.ids.Perm drawn ∧
            ∀ e ∈ g.edges, List.Sublist [e.source, e.id] drawn ∧
              List.Sublist [e.target, e.id] drawn) ∧
      ((b.buildAll tss).1.flatMap Result.usedIds).Nodup ∧
      (b.buildAll tss).2.options = o := by
  intro b counter
  refine ⟨length_buildAll b tss, ?_, nodup_usedIds (IdSupply.sequential_fresh stem start)
    (fun _ _ => Nat.zero_le _) tss, options_buildAll b tss⟩
  intro i ts r hts hr
  obtain ⟨hresult, hnext⟩ := getElem?_buildAll (b := b) hts
  obtain rfl : ((b.buildAll (tss.take i)).2.build ts).1 = r :=
    Option.some.inj (hresult.symm.trans hr)
  obtain ⟨halike, hlasts⟩ := exists_alike stem start o trace (tss.take i)
  obtain ⟨hgraph, hfailure, hdrawn⟩ := build_counting halike hlasts ts
  rw [options_buildAll] at hgraph
  refine ⟨hgraph, hfailure, fun g hg => ?_⟩
  obtain ⟨hnumber, hused, horder⟩ := hdrawn g hg
  refine ⟨?_, hused, horder⟩
  show start + ((b.buildAll (tss.take (i + 1))).2.ids.drawn : Int)
    = start + (b.buildAll (tss.take i)).2.ids.drawn + (g.nodes.length + g.edges.length : Nat)
  rw [hnext, hnumber, add_assoc]
  rfl

/-- A directive at the end draws nothing, whether or not it fails. -/
lemma ids_build_directive (b : Builder) (t : Token) (text : String) :
    (b.build [t, .directive text]).2.ids = (b.build [t]).2.ids := by
  have hdirect (s : State) : (s.direct text).state.ids = s.ids := by
    unfold State.direct
    split <;> rfl
  show (run 0 _ [t, .directive text]).state.ids = (run 0 _ [t]).state.ids
  simp only [run, State.step]
  split
  · rfl
  · split <;> exact hdirect _

/-- A build that fails when an id has been drawn, between two that do not fail. -/
theorem buildAll_independent_overlong :
    let b : Builder := ⟨.sequential "n" 1, {}, none⟩
    let chart : List Token := [.node .rectangle "A", .arrow false, .node .ellipse "B"]
    let failing : List Token := [.node .rectangle "A", .spacing (List.replicate 4301 '9')]
    let builds := (b.buildAll [chart, failing, chart]).1
    (∃ r, builds[0]? = some r ∧ r.usedIds = ["n1", "n2", "n3"]) ∧
      (∃ r, builds[1]? = some r ∧ r.failure = some (.read 4301)) ∧
      ∃ r, builds[2]? = some r ∧ r.usedIds = ["n5", "n6", "n7"] := by
  intro b chart failing builds
  obtain ⟨-, hbuilds, -, -⟩ := buildAll_independent "n" 1 {} none [chart, failing, chart]
  have hdrawn : (Builder.buildAll ⟨.sequential "n" 1, {}, none⟩
      ([chart, failing, chart].take 2)).2.ids.drawn = 4 := by
    simp only [List.take_succ_cons, List.take_zero, buildAll, failing, Token.spacing,
      ids_build_directive]
    decide +kernel
  obtain ⟨r₁, hr₁⟩ : ∃ r, builds[1]? = some r := ⟨_, rfl⟩
  obtain ⟨r₂, hr₂⟩ : ∃ r, builds[2]? = some r := ⟨_, rfl⟩
  refine ⟨⟨_, rfl, by decide +kernel⟩, ⟨r₁, hr₁, ?_⟩, ⟨r₂, hr₂, ?_⟩⟩
  · have hnines : ∀ c ∈ List.replicate 4301 '9', Number.isDigit c = true := by
      intro c hc
      rw [List.eq_of_mem_replicate hc]
      decide
    rw [(hbuilds 1 failing r₁ rfl hr₁).2.1 (by decide +kernel), List.findSome?_cons,
      List.findSome?_cons, Token.overlong?_spacing, Number.leadingDigits_eq_self hnines,
      List.length_replicate]
    rfl
  · have hgraph := (hbuilds 2 chart r₂ rfl hr₂).1
    beta_reduce at hgraph
    rw [hdrawn] at hgraph
    rw [Result.usedIds, hgraph]
    decide +kernel

end Builder
end Flowchart
