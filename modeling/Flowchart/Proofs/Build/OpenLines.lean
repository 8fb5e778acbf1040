import Flowchart.Build.Builder
import Flowchart.Proofs.Build.Traced

/-!
# Lines that leave something open

What a line leaves open is thrown away when the line ends, and the trace and the log say so.  Which
lines are reported can be told from their tokens (`leavesOpen`), but the rule is not simply that
something stands behind the last node.  A node token takes the arrow in front of it whether or not it
makes a connection; a label is taken by a connection only, so the first node of a line leaves it as
it is.

`Chain.Holds` says what the chain holds after the tokens that a line has so far.  Every token of the
line preserves it (`Chain.Holds.step`), and where the line ends it decides what is reported.  So the
decisions about line ends are those of `lines`, line by line (`lineEnds_run`).

The main statement is `Builder.build_reports_open_lines`.
-/

namespace Flowchart

namespace Token

/-- Whether a token is an arrow. -/
def isArrow (t : Token) : Bool := t.dash?.isSome

/-- Whether a token is a quoted label. -/
def isLabel (t : Token) : Bool := t.labelText?.isSome

end Token

namespace Build

/-! ### Lines -/

/-- The lines of a token list, each with the index of the line end behind it.  The last line has no
line end. -/
def lines (ts : List Token) : List (List Token × Option Nat) :=
  (ts.splitOn .newline).zip ((ts.findIdxs (· == .newline)).map some ++ [none])

/-- What stands behind the last node of a line; without a node, the whole line. -/
def behindNodes (line : List Token) : List Token := line.rtakeWhile fun t => !t.isNode

/-- A line leaves something open if an arrow or a label stands behind its last node, or if it has a
label and no two nodes to connect. -/
def leavesOpen (line : List Token) : Bool :=
  (behindNodes line).any Token.isArrow || (behindNodes line).any Token.isLabel ||
    (line.countP Token.isNode ≤ 1 && line.any Token.isLabel)

/-- The lines from left to right: `line` is what the current line has so far, and the next token has
the index `i`. -/
def linesFrom (i : Nat) (line : List Token) : List Token → List (List Token × Option Nat)
  | [] => [(line, none)]
  | t :: ts =>
    if t = .newline then (line, some i) :: linesFrom (i + 1) [] ts
    else linesFrom (i + 1) (line ++ [t]) ts

lemma linesFrom_eq (i : Nat) (line ts : List Token) :
    linesFrom i line ts
      = ((ts.splitOn .newline).modifyHead (line ++ ·)).zip
          ((ts.findIdxs (· == .newline) i).map some ++ [none]) := by
  induction ts generalizing i line with
  | nil => simp [linesFrom]
  | cons t ts ih =>
    rw [linesFrom, List.splitOn_eq_splitOnP, List.splitOnP_cons_eq_if_modifyHead,
      List.findIdxs_cons]
    by_cases ht : t = .newline
    · have hempty : ((ts.splitOn .newline).modifyHead ([] ++ ·)) = ts.splitOn .newline := by
        cases ts.splitOn .newline <;> rfl
      simp only [ht, beq_self_eq_true, if_true, ih, hempty]
      simp [List.splitOn_eq_splitOnP]
    · have hne : (t == Token.newline) = false := by simpa using ht
      simp only [ht, hne, if_false, ih, Bool.false_eq_true]
      rw [List.splitOn_eq_splitOnP]
      cases ts.splitOnP (· == Token.newline) <;> simp

lemma map_snd_linesFrom (i : Nat) (line ts : List Token) :
    (linesFrom i line ts).map Prod.snd
      = (ts.findIdxs (· == .newline) i).map some ++ [none] := by
  induction ts generalizing i line with
  | nil => rfl
  | cons t ts ih =>
    rw [linesFrom, List.findIdxs_cons]
    by_cases ht : t = .newline <;> simp [ht, ih]

lemma lines_eq_linesFrom (ts : List Token) : lines ts = linesFrom 0 [] ts := by
  rw [linesFrom_eq, lines]
  cases ts.splitOn .newline <;> rfl

/-! ### What the chain holds -/

/-- What the chain holds after the tokens that a line has so far. -/
structure Chain.Holds (c : Chain) (line : List Token) : Prop where
  last : c.last.isSome = line.any Token.isNode
  arrow : c.arrow = (behindNodes line).any Token.isArrow
  label : c.label.isSome = ((behindNodes line).any Token.isLabel ||
    (line.countP Token.isNode ≤ 1 && line.any Token.isLabel))

lemma Chain.holds_initial : Chain.Holds {} [] := ⟨rfl, rfl, rfl⟩

/-- The chain is open exactly if the line leaves something open. -/
lemma Chain.Holds.isOpen_eq {c : Chain} {line : List Token} (h : c.Holds line) :
    c.isOpen = leavesOpen line := by
  rw [Chain.isOpen, h.arrow, h.label, leavesOpen, Bool.or_assoc]

lemma behindNodes_concat_node (line : List Token) (shape : Shape) (text : String) :
    behindNodes (line ++ [.node shape text]) = [] :=
  List.rtakeWhile_concat_neg _ _ _ (by simp [Token.isNode, Token.key?])

lemma behindNodes_concat {t : Token} (ht : t.isNode = false) (line : List Token) :
    behindNodes (line ++ [t]) = behindNodes line ++ [t] :=
  List.rtakeWhile_concat_pos _ _ _ (by simp [ht])

/-- Without a node, everything stands behind the last one. -/
lemma behindNodes_eq_self {line : List Token} (h : line.any Token.isNode = false) :
    behindNodes line = line := by
  rw [behindNodes, List.rtakeWhile_eq_self_iff]
  simpa using h

/-- A token that is no node adds itself to what the chain holds. -/
lemma Chain.Holds.concat {c c' : Chain} {t : Token} {line : List Token} (h : c.Holds line)
    (ht : t.isNode = false) (hlast : c'.last = c.last) (harrow : c'.arrow = (c.arrow || t.isArrow))
    (hlabel : c'.label.isSome = (c.label.isSome || t.isLabel)) : c'.Holds (line ++ [t]) := by
  refine ⟨?_, ?_, ?_⟩
  · simp [hlast, h.last, ht]
  · simp [harrow, h.arrow, behindNodes_concat ht]
  · rw [hlabel, h.label, behindNodes_concat ht]
    simp only [List.any_append, List.any_cons, List.any_nil, List.countP_append,
      List.countP_singleton, ht, Bool.false_eq_true, if_false, Nat.add_zero, Bool.or_false]
    cases t.isLabel <;> simp

variable {s : State} {t : Token} {line : List Token}

/-- A node token goes on from its node.  The arrow is gone, and so is the label if there was a node
to connect. -/
lemma chain_step_node {shape : Shape} {text : String}
    (h : (s.step (.node shape text)).failure = none) :
    ∃ n, (s.step (.node shape text)).state.chain.last = some n ∧
      (s.step (.node shape text)).state.chain.arrow = false ∧
      (s.step (.node shape text)).state.chain.label
        = if s.chain.last.isSome then none else s.chain.label := by
  obtain ⟨n, s₁, found, s₂, connected, he, hc⟩ := State.exists_of_mention h
  have hstep : (s.step (.node shape text)).state = s₂.goOnFrom n := by
    rw [State.step, State.mention_eq he hc]
  have hchain : s₁.chain = s.chain := by
    rcases State.ensureNode_eq_ok_iff.1 he with ⟨-, rfl, -⟩ | ⟨-, -, -, rfl, -⟩ <;> rfl
  rw [hstep, ← hchain]
  refine ⟨n, rfl, rfl, ?_⟩
  rcases State.connect_eq_ok_iff.1 hc with ⟨hlast, rfl, -⟩ | ⟨m, hlast, -, rfl, -⟩
  · rw [hlast]
    rfl
  · rw [hlast]
    rfl

/-- Every token of a line keeps the chain right. -/
lemma Chain.Holds.step (h : s.chain.Holds line) (ht : t ≠ .newline)
    (hf : (s.step t).failure = none) : (s.step t).state.chain.Holds (line ++ [t]) := by
  cases t with
  | newline => exact absurd rfl ht
  | arrow dashed =>
    exact h.concat rfl rfl (Bool.or_true _).symm (Bool.or_false _).symm
  | label text =>
    exact h.concat rfl rfl (Bool.or_false _).symm (Bool.or_true _).symm
  | directive text =>
    have hchain : (s.step (.directive text)).state.chain = s.chain := by
      cases ha : applyDirective s.options text <;> simp [State.step, State.direct, ha]
    rw [hchain]
    exact h.concat rfl rfl (Bool.or_false _).symm (Bool.or_false _).symm
  | node shape text =>
    have hnode : (Token.node shape text).isNode = true := rfl
    have hnoLabel : (Token.node shape text).isLabel = false := rfl
    obtain ⟨n, hlast, harrow, hlabel⟩ := chain_step_node hf
    refine ⟨by simp [hlast, hnode], by simp [harrow, behindNodes_concat_node], ?_⟩
    rw [hlabel, behindNodes_concat_node, List.countP_append, List.countP_singleton, if_pos hnode,
      List.any_append, h.last]
    by_cases hany : line.any Token.isNode = true
    · -- the line has two nodes now, and the label in front of the second one is taken
      have hpos : 0 < line.countP Token.isNode := by
        rw [List.countP_pos_iff]
        simpa using hany
      have htwo : ¬ line.countP Token.isNode + 1 ≤ 1 := by omega
      simp [hany, htwo]
    · -- the first node of the line leaves the label as it is
      rw [Bool.not_eq_true] at hany
      have hzero : line.countP Token.isNode = 0 := by
        rw [List.countP_eq_zero]
        simpa using hany
      simp [hany, hzero, h.label, behindNodes_eq_self hany, hnoLabel]

/-! ### Decisions about line ends -/

/-- A decision is about a line end, or made at the end of the tokens. -/
def isLineEnd (d : Decision) : Bool := d.place.all fun p => p.2 == .newline

/-- What is decided where a line ends. -/
def atLineEnd (line : List Token) (stop : Option Nat) : List Decision :=
  if leavesOpen line then [⟨stop.map (·, .newline), .pendingDiscarded⟩]
  else if line.any Token.isNode then stop.toList.map fun i => ⟨some (i, .newline), .chainReset⟩
  else []

lemma Chain.Holds.endLine (h : s.chain.Holds line) (i : Nat) :
    s.endLine.actions.map (⟨some (i, .newline), ·⟩) = atLineEnd line (some i) := by
  rw [State.endLine, h.isOpen_eq, h.last, atLineEnd]
  split_ifs <;> rfl

lemma Chain.Holds.atEnd (h : s.chain.Holds line) : s.atEnd = atLineEnd line none := by
  rw [State.atEnd, h.isOpen_eq, atLineEnd]
  split_ifs <;> rfl

lemma eq_of_mem_atEnd {d : Decision} (hd : d ∈ s.atEnd) : d = ⟨none, .pendingDiscarded⟩ := by
  rw [State.atEnd] at hd
  split_ifs at hd
  · exact List.mem_singleton.1 hd
  · simp at hd

/-- The decisions about line ends are made line by line. -/
lemma lineEnds_run {ts : List Token} (h : s.chain.Holds line) (i : Nat)
    (hf : (run i s ts).failure = none) :
    (run i s ts).decisions.filter isLineEnd
      = (linesFrom i line ts).flatMap fun l => atLineEnd l.1 l.2 := by
  induction ts generalizing i s line with
  | nil =>
    rw [linesFrom, List.flatMap_singleton, ← h.atEnd, run]
    refine List.filter_eq_self.2 fun d hd => ?_
    rw [eq_of_mem_atEnd hd]
    rfl
  | cons t ts ih =>
    rw [failure_run_cons, Option.or_eq_none_iff] at hf
    rw [decisions_run_cons i ts hf.1, List.filter_append, linesFrom]
    by_cases ht : t = .newline
    · subst ht
      have hall : ∀ d ∈ (s.step .newline).actions.map fun a => (⟨some (i, .newline), a⟩ : Decision),
          isLineEnd d = true := by
        intro d hd
        obtain ⟨a, -, rfl⟩ := List.mem_map.1 hd
        rfl
      rw [List.filter_eq_self.2 hall, ih Chain.holds_initial (i + 1) hf.2, if_pos rfl,
        List.flatMap_cons, ← h.endLine i]
      rfl
    · have hnone : ∀ d ∈ (s.step t).actions.map fun a => (⟨some (i, t), a⟩ : Decision),
          ¬ isLineEnd d = true := by
        intro d hd
        obtain ⟨a, -, rfl⟩ := List.mem_map.1 hd
        simpa [isLineEnd] using ht
      rw [List.filter_eq_nil_iff.2 hnone, List.nil_append, ih (h.step ht hf.1) (i + 1) hf.2,
        if_neg ht]

lemma Recorded.eq_newline {g g' : Graph} {as : List Action} (h : Recorded g g' t as)
    (hdiscarded : .pendingDiscarded ∈ as) : t = .newline := by
  cases h with
  | newline => rfl
  | created | reused => simp [Edge.creation] at hdiscarded
  | _ => simp at hdiscarded

/-- Only at line ends and at the end of the tokens is anything thrown away. -/
lemma isLineEnd_of_discarded {ts : List Token} (i : Nat) (hf : (run i s ts).failure = none) :
    ∀ d ∈ (run i s ts).decisions, d.action = .pendingDiscarded → isLineEnd d = true := by
  induction ts generalizing i s with
  | nil =>
    intro d hd _
    rw [eq_of_mem_atEnd hd]
    rfl
  | cons t ts ih =>
    rw [failure_run_cons, Option.or_eq_none_iff] at hf
    rw [decisions_run_cons i ts hf.1]
    intro d hd hdiscarded
    rcases List.mem_append.1 hd with hd | hd
    · obtain ⟨a, ha, rfl⟩ := List.mem_map.1 hd
      obtain rfl : a = .pendingDiscarded := hdiscarded
      obtain rfl := (recorded_step hf.1).eq_newline ha
      rfl
    · exact ih (i + 1) hf.2 d hd hdiscarded

/-- What is thrown away is what the lines leave open. -/
lemma discarded_run {ts : List Token} (h : s.chain.Holds line) (i : Nat)
    (hf : (run i s ts).failure = none) :
    (run i s ts).decisions.filter (fun d => d.action = .pendingDiscarded)
      = ((linesFrom i line ts).filter fun l => leavesOpen l.1).map
          fun l => ⟨l.2.map (·, .newline), .pendingDiscarded⟩ := by
  have hline (l : List Token × Option Nat) :
      (atLineEnd l.1 l.2).filter (fun d => d.action = .pendingDiscarded)
        = if leavesOpen l.1 then [⟨l.2.map (·, .newline), .pendingDiscarded⟩] else [] := by
    rw [atLineEnd]
    split_ifs
    · rfl
    · cases l.2 <;> rfl
    · rfl
  have hends : (run i s ts).decisions.filter (fun d => d.action = .pendingDiscarded)
      = ((run i s ts).decisions.filter isLineEnd).filter
          fun d => d.action = .pendingDiscarded := by
    rw [List.filter_filter]
    refine List.filter_congr fun d hd => ?_
    by_cases hdiscarded : d.action = .pendingDiscarded
    · simp [hdiscarded, isLineEnd_of_discarded i hf d hd hdiscarded]
    · simp [hdiscarded]
  rw [hends, lineEnds_run h i hf, List.filter_flatMap]
  simp only [hline]
  induction linesFrom i line ts with
  | nil => rfl
  | cons l ls ih =>
    rw [List.flatMap_cons, ih, List.filter_cons]
    split_ifs <;> rfl

lemma le_of_mem_linesFrom {i j : Nat} {l ts : List Token}
    (h : (l, some j) ∈ linesFrom i line ts) : i ≤ j := by
  have hmem : some j ∈ (linesFrom i line ts).map Prod.snd := List.mem_map_of_mem h
  rw [map_snd_linesFrom] at hmem
  have hstop : j ∈ ts.findIdxs (· == .newline) i := by simpa using hmem
  exact List.ge_of_mem_findIdxs j hstop

lemma le_of_mem_decisions {ts : List Token} (i : Nat) (hf : (run i s ts).failure = none) :
    ∀ d ∈ (run i s ts).decisions, ∀ p ∈ d.place, i ≤ p.1 := by
  induction ts generalizing i s with
  | nil =>
    intro d hd p hp
    rw [eq_of_mem_atEnd hd] at hp
    cases hp
  | cons t ts ih =>
    rw [failure_run_cons, Option.or_eq_none_iff] at hf
    rw [decisions_run_cons i ts hf.1]
    intro d hd p hp
    rcases List.mem_append.1 hd with hd | hd
    · obtain ⟨a, -, rfl⟩ := List.mem_map.1 hd
      obtain rfl : (i, t) = p := Option.some.inj hp
      exact le_rfl
    · exact Nat.le_of_succ_le (ih (i + 1) hf.2 d hd p hp)

/-- What is decided about one line end. -/
lemma decisions_at_lineEnd {ts l : List Token} {i j : Nat} (h : s.chain.Holds line)
    (hf : (run i s ts).failure = none) (hl : (l, some j) ∈ linesFrom i line ts) :
    (run i s ts).decisions.filter (fun d => d.place.map Prod.fst = some j)
      = atLineEnd l (some j) := by
  induction ts generalizing i s line with
  | nil => simp [linesFrom] at hl
  | cons t ts ih =>
    rw [failure_run_cons, Option.or_eq_none_iff] at hf
    rw [decisions_run_cons i ts hf.1, List.filter_append, List.filter_map]
    -- a line end further on has a greater index
    have hlater {line' : List Token} (hl : (l, some j) ∈ linesFrom (i + 1) line' ts) :
        (s.step t).actions.filter ((fun d : Decision => (d.place.map Prod.fst = some j : Bool)) ∘
          (⟨some (i, t), ·⟩)) = [] := by
      have hle := le_of_mem_linesFrom hl
      have hne : i ≠ j := by omega
      simp [Function.comp_def, hne]
    rw [linesFrom] at hl
    by_cases ht : t = .newline
    · subst ht
      rw [if_pos rfl, List.mem_cons] at hl
      rcases hl with hhere | hl
      · obtain ⟨rfl, hj⟩ := Prod.mk.inj hhere
        obtain rfl := Option.some.inj hj
        have hnone : (run (j + 1) (s.step .newline).state ts).decisions.filter
            (fun d => d.place.map Prod.fst = some j) = [] := by
          rw [List.filter_eq_nil_iff]
          intro d hd hplace
          obtain ⟨p, hp, hpj⟩ := Option.map_eq_some_iff.1 (of_decide_eq_true hplace)
          have := le_of_mem_decisions (j + 1) hf.2 d hd p hp
          omega
        rw [hnone, List.append_nil, ← h.endLine j]
        simp [Function.comp_def, State.step]
      · rw [hlater hl, List.map_nil, List.nil_append]
        exact ih Chain.holds_initial hf.2 hl
    · rw [if_neg ht] at hl
      rw [hlater hl, List.map_nil, List.nil_append]
      exact ih (h.step ht hf.1) hf.2 hl

/-! ### Records and log lines -/

/-- The record of what a line left open, with the index of its line end, or -1 for the last line. -/
def discardedRecord : Option Nat → Record
  | some i => ⟨i, "newline", "pending_discarded", ""⟩
  | none => ⟨-1, "end", "pending_discarded", ""⟩

/-- The line that the log has about it. -/
def discardedLogLine : Option Nat → String
  | some i => s!"Discarding dangling connection at token {i}"
  | none => "Discarding dangling connection at end of input"

/-- A line of the log is about something that was left open. -/
def isDiscardedLogLine (line : String) : Bool := "Discarding".toList.isPrefixOf line.toList

lemma record_discarded (stop : Option Nat) :
    Decision.record ⟨stop.map (·, .newline), .pendingDiscarded⟩ = discardedRecord stop := by
  cases stop <;> rfl

lemma record_action_iff (d : Decision) :
    d.record.action = "pending_discarded" ↔ d.action = .pendingDiscarded := by
  have haction : d.record.action = d.action.name := by
    rw [Decision.record]
    split <;> rfl
  rw [haction]
  cases d.action <;> simp [Action.name]

lemma record_index_iff (d : Decision) (i : Nat) :
    d.record.index = (i : Int) ↔ d.place.map Prod.fst = some i := by
  obtain ⟨place, action⟩ := d
  cases place with
  | none =>
    have hindex : Decision.record ⟨none, action⟩ = ⟨-1, "end", action.name, action.detail⟩ := rfl
    simp [hindex]
  | some p => simp [Decision.record]

lemma isDiscardedLogLine_discardedLogLine (stop : Option Nat) :
    isDiscardedLogLine (discardedLogLine stop) = true := by
  cases stop with
  | none => rfl
  | some i =>
    rw [isDiscardedLogLine, List.isPrefixOf_iff_prefix]
    refine ⟨" dangling connection at token ".toList ++ (toString i).toList, ?_⟩
    have hline : discardedLogLine (some i)
        = "Discarding dangling connection at token " ++ toString i := rfl
    have hfront : "Discarding dangling connection at token ".toList
        = "Discarding".toList ++ " dangling connection at token ".toList := rfl
    rw [hline, String.toList_append, ← List.append_assoc, ← hfront]

lemma filter_logLine? (d : Decision) :
    d.logLine?.filter isDiscardedLogLine
      = if d.action = .pendingDiscarded then some (discardedLogLine (d.place.map Prod.fst))
        else none := by
  obtain ⟨place, action⟩ := d
  cases action with
  | pendingDiscarded =>
    have hline : Decision.logLine? ⟨place, .pendingDiscarded⟩
        = some (discardedLogLine (place.map Prod.fst)) := by
      cases place <;> rfl
    rw [hline, if_pos rfl, Option.filter_some, if_pos (isDiscardedLogLine_discardedLogLine _)]
  | directiveIgnored name value =>
    have hother : isDiscardedLogLine s!"Ignoring directive @{name} {Text.quote value}" = false := by
      have hfront : "Ignoring directive @".toList = 'I' :: "gnoring directive @".toList := rfl
      simp only [isDiscardedLogLine, String.toList_append, toString, hfront]
      rfl
    rw [Decision.logLine?, Option.filter_some, hother]
    rfl
  | _ => rfl

end Build

namespace Builder

open Build

/-- If a chart is built and a trace is kept, then exactly the lines that leave something open are
reported as discarded, in their order, by a record and by a line of the log, at the line end or, for
the last line, at the end of the tokens.  Nothing else is recorded of such a line end.  Of any other
line end it is recorded that the chain was reset, if the line has a node, and else nothing. -/
theorem build_reports_open_lines (b : Builder) (trace : Trace) (ts : List Token) (g : Graph)
    (htrace : b.trace = some trace) (hg : (b.build ts).1.graph = .ok g) :
    ∃ trace' new, (b.build ts).2.trace = some trace' ∧ trace'.records = trace.records ++ new ∧
      new.filter (fun r => r.action = "pending_discarded")
        = ((lines ts).filter fun l => leavesOpen l.1).map (fun l => discardedRecord l.2) ∧
      (b.build ts).1.log.filter isDiscardedLogLine
        = ((lines ts).filter fun l => leavesOpen l.1).map (fun l => discardedLogLine l.2) ∧
      ∀ line i, (line, some i) ∈ lines ts →
        new.filter (fun r => r.index = (i : Int))
          = if leavesOpen line then [discardedRecord (some i)]
            else if line.any Token.isNode then [⟨i, "newline", "chain_reset", ""⟩]
            else [] := by
  obtain ⟨hnone, -⟩ := graph_eq_ok_iff.1 hg
  have hdiscarded := discarded_run Chain.holds_initial 0 hnone
  rw [← lines_eq_linesFrom] at hdiscarded
  have hrecords : (trace.addPass (b.build ts).1).records
      = trace.records ++ (b.build ts).1.decisions.map Decision.record := by
    simp [Trace.addPass, Trace.addRecords, Trace.addStage, hg]
  refine ⟨_, _, by rw [Builder.build, htrace]; rfl, hrecords, ?_, ?_, fun line i hline => ?_⟩
  · have hrecord : (fun r : Record => decide (r.action = "pending_discarded")) ∘ Decision.record
        = fun d => decide (d.action = .pendingDiscarded) :=
      funext fun d => decide_eq_decide.2 (record_action_iff d)
    rw [List.filter_map, hrecord]
    refine (congrArg (List.map Decision.record) hdiscarded).trans ?_
    rw [List.map_map]
    exact List.map_congr_left fun l _ => record_discarded l.2
  · rw [Result.log, List.filter_filterMap]
    have hlines : (b.build ts).1.decisions.filterMap
          (fun d => d.logLine?.filter isDiscardedLogLine)
        = ((b.build ts).1.decisions.filter fun d => d.action = .pendingDiscarded).map
            fun d => discardedLogLine (d.place.map Prod.fst) := by
      rw [← List.filterMap_eq_map, List.filterMap_filter]
      simp [filter_logLine?]
    refine hlines.trans ((congrArg (List.map _) hdiscarded).trans ?_)
    rw [List.map_map]
    refine List.map_congr_left fun l _ => ?_
    rw [Function.comp_apply, Option.map_map]
    simp [Function.comp_def]
  · have hindex : (fun r : Record => decide (r.index = (i : Int))) ∘ Decision.record
        = fun d => decide (d.place.map Prod.fst = some i) :=
      funext fun d => decide_eq_decide.2 (record_index_iff d i)
    rw [lines_eq_linesFrom] at hline
    rw [List.filter_map, hindex]
    refine (congrArg (List.map Decision.record)
      (decisions_at_lineEnd Chain.holds_initial hnone hline)).trans ?_
    rw [atLineEnd]
    split_ifs <;> rfl

/-- A label in front of the only node of its line is left open, an arrow in front of it is not. -/
theorem build_reports_open_lines_label :
    let b : Builder := { ids := .counting, trace := some {} }
    let ts : List Token :=
      [.label "x", .node .rectangle "A", .newline, .arrow false, .node .rectangle "A", .newline,
        .newline, .directive "up", .node .rectangle "A", .label "y", .node .diamond "B", .newline,
        .node .rectangle "A", .arrow true]
    let g : Graph :=
      ⟨[⟨"n1", .rectangle, "A", none⟩, ⟨"n2", .diamond, "B", none⟩],
        [⟨"n3", "n1", "n2", some "y", none⟩], {}⟩
    (b.build ts).1.graph = .ok g ∧ ∃ trace', (b.build ts).2.trace = some trace' ∧
      trace'.records.filter (fun r => r.action = "pending_discarded")
        = [⟨2, "newline", "pending_discarded", ""⟩, ⟨-1, "end", "pending_discarded", ""⟩] ∧
      (b.build ts).1.log.filter isDiscardedLogLine
        = ["Discarding dangling connection at token 2",
            "Discarding dangling connection at end of input"] ∧
      trace'.records.filter (fun r => r.index = 5) = [⟨5, "newline", "chain_reset", ""⟩] ∧
      trace'.records.filter (fun r => r.index = 6) = [] ∧
      trace'.records.filter (fun r => r.index = 11) = [⟨11, "newline", "chain_reset", ""⟩] := by
  intro b ts g
  have hg : (b.build ts).1.graph = .ok g := by decide +kernel
  obtain ⟨trace', new, htrace, hrecords, hdiscarded, hlog, hends⟩ :=
    build_reports_open_lines b {} ts g rfl hg
  obtain rfl : trace'.records = new := hrecords
  refine ⟨hg, trace', htrace, hdiscarded.trans (by decide +kernel), hlog.trans (by decide +kernel),
    (hends [.arrow false, .node .rectangle "A"] 5 ?_).trans ?_, (hends [] 6 ?_).trans ?_,
    (hends [.directive "up", .node .rectangle "A", .label "y", .node .diamond "B"] 11 ?_).trans ?_⟩
  all_goals decide +kernel

end Builder
end Flowchart
