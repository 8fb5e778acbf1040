import Flowchart.Proofs.Build.Meaning

/-!
# Directives and structure

A pass does two things that do not touch: the directives set the options, and the other tokens make
the nodes and the edges.  How the tokens of the two kinds are mixed makes no difference.

* Without the directives, a pass makes the same nodes and edges under the same ids, whatever options
  it starts with (`run_filter_not_isDirective`).
* With the directives alone, a pass sets the same options (`run_filter_isDirective`).
* Of the options, only the direction and the spacing change, and each is the one that was given last
  (`exists_foldl_directed`).  What a directive gives can be told from its name and the form of its
  value (`GivesDirection`, `GivesSpacing`).

`build_directives_apart` puts the three together.
-/

namespace Flowchart

/-! ### The last of several -/

/-- What the last element of a list that gives anything gives, or a usual value if none does. -/
inductive LastGiven {α β : Type} (gives : α → β → Prop) (usual : β) : List α → β → Prop
  | none (l : List α) (h : ∀ a ∈ l, ∀ b, ¬ gives a b) : LastGiven gives usual l usual
  | last (front later : List α) (a : α) (b : β) (h : gives a b)
      (hlater : ∀ a ∈ later, ∀ b, ¬ gives a b) : LastGiven gives usual (front ++ a :: later) b

/-- An element in front counts as long as none behind it gives anything. -/
lemma LastGiven.cons {α β : Type} {gives : α → β → Prop} {usual c : β} {a : α} {l : List α}
    {b? : Option β} (hb : ∀ b, b? = some b ↔ gives a b)
    (hl : LastGiven gives (b?.getD usual) l c) : LastGiven gives usual (a :: l) c := by
  obtain ⟨_, hnone⟩ | ⟨front, later, a', c, h, hlater⟩ := hl
  · cases b? with
    | none =>
      have ha : ∀ b, ¬ gives a b := fun b hab => nomatch (hb b).2 hab
      exact .none _ (List.forall_mem_cons.2 ⟨ha, hnone⟩)
    | some b => exact .last [] l a b ((hb b).1 rfl) hnone
  · exact .last (a :: front) later a' c h hlater

/-! ### What a directive gives -/

namespace Token

/-- The text of a directive. -/
def directive? : Token → Option String
  | directive text => some text
  | _ => none

/-- Whether a token is a directive. -/
def isDirective (t : Token) : Bool := t.directive?.isSome

lemma exists_eq_directive {t : Token} (h : t.isDirective = true) : ∃ text, t = .directive text := by
  cases t with
  | directive text => exact ⟨text, rfl⟩
  | _ => cases h

/-- A directive gives a direction if it is named `direction` and its value has the letters of the
direction, in upper or lower case. -/
def GivesDirection (text : String) (d : Direction) : Prop :=
  directiveName text = "direction" ∧
    (directiveValue text).toList.map Char.toUpper = d.name.toList

/-- A directive gives a spacing if it is named `spacing` and its value starts with a number. -/
def GivesSpacing (text : String) (n : Int) : Prop :=
  directiveName text = "spacing" ∧ Number.StartsWith (directiveValue text).toList n

end Token

lemma Direction.ofLetters?_eq_some_iff {s : List Char} {d : Direction} :
    Direction.ofLetters? s = some d ↔ s.map Char.toUpper = d.name.toList := by
  have hname (t : String) : Named.ofName? t = some d ↔ d.name = t := by
    constructor
    · intro h
      have hfound := List.find?_some (show List.find? _ Named.all = some d from h)
      exact of_decide_eq_true hfound
    · rintro rfl
      cases d <;> rfl
  rw [Direction.ofLetters?, hname, ← String.toList_inj, String.toList_ofList, eq_comm]

namespace Build

/-- The direction a directive sets, if it sets one. -/
def direction? (text : String) : Option Direction :=
  if Token.directiveName text = "direction" then
    Direction.ofLetters? (Token.directiveValue text).toList
  else none

lemma direction?_eq_some_iff {text : String} {d : Direction} :
    direction? text = some d ↔ Token.GivesDirection text d := by
  simp [direction?, Token.GivesDirection, Direction.ofLetters?_eq_some_iff]

/-- The number of a spacing that has too many digits is given, too, but it cannot be read. -/
lemma spacing?_eq_some_iff {text : String} (h : (Token.directive text).overlong? = none) {n : Int} :
    spacing? (.directive text) = some n ↔ Token.GivesSpacing text n := by
  by_cases hname : Token.directiveName text = "spacing"
  · have hshort : (Number.leadingDigits (Token.directiveValue text).toList).length
        ≤ Number.maxDigits := by
      simpa [Token.overlong?, hname] using h
    rw [Token.GivesSpacing, ← Number.leading_eq_some_iff hshort]
    cases hn : Number.leading (Token.directiveValue text).toList <;> simp [spacing?, hname, hn]
  · have hnone : spacing? (.directive text) = none := by
      unfold spacing?
      split <;> simp_all
    simp [hnone, Token.GivesSpacing, hname]

/-- A directive sets what it gives and leaves the other options as they are. -/
lemma directed_directive (o : Options) (text : String) :
    directed o (.directive text) =
      { o with
        direction := (direction? text).getD o.direction
        nodeSpacing := (spacing? (.directive text)).getD o.nodeSpacing } := by
  by_cases hdir : Token.directiveName text = "direction"
  · cases hd : Direction.ofLetters? (Token.directiveValue text).toList <;>
      simp [directed, applyDirective, direction?, spacing?, hdir, hd]
  by_cases hspace : Token.directiveName text = "spacing"
  · cases hn : Number.leading (Token.directiveValue text).toList with
    | error e => simp [directed, applyDirective, direction?, spacing?, hspace, hn, Except.map]
    | ok n? =>
      cases n? <;> simp [directed, applyDirective, direction?, spacing?, hspace, hn, Except.map]
  · simp [directed, applyDirective, direction?, spacing?, hdir, hspace]

lemma directed_of_not_isDirective {t : Token} (h : t.isDirective = false) (o : Options) :
    directed o t = o := by
  cases t with
  | directive text => cases h
  | _ => rfl

/-- Of several directives, the last that gives a direction and the last that gives a spacing
count. -/
lemma exists_foldl_directed {ts : List Token} (o : Options) (h : ∀ t ∈ ts, t.overlong? = none) :
    ∃ d n, ts.foldl directed o = { o with direction := d, nodeSpacing := n } ∧
      LastGiven Token.GivesDirection o.direction (ts.filterMap Token.directive?) d ∧
      LastGiven Token.GivesSpacing o.nodeSpacing (ts.filterMap Token.directive?) n := by
  induction ts generalizing o with
  | nil => exact ⟨o.direction, o.nodeSpacing, rfl, .none _ (by simp), .none _ (by simp)⟩
  | cons t ts ih =>
    rw [List.forall_mem_cons] at h
    obtain ⟨d, n, hfold, hd, hn⟩ := ih (directed o t) h.2
    rw [List.foldl_cons, hfold]
    cases t with
    | directive text =>
      rw [directed_directive] at hd hn ⊢
      exact ⟨d, n, rfl, hd.cons fun _ => direction?_eq_some_iff,
        hn.cons fun _ => spacing?_eq_some_iff h.1⟩
    | _ => exact ⟨d, n, rfl, hd, hn⟩

/-! ### Tokens that are no directives -/

namespace State

variable {s s' : State} {t : Token}

/-- A state with other options. -/
def withOptions (s : State) (o : Options) : State := { s with options := o }

lemma ensureNode_withOptions {key : Node.Key} {n : Node} {a : Action}
    (h : s.ensureNode key = .ok (n, s', a)) (o : Options) :
    (s.withOptions o).ensureNode key = .ok (n, s'.withOptions o, a) := by
  rcases ensureNode_eq_ok_iff.1 h with ⟨hn, rfl, rfl⟩ | ⟨hkey, hoffers, rfl, rfl, rfl⟩
  · exact ensureNode_eq_ok_iff.2 (.inl ⟨hn, rfl, rfl⟩)
  · exact ensureNode_eq_ok_iff.2 (.inr ⟨hkey, hoffers, rfl, rfl, rfl⟩)

lemma connect_withOptions {n : Node} {as : List Action} (h : s.connect n = .ok (s', as))
    (o : Options) : (s.withOptions o).connect n = .ok (s'.withOptions o, as) := by
  rcases connect_eq_ok_iff.1 h with ⟨hlast, rfl, rfl⟩ | ⟨m, hlast, hoffers, rfl, rfl⟩
  · exact connect_eq_ok_iff.2 (.inl ⟨hlast, rfl, rfl⟩)
  · exact connect_eq_ok_iff.2 (.inr ⟨m, hlast, hoffers, rfl, rfl⟩)

/-- For a token that is no directive, the options play no part. -/
lemma step_withOptions (ht : t.isDirective = false) (h : (s.step t).failure = none) (o : Options) :
    ((s.withOptions o).step t).failure = none ∧
      ((s.withOptions o).step t).state = (s.step t).state.withOptions o := by
  cases t with
  | newline => exact ⟨rfl, rfl⟩
  | arrow dashed => exact ⟨rfl, rfl⟩
  | label text => exact ⟨rfl, rfl⟩
  | directive text => cases ht
  | node shape text =>
    obtain ⟨n, s₁, found, s₂, connected, he, hc⟩ := exists_of_mention h
    have hmention := mention_eq (ensureNode_withOptions he o) (connect_withOptions hc o)
    simp only [step, mention_eq he hc, hmention]
    exact ⟨trivial, rfl⟩

/-- A directive does nothing but set the options, and what it sets depends on the options alone. -/
lemma step_directive {text : String} (h : (s.step (.directive text)).failure = none)
    (hs : s'.options = s.options) :
    (s'.step (.directive text)).failure = none ∧
      (s'.step (.directive text)).state
        = s'.withOptions (s.step (.directive text)).state.options := by
  cases ha : applyDirective s.options text with
  | error e => simp [step, direct, ha] at h
  | ok r => simp [step, direct, hs, ha, withOptions]

end State

/-! ### Passes -/

section Run

variable {s : State} {ts : List Token} {i : Nat}

/-- Without the directives, a pass comes to the same state but for the options. -/
lemma run_filter_not_isDirective (h : (run i s ts).failure = none) (j : Nat) (o : Options) :
    (run j (s.withOptions o) (ts.filter fun t => !t.isDirective)).failure = none ∧
      (run j (s.withOptions o) (ts.filter fun t => !t.isDirective)).state
        = (run i s ts).state.withOptions o := by
  induction ts generalizing i j s with
  | nil => exact ⟨rfl, rfl⟩
  | cons t ts ih =>
    rw [failure_run_cons, Option.or_eq_none_iff] at h
    rw [state_run_cons i ts h.1]
    by_cases ht : t.isDirective = true
    · -- the state after a directive has other options, which are replaced in any case
      obtain ⟨text, rfl⟩ := Token.exists_eq_directive ht
      have hsame : (s.step (.directive text)).state.withOptions o = s.withOptions o := by
        rw [(State.step_directive h.1 rfl).2]
        rfl
      rw [List.filter_cons_of_neg (by simp [ht]), ← hsame]
      exact ih h.2 j
    · rw [Bool.not_eq_true] at ht
      obtain ⟨hnone, hstate⟩ := State.step_withOptions ht h.1 o
      rw [List.filter_cons_of_pos (by simp [ht]), failure_run_cons, hnone, Option.none_or,
        state_run_cons j _ hnone, hstate]
      exact ih h.2 (j + 1)

/-- With the directives alone, a pass comes to the same options and changes nothing else. -/
lemma run_filter_isDirective (h : (run i s ts).failure = none) (j : Nat) {s' : State}
    (hs : s'.options = s.options) :
    (run j s' (ts.filter Token.isDirective)).failure = none ∧
      (run j s' (ts.filter Token.isDirective)).state
        = s'.withOptions (run i s ts).state.options := by
  induction ts generalizing i j s s' with
  | nil => exact ⟨rfl, by rw [List.filter_nil, run, run, ← hs]; rfl⟩
  | cons t ts ih =>
    rw [failure_run_cons, Option.or_eq_none_iff] at h
    rw [state_run_cons i ts h.1]
    by_cases ht : t.isDirective = true
    · obtain ⟨text, rfl⟩ := Token.exists_eq_directive ht
      obtain ⟨hnone, hstate⟩ := State.step_directive h.1 hs
      rw [List.filter_cons_of_pos ht, failure_run_cons, hnone, Option.none_or,
        state_run_cons j _ hnone, hstate]
      exact ih h.2 (j + 1) rfl
    · rw [List.filter_cons_of_neg ht]
      rw [Bool.not_eq_true] at ht
      refine ih h.2 j ?_
      rw [hs, options_step h.1, directed_of_not_isDirective ht]

/-- A pass that comes to its end has met no spacing with too many digits. -/
lemma overlong?_of_run (h : (run i s ts).failure = none) : ∀ t ∈ ts, t.overlong? = none := by
  induction ts generalizing i s with
  | nil => simp
  | cons t ts ih =>
    rw [failure_run_cons, Option.or_eq_none_iff] at h
    refine List.forall_mem_cons.2 ⟨?_, ih h.2⟩
    cases t with
    | directive text =>
      rcases applyDirective_cases s.options text with ⟨k, -, ha⟩ | ⟨hshort, -⟩
      · simp [State.step, State.direct, ha] at h
      · exact hshort
    | _ => rfl

end Run

/-- If a chart comes out, the tokens that are no directives give its nodes and edges under the same
ids, with any options, and the directives alone give its options, with any ids.  Only the direction
and the spacing can differ from the options at the start; each is the one that was given last, or
the one at the start if none was given. -/
theorem build_directives_apart (ids : IdSupply) (o : Options) (ts : List Token) (g : Graph)
    (hg : (build ids o ts).graph = .ok g) :
    (∀ o', (build ids o' (ts.filter fun t => !t.isDirective)).graph
        = .ok { g with options := o' }) ∧
      (∀ ids', (build ids' o (ts.filter Token.isDirective)).graph = .ok ⟨[], [], g.options⟩) ∧
      ∃ d n, g.options = { o with direction := d, nodeSpacing := n } ∧
        LastGiven Token.GivesDirection o.direction (ts.filterMap Token.directive?) d ∧
        LastGiven Token.GivesSpacing o.nodeSpacing (ts.filterMap Token.directive?) n := by
  obtain ⟨hnone, rfl⟩ := graph_eq_ok_iff.1 hg
  refine ⟨fun o' => ?_, fun ids' => ?_, ?_⟩
  · obtain ⟨hnone', hstate⟩ := run_filter_not_isDirective hnone 0 o'
    exact graph_eq_ok_iff.2 ⟨hnone', congrArg State.graph hstate⟩
  · have hs : ({ options := o, ids := ids' } : State).options = o := rfl
    obtain ⟨hnone', hstate⟩ := run_filter_isDirective hnone 0 hs
    exact graph_eq_ok_iff.2 ⟨hnone', congrArg State.graph hstate⟩
  · obtain ⟨d, n, hfold, hd, hn⟩ := exists_foldl_directed o (overlong?_of_run hnone)
    exact ⟨d, n, (options_run 0 hnone).trans hfold, hd, hn⟩

theorem build_directives_apart_mixed :
    let ts : List Token :=
      [.directive "direction lr", .node .rectangle "A", .label "x", .directive "spacing  -12px",
        .arrow true, .directive "spacing wide", .directive "Direction BT", .node .diamond "B",
        .directive "direction up"]
    let g : Graph :=
      ⟨[⟨"n1", .rectangle, "A", none⟩, ⟨"n2", .diamond, "B", none⟩],
        [⟨"n3", "n1", "n2", some "x", some { strokeStyle := some .dashed }⟩],
        { direction := .right, nodeSpacing := -12 }⟩
    (build .counting {} ts).graph = .ok g ∧
      (build .counting { padding := 7 }
          [.node .rectangle "A", .label "x", .arrow true, .node .diamond "B"]).graph
        = .ok { g with options := { padding := 7 } } ∧
      ∃ d n, g.options = { direction := d, nodeSpacing := n } ∧
        LastGiven Token.GivesDirection .down (ts.filterMap Token.directive?) d ∧
        LastGiven Token.GivesSpacing 50 (ts.filterMap Token.directive?) n := by
  intro ts g
  have hg : (build .counting {} ts).graph = .ok g := by decide +kernel
  obtain ⟨hstructure, -, hoptions⟩ := build_directives_apart .counting {} ts g hg
  exact ⟨hg, hstructure { padding := 7 }, hoptions⟩

end Build
end Flowchart
