import Flowchart.Build.Pass
import Mathlib

/-!
# The connections of a token list

A token list describes its connections line by line: one for each two consecutive node tokens of a
line.  The tokens between the two decide about it, the last quoted label giving the text and the
last arrow the dash; what stands in front of the first node of a line counts for its first
connection.  `links` says this with `List.splitOn`, `List.splitOnP` and `List.zipWith`, without a
state.

`linksFrom` reads the same connections from left to right, with what the line has left so far as
its arguments.  `links_eq_linksFrom` proves the two equal.
-/

namespace Flowchart

/-- A connection, told by the keys of its ends. -/
structure Link where
  /-- The key of the node where the connection starts. -/
  source : Node.Key
  /-- The key of the node where the connection ends. -/
  target : Node.Key
  label : Option String
  dashed : Bool
deriving DecidableEq, Repr

namespace Token

/-- The key of a node token. -/
def key? : Token → Option Node.Key
  | node shape text => some (shape, text)
  | _ => none

/-- The text of a quoted label. -/
def labelText? : Token → Option String
  | label text => some text
  | _ => none

/-- Whether an arrow is dashed. -/
def dash? : Token → Option Bool
  | arrow dashed => some dashed
  | _ => none

/-- Whether a token is a node token. -/
def isNode (t : Token) : Bool := t.key?.isSome

end Token

namespace Build

/-- The keys of the node tokens, in order and with repetitions. -/
def nodeKeys (ts : List Token) : List Node.Key := ts.filterMap Token.key?

/-- The last quoted label of a stretch of tokens. -/
def lastLabel (ts : List Token) : Option String := (ts.filterMap Token.labelText?).getLast?

/-- Whether the last arrow of a stretch of tokens is dashed. -/
def lastDash (ts : List Token) : Bool := (ts.filterMap Token.dash?).getLast?.getD false

/-- The connection between two nodes with a stretch of tokens that decides about it. -/
def linkOf (ends : Node.Key × Node.Key) (stretch : List Token) : Link :=
  ⟨ends.1, ends.2, connectionLabel (lastLabel stretch), lastDash stretch⟩

/-- The stretches that decide about the connections of a line: what lies between two consecutive
nodes, where the first stretch also has what stands before the first node. -/
def stretches (line : List Token) : List (List Token) :=
  match line.splitOnP Token.isNode with
  | before :: first :: rest => (before ++ first) :: rest
  | _ => []

/-- The connections of a line. -/
def lineLinks (line : List Token) : List Link :=
  List.zipWith linkOf ((nodeKeys line).zip (nodeKeys line).tail) (stretches line)

/-- The connections of a token list, line by line. -/
def links (ts : List Token) : List Link := (ts.splitOn .newline).flatMap lineLinks

/-- The connections of a token list, from left to right: `last` is the last node of the line so far,
`label` and `dashed` are what has been read for the next connection. -/
def linksFrom (last : Option Node.Key) (label : Option String) (dashed : Bool) :
    List Token → List Link
  | [] => []
  | .newline :: ts => linksFrom none none false ts
  | .directive _ :: ts => linksFrom last label dashed ts
  | .arrow dashed :: ts => linksFrom last label dashed ts
  | .label text :: ts => linksFrom last (some text) dashed ts
  | .node shape text :: ts =>
    match last with
    | none => linksFrom (some (shape, text)) label dashed ts
    | some a =>
      ⟨a, (shape, text), connectionLabel label, dashed⟩ ::
        linksFrom (some (shape, text)) none false ts

@[simp] lemma nodeKeys_nil : nodeKeys [] = [] := rfl

@[simp] lemma nodeKeys_cons_node (shape : Shape) (text : String) (ts : List Token) :
    nodeKeys (.node shape text :: ts) = (shape, text) :: nodeKeys ts := rfl

@[simp] lemma nodeKeys_append (ts us : List Token) :
    nodeKeys (ts ++ us) = nodeKeys ts ++ nodeKeys us := List.filterMap_append

lemma mem_nodeKeys_iff {k : Node.Key} {ts : List Token} :
    k ∈ nodeKeys ts ↔ .node k.1 k.2 ∈ ts := by
  rw [nodeKeys, List.mem_filterMap]
  constructor
  · rintro ⟨t, ht, hkey⟩
    cases t with
    | node shape text =>
      obtain rfl : (shape, text) = k := Option.some.inj hkey
      exact ht
    | _ => cases hkey
  · exact fun h => ⟨_, h, rfl⟩

lemma nodeKeys_cons_of_not_isNode {t : Token} (ht : t.isNode = false) (ts : List Token) :
    nodeKeys (t :: ts) = nodeKeys ts := by
  rw [nodeKeys, List.filterMap_cons_none (by simpa [Token.isNode] using ht), nodeKeys]

lemma nodeKeys_eq_nil {ts : List Token} (h : ∀ t ∈ ts, t.isNode = false) : nodeKeys ts = [] := by
  rw [nodeKeys, List.filterMap_eq_nil_iff]
  intro t ht
  simpa [Token.isNode] using h t ht

/-! ### One line -/

lemma lastLabel_append (r : List Token) (t : Token) :
    lastLabel (r ++ [t]) = t.labelText?.or (lastLabel r) := by
  cases t <;> simp [lastLabel, Token.labelText?]

lemma lastDash_append (r : List Token) (t : Token) :
    lastDash (r ++ [t]) = t.dash?.getD (lastDash r) := by
  cases t <;> simp [lastDash, Token.dash?]

/-- A token inside a line that is no node changes only what has been read for the next
connection. -/
lemma linksFrom_cons_of_not_isNode {t : Token} (ht : t.isNode = false) (hn : .newline ≠ t)
    (last : Option Node.Key) (r l : List Token) :
    linksFrom last (lastLabel r) (lastDash r) (t :: l)
      = linksFrom last (lastLabel (r ++ [t])) (lastDash (r ++ [t])) l := by
  rw [lastLabel_append, lastDash_append]
  cases t with
  | newline => exact absurd rfl hn
  | node shape text => simp [Token.isNode, Token.key?] at ht
  | arrow dashed => simp [linksFrom, Token.labelText?, Token.dash?]
  | label text => simp [linksFrom, Token.labelText?, Token.dash?]
  | directive text => simp [linksFrom, Token.labelText?, Token.dash?]

lemma exists_eq_node {t : Token} (ht : t.isNode = true) : ∃ shape text, t = .node shape text := by
  cases t with
  | node shape text => exact ⟨shape, text, rfl⟩
  | _ => simp [Token.isNode, Token.key?] at ht

lemma splitOnP_isNode_cons {t : Token} (ht : t.isNode = true) (l : List Token) :
    (t :: l).splitOnP Token.isNode = [] :: l.splitOnP Token.isNode := by
  rw [List.splitOnP_cons_eq_if_modifyHead, if_pos ht]

lemma modifyHead_splitOnP_cons {t : Token} (ht : t.isNode = false) (r l : List Token) :
    ((t :: l).splitOnP Token.isNode).modifyHead (r ++ ·)
      = (l.splitOnP Token.isNode).modifyHead (r ++ [t] ++ ·) := by
  rw [List.splitOnP_cons_eq_if_modifyHead, ht]
  cases l.splitOnP Token.isNode <;> simp

/-- The connections of the rest of a line, from the node `a` on.  The stretch `r` has been read
since that node (since the start of the line, if it is the first). -/
lemma linksFrom_some (a : Node.Key) (r l : List Token) (hl : .newline ∉ l) :
    linksFrom (some a) (lastLabel r) (lastDash r) l
      = List.zipWith linkOf ((a :: nodeKeys l).zip (nodeKeys l))
          ((l.splitOnP Token.isNode).modifyHead (r ++ ·)) := by
  induction l generalizing a r with
  | nil => rfl
  | cons t l ih =>
    rw [List.mem_cons, not_or] at hl
    by_cases ht : t.isNode = true
    · -- the connection ends here, and the next stretch starts empty
      rw [splitOnP_isNode_cons ht]
      obtain ⟨shape, text, rfl⟩ := exists_eq_node ht
      have ih := ih (shape, text) [] hl.2
      have hempty : (l.splitOnP Token.isNode).modifyHead ([] ++ ·) = l.splitOnP Token.isNode := by
        cases l.splitOnP Token.isNode <;> rfl
      rw [hempty] at ih
      rw [nodeKeys_cons_node, List.zip_cons_cons, List.modifyHead_cons, List.append_nil,
        List.zipWith_cons_cons, ← ih]
      rfl
    · have ht : t.isNode = false := by simpa using ht
      rw [linksFrom_cons_of_not_isNode ht hl.1, ih a (r ++ [t]) hl.2,
        modifyHead_splitOnP_cons ht, nodeKeys_cons_of_not_isNode ht]

/-- The connections of a line of which the stretch `r`, without a node, has been read. -/
lemma linksFrom_none (r l : List Token) (hr : ∀ t ∈ r, t.isNode = false) (hl : .newline ∉ l) :
    linksFrom none (lastLabel r) (lastDash r) l = lineLinks (r ++ l) := by
  induction l generalizing r with
  | nil => simp [linksFrom, lineLinks, nodeKeys_eq_nil hr]
  | cons t l ih =>
    rw [List.mem_cons, not_or] at hl
    by_cases ht : t.isNode = true
    · have hsplit := List.splitOnP_append_cons_of_forall_mem hr t ht l
      obtain ⟨shape, text, rfl⟩ := exists_eq_node ht
      have hstretches : stretches (r ++ .node shape text :: l)
          = (l.splitOnP Token.isNode).modifyHead (r ++ ·) := by
        obtain ⟨first, rest, h⟩ :=
          List.exists_cons_of_ne_nil (List.splitOnP_ne_nil Token.isNode l)
        rw [stretches, hsplit, h]
        rfl
      rw [lineLinks, nodeKeys_append, nodeKeys_eq_nil hr, List.nil_append, nodeKeys_cons_node,
        hstretches, List.tail_cons, ← linksFrom_some _ _ _ hl.2]
      rfl
    · have ht : t.isNode = false := by simpa using ht
      have hr' : ∀ u ∈ r ++ [t], u.isNode = false := by
        intro u hu
        rcases List.mem_append.1 hu with hu | hu
        · exact hr u hu
        · rwa [List.mem_singleton.1 hu]
      rw [linksFrom_cons_of_not_isNode ht hl.1, ih (r ++ [t]) hr' hl.2, List.append_assoc]
      rfl

lemma length_splitOnP_isNode (l : List Token) :
    (l.splitOnP Token.isNode).length = (nodeKeys l).length + 1 := by
  induction l with
  | nil => rfl
  | cons t l ih =>
    by_cases ht : t.isNode = true
    · rw [splitOnP_isNode_cons ht, List.length_cons, ih]
      obtain ⟨shape, text, rfl⟩ := exists_eq_node ht
      rfl
    · have ht : t.isNode = false := by simpa using ht
      rw [List.splitOnP_cons_eq_if_modifyHead, ht, nodeKeys_cons_of_not_isNode ht]
      simpa using ih

/-- A line has one connection fewer than nodes. -/
lemma length_lineLinks (line : List Token) :
    (lineLinks line).length = (nodeKeys line).length - 1 := by
  have h := length_splitOnP_isNode line
  simp only [lineLinks, stretches, List.length_zipWith, List.length_zip, List.length_tail]
  split
  · next before first rest heq =>
    simp only [heq, List.length_cons] at h ⊢
    omega
  · next hne =>
    -- without a node, the line is a single stretch
    have hone : (line.splitOnP Token.isNode).length ≤ 1 := by
      match hs : line.splitOnP Token.isNode with
      | [] => simp
      | [_] => simp
      | before :: first :: rest => exact absurd hs (hne before first rest)
    simp only [List.length_nil]
    omega

/-! ### All lines -/

/-- A line end forgets the line before it. -/
lemma linksFrom_append_newline (last : Option Node.Key) (label : Option String) (dashed : Bool)
    (l ts : List Token) :
    linksFrom last label dashed (l ++ .newline :: ts)
      = linksFrom last label dashed l ++ linksFrom none none false ts := by
  induction l generalizing last label dashed with
  | nil => rfl
  | cons t l ih => cases t <;> cases last <;> simp [linksFrom, ih]

/-- A connection never has an empty label. -/
lemma connectionLabel_of_mem_linksFrom {last : Option Node.Key} {label : Option String}
    {dashed : Bool} {ts : List Token} :
    ∀ l ∈ linksFrom last label dashed ts, connectionLabel l.label = l.label := by
  induction ts generalizing last label dashed with
  | nil => exact fun l hl => absurd hl List.not_mem_nil
  | cons t ts ih =>
    cases t with
    | node shape text =>
      cases last with
      | none => exact ih
      | some a =>
        intro l hl
        rcases List.mem_cons.1 hl with rfl | hl
        · simp [connectionLabel]
        · exact ih l hl
    | _ => exact ih

lemma beq_newline_of_not_mem {l : List Token} (hl : .newline ∉ l) :
    ∀ t ∈ l, (t == Token.newline) = false := by
  intro t ht
  rw [beq_eq_false_iff_ne]
  rintro rfl
  exact hl ht

/-- Reading from left to right finds the connections of all lines. -/
theorem links_eq_linksFrom (ts : List Token) : links ts = linksFrom none none false ts := by
  by_cases h : .newline ∈ ts
  · -- the first line, and then the rest by induction on the length
    obtain ⟨l, ts', rfl, hl⟩ := List.eq_append_cons_of_mem h
    have ih := links_eq_linksFrom ts'
    have hline := linksFrom_none [] l (by simp) hl
    rw [List.nil_append] at hline
    rw [linksFrom_append_newline, ← ih, links, List.splitOn_eq_splitOnP,
      List.splitOnP_append_cons_of_forall_mem (beq_newline_of_not_mem hl) _ (by simp),
      List.flatMap_cons, links, List.splitOn_eq_splitOnP]
    exact congrArg (· ++ _) hline.symm
  · have hline := linksFrom_none [] ts (by simp) h
    rw [links, List.splitOn_eq_splitOnP,
      List.splitOnP_eq_singleton (beq_newline_of_not_mem h), List.flatMap_singleton]
    exact hline.symm
termination_by ts.length
decreasing_by
  subst_vars
  simp only [List.length_append, List.length_cons]
  omega

end Build
end Flowchart
