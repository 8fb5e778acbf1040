import Flowchart.Token.Basic

/-!
# Scanning

Every text is a sequence of tokens: what fits no rule is skipped, and a construct that is not closed
runs to the end of the text.  So a chart can be scanned while it is being typed.

The rules, tried in this order at each character:

* a space or a tab is skipped, and a line feed is a `newline`;
* `#` starts a comment, which ends before the next line feed;
* `@` starts a directive: a name of ASCII letters and digits, then a value up to the next `#` or line
  feed, stripped;
* `[[` starts a database, which ends at the next `]]`;
* `[`, `{` and `(` start a rectangle, a diamond and an ellipse, which end at the bracket that
  balances the opening one;
* `-->` and `->` are arrows;
* `"` starts a label, which ends at the next `"`; a backslash takes the next character as it is;
* any other character is skipped.

`step` reads from one character on and says what is left, which is always shorter.  `scan` repeats
it, and `scanAt` does the same while it counts positions.
-/

namespace Flowchart
namespace Token

/-! ### Constructs -/

/-- What a construct contains and what follows it. -/
structure Enclosed where
  /-- The characters inside. -/
  inner : List Char
  /-- The text after the closing mark. -/
  rest : List Char
  /-- Whether there was a closing mark; if not, `rest` is empty. -/
  closed : Bool
deriving DecidableEq, Repr

/-- Put a character in front of what a construct contains. -/
def Enclosed.cons (c : Char) (e : Enclosed) : Enclosed :=
  { e with inner := c :: e.inner }

/-- Read up to the closing bracket that balances an opening one already read.  The number counts the
brackets opened since then and not yet closed. -/
def readBalanced (opening closing : Char) : Nat → List Char → Enclosed
  | _, [] => ⟨[], [], false⟩
  | depth, c :: s =>
    if c = opening then (readBalanced opening closing (depth + 1) s).cons c
    else if c = closing then
      match depth with
      | 0 => ⟨[], s, true⟩
      | depth + 1 => (readBalanced opening closing depth s).cons c
    else (readBalanced opening closing depth s).cons c

/-- Read up to the next `]]`. -/
def readDatabase : List Char → Enclosed
  | [] => ⟨[], [], false⟩
  | ']' :: ']' :: s => ⟨[], s, true⟩
  | c :: s => (readDatabase s).cons c

/-- Read up to the closing quote; a backslash that is not the last character of the text stands for
the character after it. -/
def readQuoted : List Char → Enclosed
  | [] => ⟨[], [], false⟩
  | '"' :: s => ⟨[], s, true⟩
  | '\\' :: c :: s => (readQuoted s).cons c
  | c :: s => (readQuoted s).cons c

/-- The characters of a directive's name: ASCII letters and digits. -/
def isNameChar (c : Char) : Bool :=
  ('0' ≤ c && c ≤ '9') || ('A' ≤ c && c ≤ 'Z') || ('a' ≤ c && c ≤ 'z')

/-- The characters a directive's value may have: all but the line feed and the comment mark. -/
def isValueChar (c : Char) : Bool :=
  c ≠ '\n' && c ≠ '#'

/-- A directive, from the character after its mark on: the text of its token and what follows. -/
def readDirective (s : List Char) : List Char × List Char :=
  let name := s.takeWhile isNameChar
  let s := s.dropWhile isNameChar
  (name ++ ' ' :: Text.strip (s.takeWhile isValueChar), s.dropWhile isValueChar)

/-! ### Steps -/

/-- The result of one step of scanning. -/
structure Step where
  /-- The token, if the step found one. -/
  token? : Option Token
  /-- The text that is left. -/
  rest : List Char
  /-- How far the position runs past the end of the text: by the length of a closing mark that was
  looked for and not found. -/
  overrun : Nat := 0
deriving DecidableEq, Repr

/-- A step that finds nothing. -/
def Step.skip (rest : List Char) : Step := ⟨none, rest, 0⟩

/-- A step that finds a node. -/
def Step.node (shape : Shape) (e : Enclosed) (overrun : Nat) : Step :=
  ⟨some (.node shape (String.ofList (Text.strip e.inner))), e.rest, if e.closed then 0 else overrun⟩

/-- One step of scanning, at the character `c` with the text `s` after it. -/
def step (c : Char) (s : List Char) : Step :=
  match c, s with
  | '\n', s => ⟨some .newline, s, 0⟩
  | '#', s => .skip (s.dropWhile (· ≠ '\n'))
  | '@', s =>
    let (text, rest) := readDirective s
    ⟨some (.directive (String.ofList text)), rest, 0⟩
  | '[', '[' :: s => .node .database (readDatabase s) 2
  | '[', s => .node .rectangle (readBalanced '[' ']' 0 s) 0
  | '{', s => .node .diamond (readBalanced '{' '}' 0 s) 0
  | '(', s => .node .ellipse (readBalanced '(' ')' 0 s) 0
  | '-', '-' :: '>' :: s => ⟨some (.arrow true), s, 0⟩
  | '-', '>' :: s => ⟨some (.arrow false), s, 0⟩
  | '"', s =>
    let e := readQuoted s
    ⟨some (.label (String.ofList e.inner)), e.rest, if e.closed then 0 else 1⟩
  | _, s => .skip s

/-! ### What is left stands at the end -/

theorem rest_readBalanced_suffix (o c : Char) (d : Nat) (s : List Char) :
    (readBalanced o c d s).rest <:+ s := by
  induction s generalizing d with
  | nil => exact List.suffix_rfl
  | cons x s ih =>
    have hcons := List.suffix_cons x s
    unfold readBalanced
    split
    · exact (ih _).trans hcons
    · split
      · split
        · exact hcons
        · exact (ih _).trans hcons
      · exact (ih _).trans hcons

theorem rest_readDatabase_suffix (s : List Char) : (readDatabase s).rest <:+ s := by
  fun_induction readDatabase s with
  | case1 => exact List.suffix_rfl
  | case2 s => exact (List.suffix_cons ..).trans (List.suffix_cons ..)
  | case3 c s _ ih => exact ih.trans (List.suffix_cons c s)

theorem rest_readQuoted_suffix (s : List Char) : (readQuoted s).rest <:+ s := by
  fun_induction readQuoted s with
  | case1 => exact List.suffix_rfl
  | case2 s => exact List.suffix_cons ..
  | case3 c s ih => exact (ih.trans (List.suffix_cons ..)).trans (List.suffix_cons ..)
  | case4 c s _ _ ih => exact ih.trans (List.suffix_cons c s)

theorem rest_readDirective_suffix (s : List Char) : (readDirective s).2 <:+ s :=
  (List.dropWhile_suffix _).trans (List.dropWhile_suffix _)

theorem rest_step_suffix (c : Char) (s : List Char) : (step c s).rest <:+ s := by
  unfold step
  split
  · exact List.suffix_rfl
  · exact List.dropWhile_suffix _
  · exact rest_readDirective_suffix _
  · exact (rest_readDatabase_suffix _).trans (List.suffix_cons ..)
  · exact rest_readBalanced_suffix ..
  · exact rest_readBalanced_suffix ..
  · exact rest_readBalanced_suffix ..
  · exact (List.suffix_cons ..).trans (List.suffix_cons ..)
  · exact List.suffix_cons ..
  · exact rest_readQuoted_suffix _
  · exact List.suffix_rfl

theorem length_rest_step_le (c : Char) (s : List Char) : (step c s).rest.length ≤ s.length :=
  (rest_step_suffix c s).length_le

/-! ### The scanner -/

/-- The tokens of a text. -/
def scan : List Char → List Token
  | [] => []
  | c :: s =>
    let next := step c s
    match next.token? with
    | none => scan next.rest
    | some t => t :: scan next.rest
termination_by s => s.length
decreasing_by
  all_goals exact Nat.lt_succ_of_le (length_rest_step_le c s)

/-- The position after a step that was made at position `pos` of a text that started with one
character before `s`. -/
def Step.position (pos : Nat) (s : List Char) (next : Step) : Nat :=
  pos + 1 + (s.length - next.rest.length) + next.overrun

/-- The tokens of the text `s` that starts at position `pos`, each with the position after it, and
the position at the end. -/
def scanAt (pos : Nat) : List Char → List (Token × Nat) × Nat
  | [] => ([], pos)
  | c :: s =>
    let next := step c s
    let here := next.position pos s
    let (later, final) := scanAt here next.rest
    match next.token? with
    | none => (later, final)
    | some t => ((t, here) :: later, final)
termination_by s => s.length
decreasing_by
  all_goals exact Nat.lt_succ_of_le (length_rest_step_le c s)

/-- Scan a text from a position on, which may lie behind its end. -/
def scanFrom (text : List Char) (pos : Nat) : List (Token × Nat) × Nat :=
  scanAt pos (text.drop pos)

/-- The tokens of a text. -/
def ofText (text : String) : List Token :=
  scan text.toList

end Token
end Flowchart
