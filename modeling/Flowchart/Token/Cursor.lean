import Flowchart.Token.Scan

/-!
# Scanning in place

A text can be scanned without taking it apart: it stays as it is, and a position says how far the
scanner has got.  Such a scanner can pause behind any token and go on later, from its position
alone.

Every character is read by its position (`charAt`), and to read behind the end of the text is an
error.  The readers of constructs are given the position they start from and return the one behind
the construct, which may itself lie behind the end: a closing mark that was looked for and not found
is skipped all the same.

* `advance` makes one step, at a position inside the text;
* `next` goes on to the next token or, if there is none, to the end;
* `take` goes on over some tokens, and `finish` over all that are left.

The rules are those of `step`.
-/

namespace Flowchart
namespace Token
namespace Cursor

/-- A position behind the end of a text, from which a character was to be read. -/
structure Outside where
  position : Nat
  length : Nat
deriving DecidableEq, Repr

variable (text : Array Char)

/-! ### Characters and words -/

/-- The character at a position. -/
def charAt (pos : Nat) : Except Outside Char :=
  match text[pos]? with
  | some c => .ok c
  | none => .error ⟨pos, text.size⟩

/-- The text between two positions; what lies behind the end is left out. -/
def slice (start stop : Nat) : List Char := (text.extract start stop).toList

/-- Whether a word stands at a position. -/
def startsWith (word : List Char) (pos : Nat) : Bool :=
  slice text pos (pos + word.length) = word

/-- The first place of a word from a position on, or the end of the text if there is none. -/
def find (word : List Char) (pos : Nat) : Nat :=
  if pos < text.size then
    if startsWith text word pos then pos else find word (pos + 1)
  else text.size
termination_by text.size - pos

/-! ### Constructs -/

/-- The first position from `pos` on where no character with a property stands. -/
def skipWhile (p : Char → Bool) (pos : Nat) : Except Outside Nat :=
  if pos < text.size then do
    let c ← charAt text pos
    if p c then skipWhile p (pos + 1) else return pos
  else return pos
termination_by text.size - pos

/-- The position of the closing bracket that balances an opening one already read, and the position
behind it; the end of the text for both if there is none.  The depth counts the brackets opened
since then and not yet closed. -/
def closingBracket (opening closing : Char) (depth pos : Nat) : Except Outside (Nat × Nat) :=
  if pos < text.size then do
    let c ← charAt text pos
    if c = opening then closingBracket opening closing (depth + 1) (pos + 1)
    else if c = closing then
      match depth with
      | 0 => return (pos, pos + 1)
      | depth + 1 => closingBracket opening closing depth (pos + 1)
    else closingBracket opening closing depth (pos + 1)
  else return (pos, pos)
termination_by text.size - pos

/-- What stands between brackets, from behind the opening one on, and the position behind it. -/
def balanced (opening closing : Char) (pos : Nat) : Except Outside (List Char × Nat) := do
  let (stop, after) ← closingBracket text opening closing 0 pos
  return (slice text pos stop, after)

/-- What stands in quotes, from behind the opening one on, and the position behind it. -/
def quoted (pos : Nat) : Except Outside (List Char × Nat) :=
  if pos < text.size then do
    let c ← charAt text pos
    if c = '"' then return ([], pos + 1)
    else if c = '\\' ∧ pos + 1 < text.size then
      let escaped ← charAt text (pos + 1)
      let (inner, after) ← quoted (pos + 2)
      return (escaped :: inner, after)
    else
      let (inner, after) ← quoted (pos + 1)
      return (c :: inner, after)
  else return ([], pos + 1)
termination_by text.size - pos

/-! ### Steps -/

/-- A step that found a token: the token and the position behind it. -/
def found (t : Token) (after : Nat) : Option Token × Nat := (some t, after)

/-- The directive whose mark stands at a position. -/
def directive (pos : Nat) : Except Outside (Option Token × Nat) := do
  let nameEnd ← skipWhile text isNameChar (pos + 1)
  let valueEnd ← skipWhile text isValueChar nameEnd
  let name := slice text (pos + 1) nameEnd
  let value := Text.strip (slice text nameEnd valueEnd)
  return found (.directive (String.ofList (name ++ ' ' :: value))) valueEnd

/-- The database whose mark stands at a position. -/
def database (pos : Nat) : Option Token × Nat :=
  let stop := find text [']', ']'] (pos + 2)
  let inner := slice text (pos + 2) stop
  found (.node .database (String.ofList (Text.strip inner))) (stop + 2)

/-- The node whose opening bracket stands at a position. -/
def bracketed (shape : Shape) (opening closing : Char) (pos : Nat) :
    Except Outside (Option Token × Nat) := do
  let (inner, after) ← balanced text opening closing (pos + 1)
  return found (.node shape (String.ofList (Text.strip inner))) after

/-- The label whose opening quote stands at a position. -/
def label (pos : Nat) : Except Outside (Option Token × Nat) := do
  let (inner, after) ← quoted text (pos + 1)
  return found (.label (String.ofList inner)) after

/-- The shape that a bracket opens, and the bracket that closes it. -/
def shapeOf? : Char → Option (Shape × Char)
  | '[' => some (.rectangle, ']')
  | '{' => some (.diamond, '}')
  | '(' => some (.ellipse, ')')
  | _ => none

/-- One step at a position: the token, if there is one, and the position to go on from. -/
def advance (pos : Nat) : Except Outside (Option Token × Nat) := do
  let c ← charAt text pos
  if c = ' ' ∨ c = '\t' then return (none, pos + 1)
  else if c = '\n' then return found .newline (pos + 1)
  else if c = '#' then return (none, find text ['\n'] pos)
  else if c = '@' then directive text pos
  else if startsWith text ['[', '['] pos then return database text pos
  else match shapeOf? c with
    | some (shape, closing) => bracketed text shape c closing pos
    | none =>
      if startsWith text ['-', '-', '>'] pos then return found (.arrow true) (pos + 3)
      else if startsWith text ['-', '>'] pos then return found (.arrow false) (pos + 2)
      else if c = '"' then label text pos
      else return (none, pos + 1)

/-! ### Every step moves on -/

variable {text}

theorem exists_of_bind_eq_ok {ε α β : Type} {x : Except ε α} {f : α → Except ε β} {b : β}
    (h : x >>= f = .ok b) : ∃ a, x = .ok a ∧ f a = .ok b := by
  cases x with
  | error e => cases h
  | ok a => exact ⟨a, rfl, h⟩

theorem le_find {word : List Char} {pos bound : Nat} (hpos : bound ≤ pos)
    (hsize : bound ≤ text.size) : bound ≤ find text word pos := by
  rw [find]
  split
  · split
    · exact hpos
    · exact le_find (Nat.le_succ_of_le hpos) hsize
  · exact hsize
termination_by text.size - pos

theorem le_of_skipWhile {p : Char → Bool} {pos after : Nat}
    (h : skipWhile text p pos = .ok after) : pos ≤ after := by
  rw [skipWhile] at h
  split at h
  · obtain ⟨c, -, h⟩ := exists_of_bind_eq_ok h
    split at h
    · exact Nat.le_of_succ_le (le_of_skipWhile h)
    · cases h
      exact Nat.le_refl _
  · cases h
    exact Nat.le_refl _
termination_by text.size - pos

theorem le_of_closingBracket {o c : Char} {depth pos stop after : Nat}
    (h : closingBracket text o c depth pos = .ok (stop, after)) : pos ≤ after := by
  rw [closingBracket.eq_def] at h
  split at h
  · obtain ⟨a, -, h⟩ := exists_of_bind_eq_ok h
    split at h
    · exact Nat.le_of_succ_le (le_of_closingBracket h)
    · split at h
      · split at h
        · cases h
          exact Nat.le_succ _
        · exact Nat.le_of_succ_le (le_of_closingBracket h)
      · exact Nat.le_of_succ_le (le_of_closingBracket h)
  · cases h
    exact Nat.le_refl _
termination_by text.size - pos

theorem le_of_quoted {pos after : Nat} {inner : List Char}
    (h : quoted text pos = .ok (inner, after)) : pos ≤ after := by
  rw [quoted] at h
  split at h
  · obtain ⟨a, -, h⟩ := exists_of_bind_eq_ok h
    split at h
    · cases h
      exact Nat.le_succ _
    · split at h
      · obtain ⟨b, -, h⟩ := exists_of_bind_eq_ok h
        obtain ⟨r, hr, h⟩ := exists_of_bind_eq_ok h
        cases h
        exact Nat.le_of_succ_le (Nat.le_of_succ_le (le_of_quoted hr))
      · obtain ⟨r, hr, h⟩ := exists_of_bind_eq_ok h
        cases h
        exact Nat.le_of_succ_le (le_of_quoted hr)
  · cases h
    exact Nat.le_succ _
termination_by text.size - pos

theorem charAt_eq_ok {pos : Nat} {c : Char} (h : charAt text pos = .ok c) :
    text[pos]? = some c := by
  rw [charAt] at h
  split at h
  · next a ha =>
    cases h
    exact ha
  · cases h

/-- A comment mark is no line end, so that a comment is at least one character long. -/
theorem lt_find_newline {pos : Nat} (hpos : pos < text.size) (h : charAt text pos = .ok '#') :
    pos < find text ['\n'] pos := by
  have hslice : slice text pos (pos + 1) = ['#'] := by
    have hc : text[pos] = '#' := by
      simpa [Array.getElem?_eq_getElem hpos] using charAt_eq_ok h
    simp [slice, List.drop_eq_getElem_cons, hpos, hc]
  have hword : startsWith text ['\n'] pos = false := by simp [startsWith, hslice]
  rw [find, if_pos hpos, hword]
  exact le_find (Nat.le_refl _) hpos

theorem lt_of_directive {pos after : Nat} {t? : Option Token}
    (h : directive text pos = .ok (t?, after)) : pos < after := by
  obtain ⟨nameEnd, hname, h⟩ := exists_of_bind_eq_ok h
  obtain ⟨valueEnd, hvalue, h⟩ := exists_of_bind_eq_ok h
  cases h
  exact Nat.le_trans (le_of_skipWhile hname) (le_of_skipWhile hvalue)

theorem lt_of_bracketed {shape : Shape} {o c : Char} {pos after : Nat} {t? : Option Token}
    (h : bracketed text shape o c pos = .ok (t?, after)) : pos < after := by
  obtain ⟨r, hr, h⟩ := exists_of_bind_eq_ok h
  obtain ⟨stop, hstop, hr⟩ := exists_of_bind_eq_ok hr
  cases hr
  cases h
  exact le_of_closingBracket hstop

theorem lt_of_label {pos after : Nat} {t? : Option Token} (h : label text pos = .ok (t?, after)) :
    pos < after := by
  obtain ⟨r, hr, h⟩ := exists_of_bind_eq_ok h
  cases h
  exact le_of_quoted hr

theorem lt_database {pos : Nat} (hpos : pos < text.size) : pos < (database text pos).2 := by
  have hstop : pos ≤ find text [']', ']'] (pos + 2) :=
    le_find (Nat.le_add_right pos 2) (Nat.le_of_lt hpos)
  exact Nat.lt_add_right 1 (Nat.lt_succ_of_le hstop)

theorem lt_of_advance {pos after : Nat} {t? : Option Token} (hpos : pos < text.size)
    (h : advance text pos = .ok (t?, after)) : pos < after := by
  obtain ⟨c, hc, h⟩ := exists_of_bind_eq_ok h
  split at h
  · cases h
    exact Nat.lt_succ_self _
  split at h
  · cases h
    exact Nat.lt_succ_self _
  split at h
  · next hcomment =>
    subst hcomment
    cases h
    exact lt_find_newline hpos hc
  split at h
  · exact lt_of_directive h
  split at h
  · cases h
    exact lt_database hpos
  split at h
  · exact lt_of_bracketed h
  split at h
  · cases h
    exact Nat.lt_add_of_pos_right (by decide)
  split at h
  · cases h
    exact Nat.lt_add_of_pos_right (by decide)
  split at h
  · exact lt_of_label h
  · cases h
    exact Nat.lt_succ_self _

/-! ### Scanning -/

/-- Go on from a position to the next token or, if there is none, to the end: the token, and the
position behind it. -/
def next (text : Array Char) (pos : Nat) : Except Outside (Option Token × Nat) :=
  if _ : pos < text.size then
    match _ : advance text pos with
    | .ok (none, after) => next text after
    | r => r
  else .ok (none, pos)
termination_by text.size - pos
decreasing_by
  have := lt_of_advance ‹pos < text.size› ‹advance text pos = _›
  omega

/-- A token is only found inside the text, and it is behind it that the scanner pauses. -/
theorem lt_of_next {pos after : Nat} {t : Token} (h : next text pos = .ok (some t, after)) :
    pos < text.size ∧ pos < after := by
  rw [next] at h
  split at h
  · next hpos =>
    split at h
    · next between hadvance =>
      have hbetween := lt_of_advance hpos hadvance
      exact ⟨hpos, Nat.lt_trans hbetween (lt_of_next h).2⟩
    · exact ⟨hpos, lt_of_advance hpos h⟩
  · cases h
termination_by text.size - pos

/-- Go on from a position over some tokens, as far as there are any: the tokens, each with the
position behind it, and the position at which the scanner pauses. -/
def take (text : Array Char) : Nat → Nat → Except Outside (List (Token × Nat) × Nat)
  | 0, pos => .ok ([], pos)
  | k + 1, pos => do
    match ← next text pos with
    | (none, after) => return ([], after)
    | (some t, after) =>
      let (later, final) ← take text k after
      return ((t, after) :: later, final)

/-- Go on from a position over all tokens that are left: the tokens, each with the position behind
it, and the position at the end. -/
def finish (text : Array Char) (pos : Nat) : Except Outside (List (Token × Nat) × Nat) :=
  match _ : next text pos with
  | .error e => .error e
  | .ok (none, after) => .ok ([], after)
  | .ok (some t, after) => do
    let (later, final) ← finish text after
    return ((t, after) :: later, final)
termination_by text.size - pos
decreasing_by
  have := lt_of_next ‹next text pos = _›
  omega

end Cursor
end Token
end Flowchart
