import Flowchart.Text.Quoted

/-!
# UTF-8

Files hold bytes and charts are texts.  `encode` writes every character with its one to four
bytes.  `decode` reads bytes back and reports the first place where they are not UTF-8: the position
where the bad sequence starts, how many bytes of it were still possible, and what is wrong with it.

The reader is a machine that takes one byte at a time.  Between two characters it is idle; inside
one it knows how many bytes are owed and between which bounds the next one must lie.  Only the
second byte has narrower bounds than the others, and only after four of the lead bytes: these bounds
are what excludes overlong forms, surrogates and numbers above the last code point.
-/

namespace Flowchart
namespace Text

/-- The contents of a file. -/
abbrev Bytes := List UInt8

/-- The UTF-8 bytes of a text. -/
def encode (s : List Char) : Bytes :=
  s.flatMap String.utf8EncodeChar

/-- Why a sequence of bytes is not UTF-8. -/
inductive BadBytes.Reason where
  /-- No character starts with this byte. -/
  | start
  /-- The byte after the sequence does not continue it. -/
  | continuation
  /-- The bytes end inside a character. -/
  | ended
deriving DecidableEq, Repr

/-- A place where bytes are not UTF-8. -/
structure BadBytes where
  /-- The position of the first byte of the bad sequence. -/
  position : Nat
  /-- That byte. -/
  first : UInt8
  /-- The number of bytes in the bad sequence. -/
  count : Nat
  /-- What is wrong with it. -/
  reason : BadBytes.Reason
deriving DecidableEq, Repr

/-- The wording of a reason. -/
def BadBytes.Reason.text : BadBytes.Reason → String
  | .start => "invalid start byte"
  | .continuation => "invalid continuation byte"
  | .ended => "unexpected end of data"

/-- What is reported for bytes that are not UTF-8. -/
def BadBytes.message (e : BadBytes) : String :=
  let place :=
    if e.count = 1 then
      "byte 0x" ++ String.ofList (hex 2 e.first.toNat) ++ s!" in position {e.position}"
    else s!"bytes in position {e.position}-{e.position + e.count - 1}"
  s!"'utf-8' codec can't decode {place}: {e.reason.text}"

/-! ### The reader -/

/-- A character of which some bytes have been read. -/
structure Begun where
  /-- The position of its first byte. -/
  position : Nat
  /-- Its first byte. -/
  first : UInt8
  /-- How many of its bytes have been read. -/
  count : Nat
  /-- The bits of its code point read so far. -/
  bits : Nat
  /-- How many more bytes it takes after the next one. -/
  more : Nat
  /-- The least next byte. -/
  low : Nat
  /-- The greatest next byte. -/
  high : Nat

/-- The error for a character that was begun and cannot be finished. -/
def Begun.bad (p : Begun) (reason : BadBytes.Reason) : BadBytes :=
  ⟨p.position, p.first, p.count, reason⟩

/-- The character that the lead byte `b` at a position begins, if it begins one of several bytes. -/
def Begun.ofLead? (position : Nat) (b : UInt8) : Option Begun :=
  let n := b.toNat
  let begun (bits more low high : Nat) : Option Begun :=
    some ⟨position, b, 1, bits, more, low, high⟩
  if 0xC2 ≤ n ∧ n ≤ 0xDF then begun (n - 0xC0) 0 0x80 0xBF
  else if n = 0xE0 then begun 0 1 0xA0 0xBF
  else if n = 0xED then begun 0xD 1 0x80 0x9F
  else if 0xE1 ≤ n ∧ n ≤ 0xEF then begun (n - 0xE0) 1 0x80 0xBF
  else if n = 0xF0 then begun 0 2 0x90 0xBF
  else if 0xF1 ≤ n ∧ n ≤ 0xF3 then begun (n - 0xF0) 2 0x80 0xBF
  else if n = 0xF4 then begun 4 2 0x80 0x8F
  else none

/-- Read bytes from a position on; the second argument is the character being read, if any. -/
def decodeFrom (position : Nat) : Option Begun → Bytes → Except BadBytes (List Char)
  | none, [] => .ok []
  | some p, [] => .error (p.bad .ended)
  | none, b :: bytes =>
    if b.toNat < 0x80 then
      (decodeFrom (position + 1) none bytes).map (Char.ofNat b.toNat :: ·)
    else
      match Begun.ofLead? position b with
      | some p => decodeFrom (position + 1) (some p) bytes
      | none => .error ⟨position, b, 1, .start⟩
  | some p, b :: bytes =>
    if p.low ≤ b.toNat ∧ b.toNat ≤ p.high then
      let bits := 64 * p.bits + (b.toNat - 0x80)
      match p.more with
      | 0 => (decodeFrom (position + 1) none bytes).map (Char.ofNat bits :: ·)
      | more + 1 =>
        let p := { p with count := p.count + 1, bits, more, low := 0x80, high := 0xBF }
        decodeFrom (position + 1) (some p) bytes
    else .error (p.bad .continuation)

/-- The text that bytes encode. -/
def decode (bytes : Bytes) : Except BadBytes (List Char) :=
  decodeFrom 0 none bytes

/-! ### Line ends -/

/-- Every kind of line end as a line feed: a carriage return counts as one, and so does the pair of
a carriage return and a line feed. -/
def foldLineEnds : List Char → List Char
  | [] => []
  | '\r' :: '\n' :: s => '\n' :: foldLineEnds s
  | c :: s => (if c = '\r' then '\n' else c) :: foldLineEnds s

/-- The text of a file, with its line ends folded. -/
def read (bytes : Bytes) : Except BadBytes (List Char) :=
  (decode bytes).map foldLineEnds

end Text
end Flowchart
