import Flowchart.Number.Digits

/-!
# Whole numbers in loose spelling

A record may give a whole number as a text.  Its plain spelling is the one of JSON: an optional minus
and digits without a zero in front.  A text that is not plain is tidied first:

* white space around it and a plus in front of it go;
* of zeros in front, after a minus or without one, only what is needed stays, and underscores among
  them go with them;
* a point with nothing but zeros after it goes;
* underscores between two other characters go.

Tidying looks at the spelling only, so what comes out of it has to be plain once more.  What stands
after zeros may therefore be a minus: `0-1` is read as `-1`, but `-0-1` is tidied to `--1`, which is no
number.

A plain number that is too long is told apart from a text that is no number, but only if it was plain
before tidying.
-/

namespace Flowchart
namespace Number

/-- Why a text is not read as a whole number. -/
inductive Misread where
  /-- The text writes no whole number. -/
  | malformed
  /-- The text starts with a whole number that is too long. -/
  | tooLong
deriving DecidableEq, Repr

/-- Split an optional minus off a text; the flag is set if there is one. -/
def splitMinus : List Char → Bool × List Char
  | '-' :: s => (true, s)
  | s => (false, s)

/-- A whole number in plain spelling.  A sign counts for the length, and a number that is too long is
noticed before what follows it. -/
def ofPlain (s : List Char) : Except Misread Int :=
  let (negative, body) := splitMinus s
  let digits := body.takeWhile isDigit
  let rest := body.dropWhile isDigit
  if digits = [] then .error .malformed
  else if digits.head? = some '0' then
    if body = ['0'] then .ok 0 else .error .malformed
  else if maxDigits < (if negative then 1 else 0) + digits.length then .error .tooLong
  else if rest = [] then .ok (signed negative (valueOfDigits digits))
  else .error .malformed

/-! ### Tidying -/

/-- The characters a plain spelling starts with, zero apart. -/
def startsPlain (c : Char) : Bool :=
  c = '-' || (c ≠ '0' && isDigit c)

/-- What is left of a text after the zeros and underscores that follow a first zero; `last` is the one
before the text.  It is kept if no other digit follows. -/
def afterZeros (last : Char) : List Char → Option (List Char)
  | [] => some [last]
  | c :: s =>
    if c = '0' ∨ c = '_' then afterZeros c s
    else if c = '.' then some (last :: c :: s)
    else if startsPlain c then some (c :: s)
    else none

/-- A text without the zeros in front that it does not need; none if it starts like no number. -/
def dropZeros? : List Char → Option (List Char)
  | [] => none
  | c :: s => if c = '0' then afterZeros c s else if startsPlain c then some (c :: s) else none

/-- A text without a plus in front; none if a minus follows it. -/
def dropPlus? : List Char → Option (List Char)
  | '+' :: '-' :: _ => none
  | '+' :: s => some s
  | s => some s

/-- A text without a point that has nothing but zeros after it, and at least one. -/
def dropFraction (s : List Char) : List Char :=
  match s.dropWhile (· ≠ '.') with
  | _ :: '0' :: zeros => if zeros.all (· = '0') then s.takeWhile (· ≠ '.') else s
  | _ => s

/-- A text that may be the loose spelling of a whole number, tidied. -/
def tidy? (s : List Char) : Option (List Char) := do
  let s ← dropPlus? (Text.trim Text.isWhiteSpace s)
  let (negative, body) := splitMinus s
  let body ← dropZeros? body
  let body := ungroup (dropFraction body)
  return if negative then '-' :: body else body

/-- The whole number a text writes in plain or in loose spelling. -/
def ofLoose (s : List Char) : Except Misread Int :=
  match ofPlain s with
  | .error .malformed =>
    match (tidy? s).map ofPlain with
    | some (.ok n) => .ok n
    | _ => .error .malformed
  | r => r

end Number
end Flowchart
