import Flowchart.Number.Binary64

/-!
# Decimal texts of floating-point numbers

`Binary64.render` writes a number with the fewest digits that read back as the same number; of two
such decimals the nearer one is taken, and of two equally near ones the one with the even last
digit.  `Binary64.ofText?` reads a decimal text.

The digits are searched for, not constructed: for one digit, two digits and so on, the two decimals
next to the number on that grid are read back with `Binary64.ofDecimal`, and the first grid with a
hit wins.  Seventeen digits always suffice.
-/

namespace Flowchart
namespace Number

/-- The value `digits * 10 ^ exponent`. -/
structure Decimal where
  /-- The digits, as one number. -/
  digits : Nat
  /-- The power of ten. -/
  exponent : Int
deriving DecidableEq, Repr

namespace Binary64

/-! ### Shortest digits -/

/-- The number of decimal digits of a natural number; zero has one. -/
def digitCount (n : Nat) : Nat := (Nat.toDigits 10 n).length

/-- The power of ten just above `num / den`: the quotient is below `10 ^ p` and not below
`10 ^ (p - 1)`. -/
def pointPosition (num den : Nat) : Int :=
  if den ≤ num then digitCount (num / den) else 1 - (digitCount ((den - 1) / num) : Int)

/-- The quotient `num / den` in units of `10 ^ exponent`, again as a quotient. -/
def inUnits (num den : Nat) (exponent : Int) : Nat × Nat :=
  if 0 ≤ exponent then (num, den * Nat.pow 10 exponent.toNat) else (num * Nat.pow 10 (-exponent).toNat, den)

/-- The decimal with `count` digits that is nearest to a finite number among those that read back
as it. -/
def withDigits? (x : Binary64) (count : Nat) : Option Decimal :=
  let (num, den) := x.ratio
  let exponent := pointPosition num den - count
  let (num, den) := inUnits num den exponent
  let q := num / den
  let readsBack (digits : Nat) : Bool := ofDecimal x.negative digits exponent = x
  let near := roundQuotient num den
  let far := if near = q then q + 1 else q
  if readsBack near then some ⟨near, exponent⟩
  else if readsBack far then some ⟨far, exponent⟩
  else none

/-- A decimal without zeros at the end of its digits. -/
def dropZeros : Nat → Decimal → Decimal
  | 0, d => d
  | steps + 1, d => if d.digits % 10 = 0 then dropZeros steps ⟨d.digits / 10, d.exponent + 1⟩ else d

/-- The shortest decimal that reads back as a finite number other than zero. -/
def shortest (x : Binary64) : Decimal :=
  dropZeros 17 (((List.range' 1 17).findSome? x.withDigits?).getD ⟨0, 0⟩)

/-! ### Layout -/

/-- An exponent with its sign and at least two digits. -/
def exponentText (e : Int) : String :=
  let digits := toString e.natAbs
  (if e < 0 then "e-" else "e+") ++ (if digits.length < 2 then "0" ++ digits else digits)

/-- Decimal digits with a point: positional from `10 ^ -4` up to `10 ^ 16`, and with an exponent
outside.  The positional form always has a digit on each side of the point. -/
def layout (d : Decimal) : String :=
  let digits := toString d.digits
  let point := d.exponent + digits.length
  let zeros (n : Int) : String := String.ofList (List.replicate n.toNat '0')
  if point ≤ -4 ∨ 16 < point then
    let first := digits.toList.take 1
    let rest := digits.toList.drop 1
    String.ofList (if rest.isEmpty then first else first ++ '.' :: rest) ++ exponentText (point - 1)
  else if point ≤ 0 then "0." ++ zeros (-point) ++ digits
  else if d.exponent < 0 then
    String.ofList (digits.toList.take point.toNat ++ '.' :: digits.toList.drop point.toNat)
  else digits ++ zeros d.exponent ++ ".0"

/-- The text of a number: the shortest digits that read back. -/
def render (x : Binary64) : String :=
  let sign := if x.negative then "-" else ""
  if x.isNaN then "NaN"
  else if x.isInfinite then sign ++ "Infinity"
  else if x.magnitude = 0 then sign ++ "0.0"
  else sign ++ layout x.shortest

/-! ### Reading -/

/-- The number with the given sign, digits before and after the point, and power of ten. -/
def ofParts (negative : Bool) (whole fraction : List Char) (exponent : Int) : Binary64 :=
  ofDecimal negative (valueOfDigits (whole ++ fraction)) (exponent - fraction.length)

/-- The exponent part of a decimal text, which may be missing. -/
def exponentOf? : List Char → Option Int
  | [] => some 0
  | c :: s =>
    let (negative, digits) := splitSign s
    if (c = 'e' ∨ c = 'E') ∧ digits ≠ [] ∧ digits.all isDigit then
      some (signed negative (valueOfDigits digits))
    else none

/-- The number a decimal text writes: a sign, digits with at most one point among or beside them,
and an exponent; or infinity or a value that is not a number, in letters of any case. -/
def ofDecimalText? (s : List Char) : Option Binary64 :=
  let (negative, body) := splitSign s
  let word := String.ofList (body.map Char.toLower)
  if word = "inf" ∨ word = "infinity" then some (infinity negative)
  else if word = "nan" then some nan
  else
    let whole := body.takeWhile isDigit
    let (fraction, rest) :=
      match body.dropWhile isDigit with
      | '.' :: rest => (rest.takeWhile isDigit, rest.dropWhile isDigit)
      | rest => ([], rest)
    if whole = [] ∧ fraction = [] then none
    else (exponentOf? rest).map (ofParts negative whole fraction)

/-- The number a text writes, with white space around it or with single underscores between its
characters, but not both. -/
def ofText? (s : List Char) : Option Binary64 :=
  ofDecimalText? (Text.trim Text.isWhiteSpace s) <|> ofDecimalText? (ungroup s)

end Binary64
end Number
end Flowchart
