import Flowchart.Number.Digits

/-!
# Binary floating-point numbers

Line widths, opacities and roughness are 64-bit binary floating-point numbers.  They are kept as
their bit patterns and computed with exactly, on natural numbers: nothing here rounds except
`nearest`, which takes a quotient of natural numbers to the closest representable number, a tie to
the one with the even significand.

A finite number is a significand below 2 ^ 53 times a power of two whose exponent is at least -1074.
Its magnitude bits are the significand plus 2 ^ 52 times the exponent counted from -1074, so a
significand that is rounded up to 2 ^ 53 moves into the next exponent by itself.
-/

namespace Flowchart
namespace Number

/-- A 64-bit binary floating-point number, given by its bits. -/
structure Binary64 where
  /-- The sign, eleven bits of exponent and fifty-two bits of fraction. -/
  bits : UInt64
deriving DecidableEq, Repr

namespace Binary64

/-- The weight of the leading bit of a full significand, which is not among the bits of the
fraction. -/
def hidden : Nat := Nat.pow 2 52

/-- How many times the least positive number goes into one. -/
def unit : Nat := Nat.pow 2 1074

/-- The magnitude bits of infinity. -/
def infinityBits : Nat := 0x7FF0000000000000

/-- The number with a sign and magnitude bits. -/
def ofMagnitude (negative : Bool) (magnitude : Nat) : Binary64 :=
  ⟨UInt64.ofNat (if negative then Nat.pow 2 63 + magnitude else magnitude)⟩

/-- Infinity with a sign. -/
def infinity (negative : Bool) : Binary64 := ofMagnitude negative infinityBits

/-- The one value that stands for every result that is not a number. -/
def nan : Binary64 := ⟨0x7FF8000000000000⟩

/-- The sign bit. -/
def negative (x : Binary64) : Bool := Nat.pow 2 63 ≤ x.bits.toNat

/-- The bits below the sign. -/
def magnitude (x : Binary64) : Nat := x.bits.toNat % Nat.pow 2 63

/-- Whether the value is not a number. -/
def isNaN (x : Binary64) : Bool := infinityBits < x.magnitude

/-- Whether the value is infinite. -/
def isInfinite (x : Binary64) : Bool := x.magnitude = infinityBits

/-- The significand of a finite number. -/
def significand (x : Binary64) : Nat :=
  if x.magnitude < hidden then x.magnitude else hidden + x.magnitude % hidden

/-- The exponent of a finite number, counted from -1074. -/
def scale (x : Binary64) : Nat := x.magnitude / hidden - 1

/-- The magnitude of a finite number as a quotient of natural numbers. -/
def ratio (x : Binary64) : Nat × Nat := (x.significand * Nat.pow 2 x.scale, unit)

/-! ### Rounding -/

/-- The natural number closest to `num / den`, a tie to the even one. -/
def roundQuotient (num den : Nat) : Nat :=
  let q := num / den
  let twice := 2 * (num % den)
  if twice > den ∨ (twice = den ∧ q % 2 = 1) then q + 1 else q

/-- A scale at which `num / den` has fifty-three or fifty-four bits before the point, or zero if
the quotient is too small for one. -/
def scaleBelow (num den : Nat) : Nat :=
  Nat.log2 num + 1021 - Nat.log2 den

/-- The magnitude bits closest to `num / den`. -/
def nearestMagnitude (num den : Nat) : Nat :=
  let s := scaleBelow num den
  let s := if num * unit / (den * Nat.pow 2 s) < 2 * hidden then s else s + 1
  min infinityBits (hidden * s + roundQuotient (num * unit) (den * Nat.pow 2 s))

/-- The number closest to `num / den` with a sign. -/
def nearest (negative : Bool) (num den : Nat) : Binary64 :=
  ofMagnitude negative (if num = 0 then 0 else nearestMagnitude num den)

/-! ### Whole numbers and decimals -/

/-- The number closest to a whole number. -/
def ofInt (n : Int) : Binary64 := nearest (n < 0) n.natAbs 1

/-- The number closest to `± digits * 10 ^ exponent`.  Exponents far outside the range are cut
first: they give infinity or zero whatever the digits are. -/
def ofDecimal (negative : Bool) (digits : Nat) (exponent : Int) : Binary64 :=
  let order := exponent + (Nat.log2 digits * 3 / 10 : Nat)
  if digits = 0 then ofMagnitude negative 0
  else if 400 < order then infinity negative
  else if exponent + (Nat.log2 digits / 3 + 1 : Nat) < -400 then ofMagnitude negative 0
  else if 0 ≤ exponent then nearest negative (digits * Nat.pow 10 exponent.toNat) 1
  else nearest negative digits (Nat.pow 10 (-exponent).toNat)

/-- The whole number a finite value is, if it has no fraction. -/
def toInt? (x : Binary64) : Option Int :=
  let (num, den) := x.ratio
  if num % den = 0 then some (signed x.negative (num / den)) else none

end Binary64
end Number
end Flowchart
