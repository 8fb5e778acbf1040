import Flowchart.Number.Digits

/-!
# Fresh ids

Nodes and edges get their ids from a supply: a sequence of names together with the number of names
already taken from it.  A supply whose sequence never repeats hands out distinct ids.  A supply may
run out, and then every draw fails.

`sequential` counts up, as long as its numbers can be written; `scattered` draws each character of
each id from a mixing function, so that two supplies with different seeds have nothing in common,
and never runs out.
-/

namespace Flowchart

/-- A supply of ids. -/
structure IdSupply where
  /-- The sequence of names. -/
  name : Nat → String
  /-- How many names there are, if there is an end to them. -/
  size : Option Nat := none
  /-- How many have been taken. -/
  drawn : Nat := 0

namespace IdSupply

/-- Whether all names have been taken. -/
def hasRunOut (ids : IdSupply) : Bool :=
  ids.size.any (· ≤ ids.drawn)

/-- The next id and the supply that is left. -/
def draw (ids : IdSupply) : Except Number.TooLong (String × IdSupply) :=
  if ids.hasRunOut then .error .write
  else .ok (ids.name ids.drawn, { ids with drawn := ids.drawn + 1 })

/-- The next `count` ids, in order. -/
def take (ids : IdSupply) : Nat → Except Number.TooLong (List String)
  | 0 => .ok []
  | count + 1 => do
    let (id, rest) ← ids.draw
    return id :: (← rest.take count)

/-- The ids `stem` with `start`, `start + 1` and so on, up to the last number that has no more than
`Number.maxDigits` digits.  A `start` that has more digits itself cannot be written, on neither side
of zero, and then there is no id at all: a count from below is not followed to where its numbers are
short enough. -/
def sequential (stem : String) (start : Int) : IdSupply :=
  let bound : Int := Nat.pow 10 Number.maxDigits
  { name := fun k => stem ++ toString (start + k)
    size := some (if -bound < start then (bound - start).toNat else 0) }

/-- The ids `n1`, `n2`, `n3` and so on. -/
def counting : IdSupply := sequential "n" 1

/-! ### Scattered ids -/

/-- The characters of a scattered id; all of them may stand in an address of the web. -/
def alphabet : List Char :=
  "_-0123456789abcdefghijklmnopqrstuvwxyzABCDEFGHIJKLMNOPQRSTUVWXYZ".toList

/-- The usual length of a scattered id. -/
def usualLength : Nat := 10

/-- A mixing permutation of 64-bit words. -/
def mix (x : UInt64) : UInt64 :=
  let x := (x ^^^ (x >>> 30)) * 0xBF58476D1CE4E5B9
  let x := (x ^^^ (x >>> 27)) * 0x94D049BB133111EB
  x ^^^ (x >>> 31)

/-- The `i`-th character drawn with a seed. -/
def symbol (seed : UInt64) (i : Nat) : Char :=
  let word := mix (seed + UInt64.ofNat (i + 1) * 0x9E3779B97F4A7C15)
  alphabet.getD (word.toNat % alphabet.length) '_'

/-- Ids of a given length whose characters are drawn with a seed. -/
def scattered (seed : UInt64) (length : Nat) : IdSupply :=
  { name := fun k => String.ofList ((List.range length).map fun i => symbol seed (k * length + i)) }

end IdSupply
end Flowchart
