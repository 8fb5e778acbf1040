import Flowchart.Text.Blank

/-!
# Whole numbers in text

Three readers of whole numbers stand here, and a writer.  `ofDigits` is the common core: a run of
ASCII digits, at most `maxDigits` of them.  `leading` reads the number a text starts with, so that
`120px` is 120.  `ofText?` reads a text that is a number and nothing else, and takes the decimal
digits of every script.  `write` gives the decimal form of a number.

The bound on the number of digits is part of the contract.  A longer run is an error of its own and
never a number, and a number with more digits is an error of its own and never a text.
-/

namespace Flowchart
namespace Number

/-- The most digits a number may have to be read or written. -/
def maxDigits : Nat := 4300

/-- A number with too many digits. -/
inductive TooLong where
  /-- A run of so many digits, leading zeros included, was to be read. -/
  | read (digits : Nat)
  /-- A number was to be written. -/
  | write
deriving DecidableEq, Repr

/-- What is reported for a number with too many digits. -/
def TooLong.message (e : TooLong) : String :=
  let found :=
    match e with
    | read digits => s!": value has {digits} digits"
    | write => ""
  s!"Exceeds the limit ({maxDigits} digits) for integer string conversion{found}; " ++
    "use sys.set_int_max_str_digits() to increase the limit"

/-! ### ASCII digits -/

/-- The ASCII digits. -/
def isDigit (c : Char) : Bool :=
  '0' ≤ c && c ≤ '9'

/-- The value of an ASCII digit. -/
def digitValue (c : Char) : Nat :=
  c.toNat - '0'.toNat

/-- The number with the given decimal digits, most significant first. -/
def ofDigitValues (ds : List Nat) : Nat :=
  ds.foldl (fun n d => 10 * n + d) 0

/-- The value of a run of ASCII digits, without a bound on its length. -/
def valueOfDigits (s : List Char) : Nat :=
  ofDigitValues (s.map digitValue)

/-- The number written by a run of ASCII digits, if the run is not too long. -/
def ofDigits (s : List Char) : Except TooLong Nat :=
  if s.length ≤ maxDigits then .ok (valueOfDigits s) else .error (.read s.length)

/-- A magnitude with a sign. -/
def signed (negative : Bool) (n : Nat) : Int :=
  if negative then -(n : Int) else n

/-- Whether every underscore of a text stands between two other characters.  The flag says whether
another character comes just before the text. -/
def isGrouped : Bool → List Char → Bool
  | _, [] => true
  | after, '_' :: s => after && !s.isEmpty && isGrouped false s
  | _, _ :: s => isGrouped true s

/-- A text without the underscores that group its characters.  Nothing is dropped from a text that
has an underscore elsewhere. -/
def ungroup (s : List Char) : List Char :=
  if isGrouped false s then s.filter (· ≠ '_') else s

/-- Split an optional sign off a text; the flag is set for a minus. -/
def splitSign : List Char → Bool × List Char
  | '-' :: s => (true, s)
  | '+' :: s => (false, s)
  | s => (false, s)

/-- The whole number a text starts with, after blanks and with an optional sign.  What follows the
digits does not matter; without digits there is no number. -/
def leading (s : List Char) : Except TooLong (Option Int) :=
  let (negative, body) := splitSign (s.dropWhile Text.isBlank)
  match body.takeWhile isDigit with
  | [] => .ok none
  | digits => (ofDigits digits).map fun n => some (signed negative n)

/-! ### Decimal digits of every script -/

/-- The zeros of the scripts with decimal digits; the nine code points after each are the other
digits of its script. -/
def zeros : List Nat :=
  [0x30, 0x660, 0x6F0, 0x7C0, 0x966, 0x9E6, 0xA66, 0xAE6, 0xB66, 0xBE6, 0xC66, 0xCE6, 0xD66,
   0xDE6, 0xE50, 0xED0, 0xF20, 0x1040, 0x1090, 0x17E0, 0x1810, 0x1946, 0x19D0, 0x1A80, 0x1A90,
   0x1B50, 0x1BB0, 0x1C40, 0x1C50, 0xA620, 0xA8D0, 0xA900, 0xA9D0, 0xA9F0, 0xAA50, 0xABF0,
   0xFF10, 0x104A0, 0x10D30, 0x11066, 0x110F0, 0x11136, 0x111D0, 0x112F0, 0x11450, 0x114D0,
   0x11650, 0x116C0, 0x11730, 0x118E0, 0x11950, 0x11C50, 0x11D50, 0x11DA0, 0x16A60, 0x16AC0,
   0x16B50, 0x1D7CE, 0x1D7D8, 0x1D7E2, 0x1D7EC, 0x1D7F6, 0x1E140, 0x1E2F0, 0x1E950, 0x1FBF0]

/-- The value of a decimal digit of any script. -/
def decimal? (c : Char) : Option Nat :=
  (zeros.find? fun z => z ≤ c.toNat && c.toNat ≤ z + 9).map fun z => c.toNat - z

/-- The values of a run of digits in which single underscores may stand between two digits.  The
flag says whether a digit has just been read. -/
def groupedDigits (digit? : Char → Option Nat) : Bool → List Char → Option (List Nat)
  | afterDigit, [] => if afterDigit then some [] else none
  | true, '_' :: s => groupedDigits digit? false s
  | _, c :: s => do
    let d ← digit? c
    let ds ← groupedDigits digit? true s
    return d :: ds

/-- The whole number a text consists of: white space around it, an optional sign, decimal digits of
any script, single underscores between digits, and no more than `maxDigits` digits. -/
def ofText? (s : List Char) : Option Int := do
  let (negative, body) := splitSign (Text.trim Text.isWhiteSpace s)
  let ds ← groupedDigits decimal? false body
  if ds.length ≤ maxDigits then some (signed negative (ofDigitValues ds)) else none

/-! ### Writing -/

/-- A whole number in decimal digits, with a minus in front if it is negative. -/
def write (n : Int) : Except TooLong String :=
  if (Nat.toDigits 10 n.natAbs).length ≤ maxDigits then .ok (toString n) else .error .write

end Number
end Flowchart
