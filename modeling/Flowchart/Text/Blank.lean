/-!
# Blank characters and stripping

A character is *blank* if it separates words in some script: the ASCII control blanks, the
information separators, the space, and the spaces and line ends of Unicode.  Labels and directive
values are stripped of blanks on both sides before they are compared, so everything that reads
chart text goes through `strip`.
-/

namespace Flowchart
namespace Text

/-- Whether a code point lies in one of the given closed ranges. -/
def inRanges (ranges : List (Nat × Nat)) (n : Nat) : Bool :=
  ranges.any fun r => r.1 ≤ n && n ≤ r.2

/-- The blank code points, as closed ranges in ascending order. -/
def blankRanges : List (Nat × Nat) :=
  [(0x09, 0x0D), (0x1C, 0x20), (0x85, 0x85), (0xA0, 0xA0), (0x1680, 0x1680), (0x2000, 0x200A),
   (0x2028, 0x2029), (0x202F, 0x202F), (0x205F, 0x205F), (0x3000, 0x3000)]

/-- The blank characters: everything that is stripped from the ends of a label. -/
def isBlank (c : Char) : Bool :=
  inRanges blankRanges c.toNat

/-- The blanks that have the Unicode property `White_Space`, which leaves out the four
information separators. -/
def isWhiteSpace (c : Char) : Bool :=
  isBlank c && !(0x1C ≤ c.toNat && c.toNat ≤ 0x1F)

/-! ### Stripping -/

/-- Drop the characters of class `p` from the end of a text. -/
def dropEndWhile (p : Char → Bool) (s : List Char) : List Char :=
  (s.reverse.dropWhile p).reverse

/-- Drop the characters of class `p` from both ends of a text. -/
def trim (p : Char → Bool) (s : List Char) : List Char :=
  dropEndWhile p (s.dropWhile p)

/-- A text without the blanks at its two ends. -/
def strip (s : List Char) : List Char :=
  trim isBlank s

end Text
end Flowchart
