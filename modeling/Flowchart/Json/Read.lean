import Flowchart.Json.Value

/-!
# Reading JSON

`Json.parse` reads a text that is one JSON value with white space around it, and reports the first
place where it is not.  Beyond the standard, the words `NaN`, `Infinity` and `-Infinity` are
numbers.

Inside the reader a place is told by the number of characters from it to the end of the text, since
that is what each part of the reader knows; `Location` turns it into a line and a column.  Arrays and
objects share one reader of sequences, which takes the reader of an element as an argument.  The
number of elements is bounded by the length of the text, a bound that is never reached.  The nesting of
arrays and objects has a bound that is part of the contract: a text that goes deeper is refused at the
mark that opens one level too many, whatever follows.
-/

namespace Flowchart
namespace Json

/-! ### Problems and places -/

/-- What is wrong with a text at some place. -/
inductive Problem where
  | value
  | name
  | colon
  | comma
  | extra
  | unterminated
  | control
  | escape
  | unicodeEscape
  | byteOrderMark
deriving DecidableEq, Repr

/-- The wording of a problem. -/
def Problem.text : Problem → String
  | .value => "Expecting value"
  | .name => "Expecting property name enclosed in double quotes"
  | .colon => "Expecting ':' delimiter"
  | .comma => "Expecting ',' delimiter"
  | .extra => "Extra data"
  | .unterminated => "Unterminated string starting at"
  | .control => "Invalid control character at"
  | .escape => "Invalid \\escape"
  | .unicodeEscape => "Invalid \\uXXXX escape"
  | .byteOrderMark => "Unexpected UTF-8 BOM (decode using utf-8-sig)"

/-- A place in a text. -/
structure Location where
  /-- The line, counted from one. -/
  line : Nat
  /-- The column, counted from one. -/
  column : Nat
  /-- The number of characters before the place. -/
  position : Nat
deriving DecidableEq, Repr

/-- The place before which a text has `position` characters. -/
def Location.ofPosition (text : List Char) (position : Nat) : Location :=
  let before := text.take position
  ⟨before.count '\n' + 1, (before.reverse.takeWhile (· ≠ '\n')).length + 1, position⟩

/-- The values that hold others. -/
inductive Container where
  | array
  | object
deriving DecidableEq, Repr

/-- The name of a container in reports. -/
def Container.name : Container → String
  | array => "array"
  | object => "object"

/-- How deeply containers may be nested. -/
def maxNesting : Nat := 992

/-- Why a text is not read. -/
inductive ReadError where
  /-- The text is not JSON. -/
  | malformed (problem : Problem) (place : Location)
  /-- A whole number has too many digits. -/
  | number (e : Number.TooLong)
  /-- An array or an object is nested too deeply. -/
  | nesting (c : Container)
deriving DecidableEq, Repr

/-- What is reported for a text that is not read. -/
def ReadError.message : ReadError → String
  | malformed problem place =>
    s!"{problem.text}: line {place.line} column {place.column} (char {place.position})"
  | number e => e.message
  | nesting c =>
    s!"maximum recursion depth exceeded while decoding a JSON {c.name} from a unicode string"

/-- An error inside the reader. -/
inductive Trouble where
  /-- A problem with so many characters left from its place on. -/
  | problem (p : Problem) (left : Nat)
  /-- A whole number with too many digits. -/
  | number (e : Number.TooLong)
  /-- A container that is nested too deeply. -/
  | nesting (c : Container)
deriving DecidableEq, Repr

/-- A reader of some part of a text: what it read and what is left. -/
abbrev Reader (α : Type) := List Char → Except Trouble (α × List Char)

/-- Report a problem in front of a text. -/
def complain {α : Type} (p : Problem) (s : List Char) : Except Trouble α :=
  .error (.problem p s.length)

/-- The white space between tokens. -/
def isSpace (c : Char) : Bool :=
  c = ' ' || c = '\t' || c = '\n' || c = '\r'

/-- A text without the white space at its start. -/
def skipSpace (s : List Char) : List Char :=
  s.dropWhile isSpace

/-! ### Strings -/

/-- The character of a short escape. -/
def shortEscape? : Char → Option Char
  | '"' => some '"'
  | '\\' => some '\\'
  | '/' => some '/'
  | 'b' => some '\x08'
  | 'f' => some '\x0c'
  | 'n' => some '\n'
  | 'r' => some '\r'
  | 't' => some '\t'
  | _ => none

/-- The value of a hexadecimal digit. -/
def hexDigit? (c : Char) : Option Nat :=
  if '0' ≤ c ∧ c ≤ '9' then some (c.toNat - '0'.toNat)
  else if 'a' ≤ c ∧ c ≤ 'f' then some (c.toNat - 'a'.toNat + 10)
  else if 'A' ≤ c ∧ c ≤ 'F' then some (c.toNat - 'A'.toNat + 10)
  else none

/-- The code unit with four hexadecimal digits. -/
def unit? (a b c d : Char) : Option Nat := do
  return (((← hexDigit? a) * 16 + (← hexDigit? b)) * 16 + (← hexDigit? c)) * 16 + (← hexDigit? d)

/-- The first half of a pair of code units. -/
def isHighUnit (n : Nat) : Bool := 0xD800 ≤ n && n < 0xDC00

/-- The second half of a pair of code units. -/
def isLowUnit (n : Nat) : Bool := 0xDC00 ≤ n && n < 0xE000

/-- The character of a code unit; a half of a pair alone has none and is replaced. -/
def unitChar (n : Nat) : Char :=
  if isHighUnit n || isLowUnit n then '\uFFFD' else Char.ofNat n

/-- The character of a pair of code units. -/
def pairChar (high low : Nat) : Char :=
  Char.ofNat (0x10000 + (high - 0xD800) * 0x400 + (low - 0xDC00))

/-- Put a character in front of a string that was read. -/
def consChar (c : Char) (r : Except Trouble (List Char × List Char)) :
    Except Trouble (List Char × List Char) :=
  match r with
  | .ok (cs, s) => .ok (c :: cs, s)
  | .error e => .error e

/-- The rest of a string; `opening` is the number of characters from its opening quote on.  The four
digits of an escape have to be followed by at least one more character, and so does a second escape
that makes a pair with the one before. -/
def readString (opening : Nat) : Reader (List Char)
  | [] => .error (.problem .unterminated opening)
  | '"' :: s => .ok ([], s)
  | ['\\'] => .error (.problem .unterminated opening)
  | '\\' :: 'u' :: a :: b :: c :: d :: e :: s =>
    match unit? a b c d with
    | none => .error (.problem .unicodeEscape (s.length + 6))
    | some n =>
      match isHighUnit n, e, s with
      | true, '\\', 'u' :: f :: g :: h :: i :: j :: rest =>
        match unit? f g h i with
        | none => .error (.problem .unicodeEscape (rest.length + 6))
        | some m =>
          if isLowUnit m then consChar (pairChar n m) (readString opening (j :: rest))
          else
            consChar (unitChar n)
              (readString opening ('\\' :: 'u' :: f :: g :: h :: i :: j :: rest))
      | _, e, s => consChar (unitChar n) (readString opening (e :: s))
  | '\\' :: 'u' :: s => .error (.problem .unicodeEscape (s.length + 1))
  | '\\' :: c :: s =>
    match shortEscape? c with
    | some d => consChar d (readString opening s)
    | none => .error (.problem .escape (s.length + 2))
  | c :: s =>
    if c.toNat < 0x20 then .error (.problem .control (s.length + 1))
    else consChar c (readString opening s)
termination_by s => s.length

/-! ### Numbers -/

/-- The exponent at the start of a text, if there is a whole one, and what follows it. -/
def splitExponent (s : List Char) : Option Int × List Char :=
  match s with
  | [] => (none, s)
  | c :: rest =>
    let (negative, body) := Number.splitSign rest
    match body.takeWhile Number.isDigit with
    | [] => (none, s)
    | digits =>
      if c = 'e' ∨ c = 'E' then
        (some (Number.signed negative (Number.valueOfDigits digits)), body.dropWhile Number.isDigit)
      else (none, s)

/-- The fraction at the start of a text, if there is one with digits, and what follows it. -/
def splitFraction (s : List Char) : List Char × List Char :=
  match s with
  | '.' :: rest =>
    match rest.takeWhile Number.isDigit with
    | [] => ([], s)
    | digits => (digits, rest.dropWhile Number.isDigit)
  | _ => ([], s)

/-- The digits before the point: a zero alone, or a run that starts with no zero. -/
def splitWhole (s : List Char) : List Char × List Char :=
  match s with
  | '0' :: rest => (['0'], rest)
  | _ => (s.takeWhile Number.isDigit, s.dropWhile Number.isDigit)

/-- A number: whole if it has neither fraction nor exponent.  A fraction without digits and an
exponent without digits are not part of it. -/
def readNumber : Reader Json := fun s =>
  let (negative, body) :=
    match s with
    | '-' :: body => (true, body)
    | _ => (false, s)
  match splitWhole body with
  | ([], _) => complain .value s
  | (whole, rest) =>
    match splitFraction rest with
    | (fraction, rest) =>
      match fraction, splitExponent rest with
      | [], (none, rest) =>
        match Number.ofDigits whole with
        | .ok n => .ok (.int (Number.signed negative n), rest)
        | .error e => .error (.number e)
      | _, (exponent, rest) =>
        .ok (.double (.ofParts negative whole fraction (exponent.getD 0)), rest)

/-! ### Values -/

/-- The text after a word it starts with. -/
def dropWord? (word : String) (s : List Char) : Option (List Char) :=
  if word.toList.isPrefixOf s then some (s.drop word.length) else none

/-- The words that are values. -/
def words : List (String × Json) :=
  [("null", .null), ("true", .bool true), ("false", .bool false), ("NaN", .double .nan),
   ("Infinity", .double (.infinity false)), ("-Infinity", .double (.infinity true))]

/-- A word or a number. -/
def readScalar : Reader Json := fun s =>
  match words.findSome? fun w => (dropWord? w.1 s).map (w.2, ·) with
  | some r => .ok r
  | none => readNumber s

/-- The elements of a sequence up to its closing mark.  The text starts with an element; a comma is
followed by another one.  The number bounds the elements. -/
def readSequence {α : Type} (closing : Char) (element : Reader α) : Nat → Reader (List α)
  | 0, s => complain .comma s
  | bound + 1, s =>
    match element s with
    | .error e => .error e
    | .ok (x, s) =>
      match skipSpace s with
      | [] => complain .comma []
      | c :: s =>
        if c = closing then .ok ([x], s)
        else if c = ',' then
          match readSequence closing element bound (skipSpace s) with
          | .error e => .error e
          | .ok (xs, s) => .ok (x :: xs, s)
        else complain .comma (c :: s)

/-- A member of an object, whose value is read by `value`. -/
def readMember (value : Reader Json) : Reader (String × Json) := fun s =>
  match s with
  | '"' :: t =>
    match readString s.length t with
    | .error e => .error e
    | .ok (name, s) =>
      match skipSpace s with
      | ':' :: s =>
        match value (skipSpace s) with
        | .error e => .error e
        | .ok (v, s) => .ok ((String.ofList name, v), s)
      | s => complain .colon s
  | _ => complain .name s

/-- The rest of an array after its opening mark. -/
def readArray (value : Reader Json) : Reader Json := fun s =>
  match skipSpace s with
  | ']' :: s => .ok (.array [], s)
  | s =>
    match readSequence ']' value (s.length + 1) s with
    | .error e => .error e
    | .ok (vs, s) => .ok (.array vs, s)

/-- The rest of an object after its opening mark. -/
def readObject (value : Reader Json) : Reader Json := fun s =>
  match skipSpace s with
  | '}' :: s => .ok (.object [], s)
  | s =>
    match readSequence '}' (readMember value) (s.length + 1) s with
    | .error e => .error e
    | .ok (ms, s) => .ok (ofMembers ms, s)

/-- A string, a word or a number. -/
def readSimple : Reader Json := fun s =>
  match s with
  | '"' :: t =>
    match readString s.length t with
    | .error e => .error e
    | .ok (cs, s) => .ok (.string (String.ofList cs), s)
  | s => readScalar s

/-- A value in which containers are nested at most as deeply as the number says. -/
def readValue : Nat → Reader Json
  | 0, s =>
    match s with
    | '[' :: _ => .error (.nesting .array)
    | '{' :: _ => .error (.nesting .object)
    | s => readSimple s
  | depth + 1, s =>
    match s with
    | '[' :: s => readArray (readValue depth) s
    | '{' :: s => readObject (readValue depth) s
    | s => readSimple s

/-- A text that is a value and nothing else. -/
def readText (s : List Char) : Except Trouble Json :=
  if s.head? = some '\uFEFF' then complain .byteOrderMark s
  else
    match readValue maxNesting (skipSpace s) with
    | .error e => .error e
    | .ok (v, rest) =>
      match skipSpace rest with
      | [] => .ok v
      | rest => complain .extra rest

/-- Read a JSON text. -/
def parse (text : List Char) : Except ReadError Json :=
  match readText text with
  | .ok v => .ok v
  | .error (.problem p left) => .error (.malformed p (.ofPosition text (text.length - left)))
  | .error (.number e) => .error (.number e)
  | .error (.nesting c) => .error (.nesting c)

end Json
end Flowchart
