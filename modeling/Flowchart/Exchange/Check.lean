import Flowchart.Chart.Style
import Flowchart.Json.Value
import Flowchart.Number.Loose

/-!
# Checking records

Charts are exchanged as JSON objects.  A checker takes a JSON value to a value of the library or to a
list of issues, each with the path to the place it is about.  Checkers of fields are combined with
the constructor of the record: all of them run, and their issues are joined in the order of the
fields, so a report names everything that is wrong and not only the first thing.

A field has two spellings, one for the wire and a plain one.  The wire spelling wins if both are
there, and a path shows the spelling that was found.
-/

namespace Flowchart
namespace Exchange

/-! ### Issues -/

/-- What is wrong with a value. -/
inductive Problem where
  /-- A field that has to be there is not. -/
  | missing
  /-- Not an object, where a record of the given name should be. -/
  | notObject (record : String)
  | notList
  | notString
  /-- Not one of the given names. -/
  | notAmong (names : List String)
  | notInteger
  | notNumber
  /-- A text that does not write a number. -/
  | numberText
  /-- An infinite value or one that is not a number, for a whole number. -/
  | notFinite
  /-- A number with a fraction, for a whole number. -/
  | fraction
  /-- A whole number that is too large to be taken over. -/
  | tooLarge
  /-- A text that does not write a whole number. -/
  | integerText
deriving DecidableEq, Repr

/-- Names in apostrophes, separated by commas and by a word before the last. -/
def enumerate : List String → String
  | [] => ""
  | [a] => s!"'{a}'"
  | [a, b] => s!"'{a}' or '{b}'"
  | a :: rest => s!"'{a}', {enumerate rest}"

/-- The wording of a problem. -/
def Problem.text : Problem → String
  | missing => "Field required"
  | notObject record => s!"Input should be a valid dictionary or instance of {record}"
  | notList => "Input should be a valid list"
  | notString => "Input should be a valid string"
  | notAmong names => s!"Input should be {enumerate names}"
  | notInteger => "Input should be a valid integer"
  | notNumber => "Input should be a valid number"
  | numberText => "Input should be a valid number, unable to parse string as a number"
  | notFinite => "Input should be a finite number"
  | fraction => "Input should be a valid integer, got a number with a fractional part"
  | tooLarge => "Unable to parse input string as an integer, exceeded maximum size"
  | integerText => "Input should be a valid integer, unable to parse string as an integer"

/-- A problem and the path to its place: names of fields and indexes of items. -/
structure Issue where
  path : List String
  problem : Problem
deriving DecidableEq, Repr

/-- One issue as text. -/
def Issue.text (i : Issue) : String :=
  let path := if i.path.isEmpty then "<root>" else ".".intercalate i.path
  s!"{path}: {i.problem.text}"

/-! ### Checkers -/

/-- The outcome of a check. -/
inductive Checked (α : Type) where
  | ok (a : α)
  | bad (issues : List Issue)
deriving Repr

namespace Checked

/-- Apply a function to a checked value. -/
def map {α β : Type} (f : α → β) : Checked α → Checked β
  | ok a => ok (f a)
  | bad is => bad is

/-- Apply a checked function to a checked value; the issues of both are joined. -/
def apply {α β : Type} : Checked (α → β) → Checked α → Checked β
  | ok f, ok a => ok (f a)
  | ok _, bad is => bad is
  | bad is, ok _ => bad is
  | bad is, bad js => bad (is ++ js)

instance : Applicative Checked where
  pure := ok
  map := map
  seq f a := f.apply (a ())

/-- One problem at the place itself. -/
def fail {α : Type} (p : Problem) : Checked α := bad [⟨[], p⟩]

/-- Put a step in front of the paths of all issues. -/
def under {α : Type} (step : String) : Checked α → Checked α
  | ok a => ok a
  | bad is => bad (is.map fun i => { i with path := step :: i.path })

/-- Check all items, of which the first has the given index. -/
def items {α : Type} (check : Json → Checked α) : Nat → List Json → Checked (List α)
  | _, [] => ok []
  | index, v :: vs => (List.cons <$> (check v).under (toString index)) <*> items check (index + 1) vs

end Checked

/-! ### Fields -/

/-- The two spellings of a field. -/
structure Field where
  /-- The spelling on the wire. -/
  wire : String
  /-- The plain spelling. -/
  plain : String
deriving DecidableEq, Repr

/-- A field with one spelling. -/
def Field.same (name : String) : Field := ⟨name, name⟩

/-- The members of a JSON object. -/
abbrev Members := List (String × Json)

/-- The value of a field with the spelling under which it was found. -/
def Field.find? (f : Field) (ms : Members) : Option (String × Json) :=
  match Json.member? ms f.wire with
  | some v => some (f.wire, v)
  | none => (Json.member? ms f.plain).map (f.plain, ·)

/-- A field that has to be there. -/
def Field.required {α : Type} (f : Field) (check : Json → Checked α) (ms : Members) : Checked α :=
  match f.find? ms with
  | some (name, v) => (check v).under name
  | none => (Checked.fail .missing).under f.wire

/-- A field that has a usual value. -/
def Field.withDefault {α : Type} (f : Field) (usual : α) (check : Json → Checked α) (ms : Members) :
    Checked α :=
  match f.find? ms with
  | some (name, v) => (check v).under name
  | none => .ok usual

/-- A check that takes null as no value. -/
def orNull {α : Type} (check : Json → Checked α) : Json → Checked (Option α)
  | .null => .ok none
  | v => (check v).map some

/-- A field that may be missing or null. -/
def Field.optional {α : Type} (f : Field) (check : Json → Checked α) (ms : Members) :
    Checked (Option α) :=
  f.withDefault none (orNull check) ms

/-! ### Simple values -/

/-- A list, each item of which is checked. -/
def list {α : Type} (check : Json → Checked α) : Json → Checked (List α)
  | .array vs => .items check 0 vs
  | _ => .fail .notList

/-- A record of the given name, whose members are checked. -/
def record {α : Type} (name : String) (check : Members → Checked α) : Json → Checked α
  | .object ms => check ms
  | _ => .fail (.notObject name)

/-- A string. -/
def string : Json → Checked String
  | .string s => .ok s
  | _ => .fail .notString

/-- A name of an enumeration, exactly as it is written. -/
def named {α : Type} [Named α] : Json → Checked α
  | .string s =>
    match Named.ofName? s with
    | some a => .ok a
    | none => .fail (.notAmong ((Named.all : List α).map Named.name))
  | _ => .fail (.notAmong ((Named.all : List α).map Named.name))

/-- The letters of a direction, in any case and with blanks around them. -/
def direction : Json → Checked Direction
  | .string s =>
    match Direction.ofLetters? (Text.strip s.toList) with
    | some d => .ok d
    | none => .fail (.notAmong ((Named.all : List Direction).map Direction.name))
  | _ => .fail (.notAmong ((Named.all : List Direction).map Direction.name))

/-- A whole number and nothing that could be turned into one. -/
def strictInteger : Json → Checked Int
  | .int n => .ok n
  | _ => .fail .notInteger

/-- A number, or something that can be turned into one: a truth value or a text. -/
def number : Json → Checked Number.Binary64
  | .double x => .ok x
  | .int n =>
    let x := Number.Binary64.ofInt n
    if x.isInfinite then .fail .notNumber else .ok x
  | .bool b => .ok (.ofInt (if b then 1 else 0))
  | .string s =>
    match Number.Binary64.ofText? s.toList with
    | some x => .ok x
    | none => .fail .numberText
  | _ => .fail .notNumber

/-- The bound of the whole numbers that are taken over from floating-point numbers: those of 64 bits
with a sign, without the least one. -/
def integerBound : Int := 0x8000000000000000

/-- The whole number a floating-point number is, within the bound. -/
def integerOfDouble (x : Number.Binary64) : Checked Int :=
  if x.isNaN || x.isInfinite then .fail .notFinite
  else
    match x.toInt? with
    | none => .fail .fraction
    | some n => if -integerBound < n ∧ n < integerBound then .ok n else .fail .tooLarge

/-- The whole number a text writes. -/
def integerOfText (s : List Char) : Checked Int :=
  match Number.ofLoose s with
  | .ok n => .ok n
  | .error .malformed => .fail .integerText
  | .error .tooLong => .fail .tooLarge

/-- A whole number, or something that can be turned into one without loss. -/
def integer : Json → Checked Int
  | .int n => .ok n
  | .bool b => .ok (if b then 1 else 0)
  | .double x => integerOfDouble x
  | .string s => integerOfText s.toList
  | _ => .fail .notInteger

end Exchange
end Flowchart
