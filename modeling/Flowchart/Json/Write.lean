import Flowchart.Json.Value
import Flowchart.Text.Quoted

/-!
# Writing JSON

Values are written on one line or indented.  On one line a comma and a space separate items;
indented, each item has a line of its own, and the lines of an inner value are moved in by a fixed
number of spaces.  In strings only the quote, the backslash and the controls below the space are
escaped.  A value has no text if one of its whole numbers has too many digits.
-/

namespace Flowchart
namespace Json

/-- How a value is laid out. -/
inductive Layout where
  /-- All on one line. -/
  | line
  /-- One line for each item, moved in by so many spaces for each level. -/
  | indented (width : Nat)
deriving DecidableEq, Repr

/-- The layout for an optional width; a negative width counts as zero. -/
def Layout.ofWidth? : Option Int → Layout
  | none => .line
  | some width => .indented width.toNat

/-- The line end before an item at some level. -/
def Layout.newline (layout : Layout) (level : Nat) : List Char :=
  match layout with
  | .line => []
  | .indented width => '\n' :: List.replicate (width * level) ' '

/-- What stands between two items at some level. -/
def Layout.separator (layout : Layout) (level : Nat) : List Char :=
  match layout with
  | .line => [',', ' ']
  | .indented _ => ',' :: layout.newline level

/-- One character of a string. -/
def escapeChar (c : Char) : List Char :=
  if c = '"' then ['\\', '"']
  else if c = '\\' then ['\\', '\\']
  else if c = '\n' then ['\\', 'n']
  else if c = '\r' then ['\\', 'r']
  else if c = '\t' then ['\\', 't']
  else if c = '\x08' then ['\\', 'b']
  else if c = '\x0c' then ['\\', 'f']
  else if c.toNat < 0x20 then '\\' :: 'u' :: Text.hex 4 c.toNat
  else [c]

/-- A string in quotes. -/
def writeString (s : String) : List Char :=
  '"' :: s.toList.flatMap escapeChar ++ ['"']

mutual

/-- A value whose first line stands at some level. -/
def write (layout : Layout) (level : Nat) : Json → Except Number.TooLong (List Char)
  | null => .ok "null".toList
  | bool b => .ok (if b then "true".toList else "false".toList)
  | int n => (Number.write n).map String.toList
  | double x => .ok x.render.toList
  | string s => .ok (writeString s)
  | array [] => .ok ['[', ']']
  | array (v :: vs) => do
    let first ← write layout (level + 1) v
    let rest ← writeItems layout (level + 1) vs
    return '[' :: layout.newline (level + 1) ++ first ++ rest ++ layout.newline level ++ [']']
  | object [] => .ok ['{', '}']
  | object ((k, v) :: ms) => do
    let first ← write layout (level + 1) v
    let rest ← writeMembers layout (level + 1) ms
    return '{' :: layout.newline (level + 1) ++ writeString k ++ ':' :: ' ' :: first ++ rest ++
      layout.newline level ++ ['}']

/-- The items after the first one. -/
def writeItems (layout : Layout) (level : Nat) : List Json → Except Number.TooLong (List Char)
  | [] => .ok []
  | v :: vs => do
    let item ← write layout level v
    let rest ← writeItems layout level vs
    return layout.separator level ++ item ++ rest

/-- The members after the first one. -/
def writeMembers (layout : Layout) (level : Nat) :
    List (String × Json) → Except Number.TooLong (List Char)
  | [] => .ok []
  | (k, v) :: ms => do
    let value ← write layout level v
    let rest ← writeMembers layout level ms
    return layout.separator level ++ writeString k ++ ':' :: ' ' :: value ++ rest

end

/-- The text of a value. -/
def render (layout : Layout) (v : Json) : Except Number.TooLong String :=
  (write layout 0 v).map String.ofList

end Json
end Flowchart
