import Flowchart.Number.Decimal

/-!
# JSON values

The values of the interchange format.  Whole numbers and floating-point numbers are kept apart, as
the text keeps them apart, and the members of an object stay in the order of their first mention.
-/

namespace Flowchart

/-- A JSON value. -/
inductive Json where
  | null
  | bool (b : Bool)
  | int (n : Int)
  | double (x : Number.Binary64)
  | string (s : String)
  | array (items : List Json)
  | object (members : List (String × Json))
deriving Repr, Inhabited

namespace Json

/-- Set a member of an object: a name that is there keeps its place. -/
def setMember (name : String) (value : Json) : List (String × Json) → List (String × Json)
  | [] => [(name, value)]
  | (k, v) :: ms => if k = name then (k, value) :: ms else (k, v) :: setMember name value ms

/-- The object with the given members; of several values for one name the last one holds. -/
def ofMembers (members : List (String × Json)) : Json :=
  .object (members.foldl (fun ms m => setMember m.1 m.2 ms) [])

/-- The value of a name among members. -/
def member? (members : List (String × Json)) (name : String) : Option Json :=
  (members.find? fun m => m.1 = name).map Prod.snd

end Json
end Flowchart
