import Flowchart.Exchange.Charts
import Flowchart.Files
import Flowchart.Json.Read
import Flowchart.View.Order

/-!
# Errors

The operations on stored charts run through several layers, each with its own errors.  This type
joins them, so that an operation can fail in any of its layers; the report is always that of the
layer.
-/

namespace Flowchart

/-- Everything that can go wrong. -/
inductive Error where
  /-- A number has too many digits. -/
  | number (e : Number.TooLong)
  /-- An edge names a node that is not there. -/
  | unknownNode (e : UnknownNode)
  /-- There is a cycle. -/
  | cyclic (e : View.Cyclic)
  /-- A file is not read or not written. -/
  | file (e : Files.Error)
  /-- A file is not UTF-8. -/
  | bytes (e : Text.BadBytes)
  /-- A text is not JSON. -/
  | json (e : Json.ReadError)
  /-- A JSON value is not a chart. -/
  | input (e : Exchange.InputError)
  /-- A chart whose spacing was left blank has no JSON form. -/
  | blankSpacing
deriving DecidableEq, Repr

/-- A chart has no text. -/
def Error.ofUnwritable : Unwritable → Error
  | .number e => .number e
  | .unknownNode e => .unknownNode e

/-- What is reported for an error. -/
def Error.message : Error → String
  | number e => e.message
  | unknownNode e => e.message
  | cyclic e => e.message
  | file e => e.message
  | bytes e => e.message
  | json e => e.message
  | input e => e.message
  | blankSpacing =>
    "1 validation error for LayoutOptionsSchema\nnode_spacing\n" ++
      "  Input should be a valid integer [type=int_type, input_value=[], input_type=list]"

end Flowchart
