import Flowchart.Build.Pass
import Flowchart.Error
import Flowchart.Json.Write

/-!
# Stored charts

Charts are saved in files and loaded from them, either as JSON, which keeps everything, or as chart
text, which keeps what can be written down.  Paths are tidied before they are used.  Files are read
with their line ends folded and written as they are.
-/

namespace Flowchart
namespace Store

/-- The text of a file. -/
def readText (folder : Files.Folder) (path : String) : Except Error (List Char) := do
  let bytes ← (folder.read (Files.tidy path)).mapError .file
  (Text.read bytes).mapError .bytes

/-- Write a text to a file. -/
def writeText (folder : Files.Folder) (path : String) (text : String) :
    Except Error Files.Folder :=
  (folder.write (Files.tidy path) (Text.encode text.toList)).mapError .file

/-- The JSON text of a chart, in some layout and with a line end. -/
def jsonText (layout : Json.Layout) (g : Graph) : Except Number.TooLong String :=
  (g.toJson.render layout).map (· ++ "\n")

/-- Save a chart as JSON. -/
def saveJson (layout : Json.Layout) (folder : Files.Folder) (g : Graph) (path : String) :
    Except Error Files.Folder := do
  let text ← (jsonText layout g).mapError .number
  writeText folder path text

/-- Save a chart as chart text. -/
def saveText (folder : Files.Folder) (g : Graph) (path : String) : Except Error Files.Folder := do
  let text ← g.render.mapError .ofUnwritable
  writeText folder path text

/-- Load a chart that was saved as JSON. -/
def loadJson (folder : Files.Folder) (path : String) : Except Error Graph := do
  let text ← readText folder path
  let value ← (Json.parse text).mapError .json
  (Graph.ofJson value).mapError .input

/-- Load a chart from chart text; the result is that of the pass that read it. -/
def loadText (ids : IdSupply) (options : Options) (folder : Files.Folder) (path : String) :
    Except Error Build.Result := do
  let text ← readText folder path
  return Build.parse ids options (String.ofList text)

end Store
end Flowchart
