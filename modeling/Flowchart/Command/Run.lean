import Flowchart.Command.Arguments
import Flowchart.Command.Usage
import Flowchart.Store
import Flowchart.Trace

/-!
# Running the command

The command reads a chart text, builds its chart and writes the chart as JSON or as canonical text.
Its work is a function from the text to a `Draft`: what is to be written where, and what is said on
the side.  Reading and writing stand around it, and an error of the operating system there is told on
the error output and ends the command with status 1.  Any other error goes through to the caller.

`execute` does all this with a folder as a value, and is what can be reasoned about.
-/

namespace Flowchart
namespace Command

/-- Who writes a line of the log. -/
inductive Source where
  /-- The pass that builds the chart. -/
  | builder
  | command
deriving DecidableEq, Repr

/-- A line of the log. -/
structure LogLine where
  source : Source
  text : String
deriving DecidableEq, Repr

/-- How the command ended. -/
structure Outcome where
  /-- The exit status, or the error that went through. -/
  status : Except Error Nat
  /-- The standard output. -/
  out : String := ""
  /-- The error output. -/
  err : String := ""
  /-- The log, which is written only if it was asked for. -/
  log : List LogLine := []

/-- The status of an outcome that failed with an error of the operating system. -/
def Outcome.failed (what path : String) (e : Files.SystemError) (log : List LogLine) : Outcome :=
  { status := .ok 1, err := s!"flowsketch: cannot {what} {path}: {e.message}\n", log }

/-! ### The work -/

/-- The options that hold unless a directive changes them. -/
def Settings.options (s : Settings) : Options :=
  let usual : Options := {}
  { usual with
    direction := s.direction.getD usual.direction
    nodeSpacing :=
      match s.spacing with
      | some (.number n) => n
      | _ => usual.nodeSpacing }

/-- Whether the chart of a text is left without a spacing: the option is blank, and no directive sets
one. -/
def Settings.leavesBlank (s : Settings) (text : String) : Bool :=
  s.spacing = some .blank && (Token.ofText text).all fun t => (Build.spacing? t).isNone

/-- Where the result goes: a path that is empty is none. -/
def Settings.target? (s : Settings) : Option String := s.output.filter (· ≠ "")

/-- The lines that are logged, if logging was asked for. -/
def Settings.logged (s : Settings) (lines : List LogLine) : List LogLine :=
  if s.verbose then lines else []

/-- The result of the work, before it is written. -/
structure Draft where
  /-- What is to be written. -/
  text : String
  /-- What the trace says, if one was asked for. -/
  trace : String
  log : List LogLine

/-- What the command has to say about a chart. -/
def resultText (format : Format) (g : Graph) : Except Error String :=
  match format with
  | .text => g.render.mapError .ofUnwritable
  | .json => (Store.jsonText (.indented 2) g).mapError .number

/-- What the command has to say about a chart whose spacing is blank.  The directive of a blank spacing
is always written. -/
def blankResultText (format : Format) (g : Graph) : Except Error String :=
  match format with
  | .text =>
    (g.body.mapError .unknownNode).map fun body =>
      Written.text (Written.direction g.options ++ "@spacing []".toList :: body)
  | .json => .error .blankSpacing

/-- A trace in which the spacing of the chart is blank. -/
def blankTrace (t : Trace) : Trace :=
  { t with stages := t.stages.map fun s => s.replace "node_spacing" (.list []) }

/-- Build the chart of a text and prepare what is to be written.  An error comes with the log up to
it. -/
def draft (s : Settings) (ids : IdSupply) (text : String) : Except (Error × List LogLine) Draft :=
  let pass := Build.parse ids s.options text
  let lines := pass.log.map (LogLine.mk .builder)
  match pass.graph with
  | .error e => .error (.number e, s.logged lines)
  | .ok g =>
    let summary := s!"Parsed {g.nodes.length} nodes, {g.edges.length} edges"
    let log := s.logged (lines ++ [⟨.command, summary⟩])
    let trace := Trace.addParse {} text pass
    let (result, trace) :=
      if s.leavesBlank text then (blankResultText s.format g, blankTrace trace)
      else (resultText s.format g, trace)
    match result with
    | .error e => .error (e, log)
    | .ok result => .ok ⟨result, if s.trace then trace.dump ++ "\n" else "", log⟩

/-! ### Reading and writing -/

/-- The outcome of bytes that were read: an outcome at once, or a draft. -/
def work (s : Settings) (ids : IdSupply) (source : Except Files.Error Text.Bytes) :
    Except Outcome Draft :=
  match source with
  | .error (.system e) => .error (.failed "read" s.input e [])
  | .error e => .error { status := .error (.file e) }
  | .ok bytes =>
    match Text.read bytes with
    | .error e => .error { status := .error (.bytes e) }
    | .ok text =>
      (draft s ids (String.ofList text)).mapError fun (e, log) => { status := .error e, log }

/-- The outcome of a draft that goes to the standard output. -/
def Draft.printed (d : Draft) : Outcome :=
  { status := .ok 0, out := d.text, err := d.trace, log := d.log }

/-- The outcome of a draft that was written to a file, or was not. -/
def Draft.written (d : Draft) (path : String) (written : Except Files.Error Unit) : Outcome :=
  match written with
  | .ok () => { status := .ok 0, err := d.trace, log := d.log }
  | .error (.system e) => .failed "write" path e d.log
  | .error e => { status := .error (.file e), log := d.log }

/-- The outcome of wrong arguments. -/
def refused (reason : String) : Outcome :=
  { status := .ok 2, err := usage ++ s!"flowsketch: error: {reason}\n" }

/-- Run the command with its arguments, a folder and the standard input: how it ends, and the folder
afterwards. -/
def execute (ids : IdSupply) (args : List String) (folder : Files.Folder) (stdin : Text.Bytes) :
    Outcome × Files.Folder :=
  match Request.ofArguments args with
  | .help => ({ status := .ok 0, out := help }, folder)
  | .refuse reason => (refused reason, folder)
  | .run s =>
    match work s ids (if s.input = "-" then .ok stdin else folder.read s.input) with
    | .error outcome => (outcome, folder)
    | .ok d =>
      match s.target? with
      | none => (d.printed, folder)
      | some path =>
        match folder.write path (Text.encode d.text.toList) with
        | .ok folder => (d.written path (.ok ()), folder)
        | .error e => (d.written path (.error e), folder)

end Command
end Flowchart
