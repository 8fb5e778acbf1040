import Flowchart.Build.Pass

/-!
# Traces

Reading a chart never fails on odd input, so a trace is the way to see why a chart came out as it
did.  It keeps the text that was read, a record of each decision, and a snapshot of each stage: the
kinds of the tokens after scanning, the size of the chart after building.  A trace only watches; the
chart is the same with and without one.

`Trace.summary` and `Trace.dump` write it out.
-/

namespace Flowchart

/-! ### Stages -/

/-- A number or a text in a snapshot. -/
inductive Datum.Item where
  | number (n : Int)
  | text (s : String)
deriving DecidableEq, Repr

/-- A value in a snapshot. -/
inductive Datum where
  | item (i : Datum.Item)
  | list (is : List Datum.Item)
deriving DecidableEq, Repr

/-- An item of a list: texts are quoted there.  Numbers are written without a bound on their digits,
which none that was counted or read exceeds. -/
def Datum.Item.render : Datum.Item → String
  | number n => toString n
  | text s => Text.quote s

/-- A value of a snapshot as text: a text alone is shown as it is. -/
def Datum.render : Datum → String
  | item (.number n) => toString n
  | item (.text s) => s
  | list is => "[" ++ ", ".intercalate (is.map Datum.Item.render) ++ "]"

/-- A snapshot of one stage, its values in order. -/
structure Stage where
  name : String
  data : List (String × Datum)
deriving DecidableEq, Repr

/-- The longest text that a trace shows whole. -/
def Trace.shown : Nat := 100

/-- A text cut after `Trace.shown` characters. -/
def Trace.cut (s : String) : String :=
  String.ofList (s.toList.take Trace.shown)

/-- The mark after a text that was cut. -/
def Trace.ellipsis (s : String) : String :=
  if s.length > Trace.shown then "..." else ""

/-- A snapshot as lines of text. -/
def Stage.render (s : Stage) : String :=
  let lines := s.data.map fun (key, value) =>
    let text := value.render
    s!"  {key}: {Trace.cut text}{Trace.ellipsis text}"
  "\n".intercalate (s!"=== Stage: {s.name} ===" :: lines)

/-- The snapshot after scanning: how many tokens there are and their kinds. -/
def Stage.ofTokens (tokens : List Token) : Stage :=
  ⟨"scan",
    [("tokens", .item (.number tokens.length)),
      ("kinds", .list (tokens.map fun t => .text t.kind))]⟩

/-- The snapshot after building: the size of the chart and the options that directives can set. -/
def Stage.ofGraph (g : Graph) : Stage :=
  ⟨"build",
    [("nodes", .item (.number g.nodes.length)),
      ("edges", .item (.number g.edges.length)),
      ("direction", .item (.text g.options.direction.name)),
      ("node_spacing", .item (.number g.options.nodeSpacing))]⟩

/-- A snapshot with another value under a key it has. -/
def Stage.replace (s : Stage) (key : String) (value : Datum) : Stage :=
  { s with data := s.data.map fun (k, v) => (k, if k = key then value else v) }

/-! ### Traces -/

/-- A trace. -/
structure Trace where
  stages : List Stage := []
  records : List Record := []
  /-- The text that was read last. -/
  input : String := ""
deriving DecidableEq, Repr

namespace Trace

/-- Add a snapshot. -/
def addStage (t : Trace) (s : Stage) : Trace := { t with stages := t.stages ++ [s] }

/-- Add records. -/
def addRecords (t : Trace) (rs : List Record) : Trace := { t with records := t.records ++ rs }

/-- The first snapshot with a name. -/
def stage? (t : Trace) (name : String) : Option Stage :=
  t.stages.find? fun s => s.name = name

/-- The records of one action. -/
def recordsOf (t : Trace) (action : String) : List Record :=
  t.records.filter fun r => r.action = action

/-- The trace after a pass: its decisions, and a snapshot of the chart if the pass succeeded. -/
def addPass (t : Trace) (r : Build.Result) : Trace :=
  let t := t.addRecords (r.decisions.map Decision.record)
  match r.graph with
  | .ok g => t.addStage (.ofGraph g)
  | .error _ => t

/-- The trace after a text was read and a chart was built from its tokens. -/
def addParse (t : Trace) (text : String) (r : Build.Result) : Trace :=
  ({ t with input := text }.addStage (.ofTokens (Token.ofText text))).addPass r

/-! ### Texts -/

/-- A line of one character. -/
def rule (c : Char) (width : Nat) : String := String.ofList (List.replicate width c)

/-- Add one to the count of an action; a new action comes last. -/
def count (action : String) : List (String × Nat) → List (String × Nat)
  | [] => [(action, 1)]
  | (a, n) :: counts => if a = action then (a, n + 1) :: counts else (a, n) :: count action counts

/-- How often each action was recorded, the most frequent first; actions that are equally frequent
stay in the order of their first record. -/
def counts (t : Trace) : List (String × Nat) :=
  (t.records.foldl (fun cs r => count r.action cs) []).mergeSort fun a b => b.2 ≤ a.2

/-- A short report: the text, the stages, and how often each action was recorded. -/
def summary (t : Trace) : String :=
  "\n".intercalate <|
    [rule '=' 60, "PARSE TRACE SUMMARY", rule '=' 60, "",
      s!"Input: {Text.quote (cut t.input)}{ellipsis t.input}", "",
      s!"Pipeline stages: {t.stages.length}"] ++
    t.stages.map (fun s => s!"  {s.name}") ++
    ["", s!"Total decisions: {t.records.length}", "", "Decisions by action:"] ++
    t.counts.map fun (action, n) => s!"  {action}: {n}"

/-- The full report: the summary, all snapshots and all records. -/
def dump (t : Trace) : String :=
  "\n".intercalate <|
    [t.summary, "", rule '=' 60, "DETAILED TRACE", rule '=' 60, "", "PIPELINE STAGES:", rule '-' 40] ++
    t.stages.flatMap (fun s => [s.render, ""]) ++
    ["DECISIONS:", rule '-' 40] ++
    t.records.map Record.render

end Trace
end Flowchart
