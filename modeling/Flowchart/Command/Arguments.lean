import Flowchart.Chart.Style
import Flowchart.Text.Quoted

/-!
# Command line arguments

The arguments of the command are read in two rounds.  The first round looks at each argument alone
and sorts it: an option, with the value that is attached to it if there is one; something that looks
like an option and is none; the mark `--`, after which nothing is an option; or a plain argument.  The
second round goes from left to right, gives options their values, and takes the first plain argument
for the input.

An option may be written in full, a long one may be shortened, and short ones may be run together.
What cannot be placed is collected and reported last, after a missing input.
-/

namespace Flowchart
namespace Command

/-! ### Options -/

/-- The format of the output. -/
inductive Format where
  | json
  | text
deriving DecidableEq, Repr

/-- The name of a format. -/
def Format.name : Format → String
  | .json => "json"
  | .text => "dsl"

instance : Named Format := ⟨[.json, .text], Format.name⟩

/-- The options of the command. -/
inductive Switch where
  | help
  | output
  | format
  | direction
  | spacing
  | trace
  | verbose
deriving DecidableEq, Repr

/-- The spellings of the options, in their fixed order. -/
def spellings : List (String × Switch) :=
  [("-h", .help), ("--help", .help), ("-o", .output), ("--output", .output), ("-f", .format),
   ("--format", .format), ("--direction", .direction), ("--spacing", .spacing),
   ("--trace", .trace), ("-v", .verbose), ("--verbose", .verbose)]

/-- The name of an option in reports: all its spellings. -/
def Switch.name (s : Switch) : String :=
  "/".intercalate ((spellings.filter fun p => p.2 = s).map Prod.fst)

/-- Whether an option takes a value. -/
def Switch.takesValue : Switch → Bool
  | .output | .format | .direction | .spacing => true
  | .help | .trace | .verbose => false

/-- The spacing that is asked for. -/
inductive Spacing where
  | number (n : Int)
  /-- No number: the option was given the mark `--` for a value. -/
  | blank
deriving DecidableEq, Repr

/-- What the arguments ask for. -/
structure Settings where
  /-- The file to read, or `-`. -/
  input : String
  /-- The file to write, if not the standard output. -/
  output : Option String
  format : Format
  direction : Option Direction
  spacing : Option Spacing
  trace : Bool
  verbose : Bool
deriving DecidableEq, Repr

/-- The outcome of reading the arguments. -/
inductive Request where
  | run (s : Settings)
  | help
  /-- The arguments are wrong, for the given reason. -/
  | refuse (reason : String)
deriving DecidableEq, Repr

/-! ### Sorting arguments -/

/-- An argument, sorted. -/
inductive Argument where
  /-- An option, in the given spelling and with an attached value. -/
  | switch (s : Switch) (spelling : String) (value : Option String)
  /-- Something that looks like an option and is none. -/
  | unknown (text : String)
  | plain (text : String)
  /-- The mark `--`. -/
  | mark
deriving DecidableEq, Repr

/-- Whether a text is a minus sign and a number without exponent; a line end may follow. -/
def isNegativeNumber (s : List Char) : Bool :=
  match s with
  | '-' :: s =>
    let s := if s.getLast? = some '\n' then s.dropLast else s
    let isDigit (c : Char) := (Number.decimal? c).isSome
    match s.dropWhile isDigit with
    | [] => !s.isEmpty
    | '.' :: fraction => !fraction.isEmpty && fraction.all isDigit
    | _ => false
  | _ => false

/-- An argument split at its first equals sign. -/
def splitEquals (s : List Char) : List Char × Option (List Char) :=
  match s.dropWhile (· ≠ '=') with
  | [] => (s, none)
  | _ :: value => (s.takeWhile (· ≠ '='), some value)

/-- The options an argument may mean that is not written in full: a long option may be shortened, and
a short one may have its value attached. -/
def candidates (arg : List Char) : List (String × Switch × Option String) :=
  match arg with
  | '-' :: '-' :: _ =>
    let (start, value) := splitEquals arg
    (spellings.filter fun p => start.isPrefixOf p.1.toList).map fun (spelling, s) =>
      (spelling, s, value.map String.ofList)
  | _ =>
    (spellings.filter fun p => p.1.toList = arg.take 2).map fun (spelling, s) =>
      (spelling, s, some (String.ofList (arg.drop 2)))

/-- Sort an argument that starts with a minus sign and has more than one character. -/
def sortDashed (arg : List Char) : Except String Argument :=
  let text := String.ofList arg
  let exact : Option Argument :=
    match splitEquals arg with
    | (spelling, some value) =>
      (spellings.lookup (String.ofList spelling)).map fun s =>
        .switch s (String.ofList spelling) (some (String.ofList value))
    | _ => none
  match exact, candidates arg with
  | some a, _ => .ok a
  | none, [(spelling, s, value)] => .ok (.switch s spelling value)
  | none, [] =>
    if isNegativeNumber arg || arg.contains ' ' then .ok (.plain text) else .ok (.unknown text)
  | none, several =>
    let matching := ", ".intercalate (several.map Prod.fst)
    .error s!"ambiguous option: {text} could match {matching}"

/-- Sort one argument that is not the mark. -/
def sortOne (arg : String) : Except String Argument :=
  match spellings.lookup arg with
  | some s => .ok (.switch s arg none)
  | none =>
    match arg.toList with
    | '-' :: c :: s => sortDashed ('-' :: c :: s)
    | _ => .ok (.plain arg)

/-- Sort all arguments. -/
def sortArguments : List String → Except String (List Argument)
  | [] => .ok []
  | arg :: args =>
    if arg = "--" then .ok (.mark :: args.map .plain)
    else do
      let a ← sortOne arg
      let rest ← sortArguments args
      return a :: rest

/-! ### Taking values -/

/-- What has been gathered so far. -/
structure Gathered where
  input : Option String := none
  output : Option String := none
  format : Format := .json
  direction : Option Direction := none
  spacing : Option Spacing := none
  trace : Bool := false
  verbose : Bool := false
  /-- What could not be placed. -/
  extras : List String := []
deriving DecidableEq, Repr

/-- Why gathering stops before the end. -/
inductive Stop where
  | help
  | refuse (reason : String)
deriving DecidableEq, Repr

/-- Refuse an option for a reason. -/
def Switch.refuse (s : Switch) (reason : String) : Stop :=
  .refuse s!"argument {s.name}: {reason}"

/-- A value that has to be one of some names. -/
def choose {α : Type} [Named α] (s : Switch) (value : String) : Except Stop α :=
  match Named.ofName? value with
  | some a => .ok a
  | none =>
    let names := ", ".intercalate ((Named.all : List α).map fun a => Text.quote (Named.name a))
    .error (s.refuse s!"invalid choice: {Text.quote value} (choose from {names})")

/-- Set an option.  The mark `--` as an attached value leaves the option unset, and the spacing
blank. -/
def Gathered.set (g : Gathered) (s : Switch) (value : String) : Except Stop Gathered :=
  let given := value ≠ "--"
  match s with
  | .help => .error .help
  | .trace => .ok { g with trace := true }
  | .verbose => .ok { g with verbose := true }
  | .output => .ok { g with output := if given then some value else none }
  | .format =>
    if given then (choose s value).map fun f => { g with format := f }
    else .ok { g with format := .json }
  | .direction =>
    if given then (choose s value).map fun d => { g with direction := some d }
    else .ok { g with direction := none }
  | .spacing =>
    if given then
      match Number.ofText? value.toList with
      | some n => .ok { g with spacing := some (.number n) }
      | none => .error (s.refuse s!"invalid int value: {Text.quote value}")
    else .ok { g with spacing := some .blank }

/-- Options that are run together: those that take no value, and the last one with what is attached
to it.  Only after a short spelling does what is attached name more options. -/
def unfoldSwitch (s : Switch) (short : Bool) :
    List Char → Except Stop (List Switch × Switch × Option String)
  | [] =>
    if s.takesValue then .ok ([], s, some "") else .error (s.refuse "ignored explicit argument ''")
  | c :: rest =>
    if s.takesValue then .ok ([], s, some (String.ofList (c :: rest)))
    else
      match short, spellings.lookup (String.ofList ['-', c]) with
      | true, some next =>
        if rest = [] then .ok ([s], next, none)
        else (unfoldSwitch next true rest).map fun (before, last) => (s :: before, last)
      | _, _ =>
        .error (s.refuse s!"ignored explicit argument {Text.quote (String.ofList (c :: rest))}")

/-- The options an argument stands for. -/
def unfoldArgument (s : Switch) (spelling : String) :
    Option String → Except Stop (List Switch × Switch × Option String)
  | none => .ok ([], s, none)
  | some value => unfoldSwitch s (spelling.length = 2) value.toList

/-- Set options that were run together; only the last one has a value. -/
def Gathered.setAll (g : Gathered) (before : List Switch) (last : Switch) (value : String) :
    Except Stop Gathered := do
  let g ← before.foldlM (fun g s => g.set s "") g
  g.set last value

/-- The value of an option and the arguments that are left: the value is attached to the option, or
it is the plain argument that comes next. -/
def valueFor (s : Switch) (attached : Option String) (args : List Argument) :
    Except Stop (String × List Argument) :=
  if s.takesValue then
    match attached, args with
    | some value, args => .ok (value, args)
    | none, .plain text :: args => .ok (text, args)
    | none, _ => .error (s.refuse "expected one argument")
  else .ok ("", args)

/-- Place an argument, with the arguments after it: what is gathered then, and the arguments that
are left. -/
def Gathered.place (g : Gathered) (a : Argument) (args : List Argument) :
    Except Stop (Gathered × List Argument) :=
  match a with
  | .unknown text => .ok ({ g with extras := g.extras ++ [text] }, args)
  | .plain text =>
    match g.input, args with
    | none, .mark :: args => .ok ({ g with input := some text }, args)
    | none, args => .ok ({ g with input := some text }, args)
    | some _, args => .ok ({ g with extras := g.extras ++ [text] }, args)
  | .mark =>
    match g.input, args with
    | none, .plain text :: args => .ok ({ g with input := some text }, args)
    | _, args => .ok ({ g with extras := g.extras ++ ["--"] }, args)
  | .switch s spelling value =>
    match unfoldArgument s spelling value with
    | .error stop => .error stop
    | .ok (before, last, attached) =>
      match valueFor last attached args with
      | .error stop => .error stop
      | .ok (value, args) => (g.setAll before last value).map fun g => (g, args)

theorem suffix_of_valueFor {s : Switch} {attached : Option String} {args rest : List Argument}
    {value : String} (h : valueFor s attached args = .ok (value, rest)) : rest <:+ args := by
  unfold valueFor at h
  split at h
  · split at h
    · cases h
      exact List.suffix_refl _
    · cases h
      exact List.suffix_cons ..
    · cases h
  · cases h
    exact List.suffix_refl _

/-- What is left after an argument is left of what came after it. -/
theorem Gathered.suffix_of_place {g g' : Gathered} {a : Argument} {args rest : List Argument}
    (h : g.place a args = .ok (g', rest)) : rest <:+ args := by
  cases a with
  | unknown text =>
    cases h
    exact List.suffix_refl _
  | plain text =>
    simp only [place] at h
    split at h <;> cases h
    · exact List.suffix_cons ..
    · exact List.suffix_refl _
    · exact List.suffix_refl _
  | mark =>
    simp only [place] at h
    split at h <;> cases h
    · exact List.suffix_cons ..
    · exact List.suffix_refl _
  | switch s spelling value =>
    simp only [place] at h
    split at h
    · cases h
    · split at h
      · cases h
      · next hvalue =>
        cases hset : g.setAll _ _ _ with
        | error stop => rw [hset] at h; cases h
        | ok g' =>
          rw [hset] at h
          cases h
          exact suffix_of_valueFor hvalue

/-- Gather from the arguments, from left to right. -/
def gather (g : Gathered) : List Argument → Except Stop Gathered
  | [] => .ok g
  | a :: args =>
    match _h : g.place a args with
    | .error stop => .error stop
    | .ok (g, rest) => gather g rest
termination_by args => args.length
decreasing_by exact Nat.lt_succ_of_le (Gathered.suffix_of_place _h).length_le

/-- What was gathered, as a request. -/
def Gathered.request (g : Gathered) : Request :=
  match g.input, g.extras with
  | none, _ => .refuse "the following arguments are required: input"
  | some input, [] =>
    .run ⟨input, g.output, g.format, g.direction, g.spacing, g.trace, g.verbose⟩
  | some _, extras => .refuse ("unrecognized arguments: " ++ " ".intercalate extras)

/-- What was gathered, or why gathering stopped, as a request. -/
def Request.ofGathered : Except Stop Gathered → Request
  | .ok g => g.request
  | .error .help => .help
  | .error (.refuse reason) => .refuse reason

/-- Read the arguments of the command. -/
def Request.ofArguments (args : List String) : Request :=
  match sortArguments args with
  | .error reason => .refuse reason
  | .ok sorted => .ofGathered (gather {} sorted)

end Command
end Flowchart
