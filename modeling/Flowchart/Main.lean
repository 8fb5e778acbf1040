import Flowchart.Command.Run

/-!
# The program

The command with real files: it reads its input, lets `Command.work` do everything, and writes what
comes out.  Ids are drawn with a random seed.
-/

namespace Flowchart
namespace Command

/-- The system's error about a path. -/
def systemError (path : String) : IO.Error → Files.Error
  | .noFileOrDirectory .. => .system (Files.missing path)
  | .inappropriateType _ code reason => .system ⟨code.toNat, reason, path⟩
  | .permissionDenied _ code reason => .system ⟨code.toNat, reason, path⟩
  | .otherError code reason => .system ⟨code.toNat, reason, path⟩
  | e => .system ⟨5, e.toString, path⟩

/-- Read a file, or the standard input for `-`. -/
def readSource (path : String) : IO (Except Files.Error Text.Bytes) := do
  try
    let bytes ← if path = "-" then (← IO.getStdin).readBinToEnd else IO.FS.readBinFile path
    return .ok bytes.toList
  catch e => return .error (systemError path e)

/-- Write a file. -/
def writeTarget (path text : String) : IO (Except Files.Error Unit) := do
  try
    IO.FS.writeBinFile path (Text.encode text.toList).toByteArray
    return .ok ()
  catch e => return .error (systemError path e)

/-- A supply of ids with a random seed. -/
def freshIds : IO IdSupply := do
  let bytes ← IO.getRandomBytes 8
  let seed := bytes.toList.foldl (fun n b => n * 256 + b.toUInt64) (0 : UInt64)
  return .scattered seed IdSupply.usualLength

/-- Run the command with real files. -/
def perform (args : List String) : IO Outcome := do
  match Request.ofArguments args with
  | .help => return { status := .ok 0, out := help }
  | .refuse reason => return refused reason
  | .run s =>
    match work s (← freshIds) (← readSource s.input) with
    | .error outcome => return outcome
    | .ok d =>
      match s.target? with
      | none => return d.printed
      | some path => return d.written path (← writeTarget path d.text)

/-- Say how the command ended. -/
def report (o : Outcome) : IO UInt32 := do
  let stdout ← IO.getStdout
  let stderr ← IO.getStderr
  for line in o.log do
    stderr.putStrLn line.text
  stdout.putStr o.out
  stderr.putStr o.err
  match o.status with
  | .ok n => return UInt32.ofNat n
  | .error e =>
    stderr.putStrLn e.message
    return 1

end Command
end Flowchart

/-- The program. -/
def main (args : List String) : IO UInt32 := do
  Flowchart.Command.report (← Flowchart.Command.perform args)
