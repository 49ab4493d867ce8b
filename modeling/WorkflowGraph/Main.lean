import WorkflowGraph.Scenario

/-!
# The command line

`door [graph.json] [runner.json]` runs the bundled scenario on the given graph and settings, or
on those of the door, and prints the nodes that the run went through.
-/

namespace WorkflowGraph.CommandLine

/-- The number of frames of a run. -/
def frameCount : Nat := 240

/-- The length of a frame in seconds. -/
def frameTime : Float32 := 1.0 / 30.0

/-- The lines that report a run. -/
def report (s : Summary) : List String :=
  ["ran " ++ toString s.frames ++ " frames",
    "visited: " ++ " -> ".intercalate s.visited,
    "final node: " ++ s.finalNode.getD "-" ++ " (door " ++
      (if s.doorOpen then "open" else "closed") ++ ")"]

/-- The wording of a failure to read a file. -/
def cause : IO.Error → String
  | .noFileOrDirectory .. => "No such file or directory (os error 2)"
  | .permissionDenied .. => "Permission denied (os error 13)"
  | e => toString e

/-- Reads a file, or tells why it cannot be read. -/
def readText (path : String) : IO (Except String String) := do
  try
    return .ok (← IO.FS.readFile path)
  catch e =>
    return .error ("failed to read '" ++ path ++ "': " ++ cause e)

/-- Reads a file if there is one to read. -/
def readOptional : Option String → IO (Except String (Option String))
  | none => return .ok none
  | some path => return (← readText path).map some

/-- Prints a line on the error output and fails. -/
def fail (line : String) : IO UInt32 := do
  IO.eprintln line
  return 1

/-- Runs the program on its arguments. -/
def run (args : List String) : IO UInt32 := do
  if 2 < args.length then
    return ← fail "Usage: door [graph.json] [runner.json]"
  let graph ← readOptional args[0]?
  let settings ← readOptional args[1]?
  match graph, settings with
  | .ok graph, .ok settings =>
    match Scenario.run graph settings Scenario.doorCues frameCount frameTime with
    | .ok summary =>
      for line in report summary do
        IO.println line
      return 0
    | .error e => fail ("Error: " ++ e.message)
  | .error e, _ => fail ("Error: " ++ e)
  | .ok _, .error e => fail ("Error: " ++ e)

end WorkflowGraph.CommandLine

/-- The `door` program. -/
def main (args : List String) : IO UInt32 := WorkflowGraph.CommandLine.run args
