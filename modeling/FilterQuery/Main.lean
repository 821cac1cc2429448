import FilterQuery.CommandLine.Run

/-!
# The command line program

The program reads the texts that its arguments call for, and prints what the library reports.
-/

namespace FilterQuery

open CommandLine

/-- The text of a file, or the reason why it cannot be read. -/
def readText (path : String) : IO (Except String String) := do
  try
    return .ok (← IO.FS.readFile path)
  catch error =>
    match error with
    | .noFileOrDirectory .. => return .error "No such file or directory (os error 2)"
    | other => return .error (toString other)

/-- The text of the standard input, unless it is a terminal. -/
def readInput : IO (Option String) := do
  let input ← IO.getStdin
  if ← input.isTty then return none else return some (← input.readToEnd)

/-- The texts that a request calls for. -/
def sourcesFor : Request → IO Sources
  | .run (.check arguments) => do
      let input ← if arguments.query.isSome then pure none else readInput
      let schema ← readText arguments.schemaPath
      return ⟨input, fun _ => schema⟩
  | _ => return ⟨none, fun _ => .error ""⟩

/-- Print a report. -/
def CommandLine.Report.print (report : Report) : IO UInt32 := do
  IO.print report.output
  IO.eprint report.errors
  return report.code.toUInt32

end FilterQuery

/-- Do what the arguments ask for. -/
def main (arguments : List String) : IO UInt32 := do
  let sources ← FilterQuery.sourcesFor (FilterQuery.CommandLine.request arguments)
  (FilterQuery.CommandLine.run sources arguments).print
