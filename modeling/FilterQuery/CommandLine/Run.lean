import FilterQuery.CommandLine.Arguments
import FilterQuery.Guide
import FilterQuery.Query.Check

/-!
# Running commands

What a command prints and how it ends is a function of the texts it reads: the query, which comes
from the input if it is not an argument, and the schema.  Errors are printed apart from results,
and end with code one.  No log is kept, also where the arguments ask for one, and arguments that do
not fit the usage end with code two and without an explanation of the usage.
-/

namespace FilterQuery.CommandLine

/-- How a command ends and what it prints. -/
structure Report where
  code : Nat
  output : String
  errors : String

/-- The texts that a command may read. -/
structure Sources where
  /-- The input, unless it is a terminal. -/
  input : Option String
  /-- The text of a file, or the reason why there is none. -/
  file : String → Except String String

namespace Report

/-- The report of a command that succeeds. -/
def success (output : String) : Report := ⟨0, output, ""⟩

/-- The report of a command that fails. -/
def failure (message : String) : Report := ⟨1, "", message ++ "\n"⟩

/-- The report on arguments that do not fit the usage. -/
def misused : Report := ⟨2, "", ""⟩

end Report

/-- A text without the blanks at its end. -/
def trimEnd (text : String) : String :=
  String.ofList (text.toList.reverse.dropWhile Character.isBlank).reverse

/-- The query of a check, which is read from the input if it is not an argument. -/
def CheckArguments.queryFrom (arguments : CheckArguments) (input : Option String) :
    Option String :=
  arguments.query.or (input.map trimEnd)

/-- What is printed for the outcome of a check. -/
def resultText (pretty : Bool) : CheckResult → String
  | .valid => "Query is valid\n"
  | .empty => "Query is empty\n"
  | .compiled expression => (if pretty then expression.pretty else expression.compact) ++ "\n"

/-- Run a check. -/
def CheckArguments.run (arguments : CheckArguments) (sources : Sources) : Report :=
  match arguments.queryFrom sources.input with
  | none => .failure "No query provided. Pass it as an argument or pipe it to stdin."
  | some query =>
      match sources.file arguments.schemaPath with
      | .error reason => .failure ("IO error: " ++ reason)
      | .ok schema =>
          let request : CheckRequest :=
            { query, schema, grammar := arguments.grammar, validateOnly := arguments.validateOnly }
          match request.run with
          | .ok result => .success (resultText arguments.pretty result)
          | .error error => .failure error.message

/-- Run a command. -/
def Command.run (sources : Sources) : Command → Report
  | check arguments => arguments.run sources
  | overview => .success Guide.overview
  | category name =>
      match Guide.categoryPage? name with
      | some page => .success page
      | none => .failure (Guide.unknownCategory name)
  | tutorial => .success Guide.tutorial

/-- Do what arguments ask for. -/
def run (sources : Sources) (arguments : List String) : Report :=
  match request arguments with
  | .run command => command.run sources
  | .version => .success "sift 0.1.0\n"
  | .misused => .misused

end FilterQuery.CommandLine
