import FilterQuery.Query.Check

/-!
# Command line arguments

Arguments are read from left to right.  A flag is a dash with a letter or two dashes with a name,
letters may share one dash, and the value of an option follows it directly, behind an equals sign
or as the next argument.  Behind two dashes alone everything is positional.  No flag and no option
may be given twice on one level.  There is no flag that asks for help.
-/

namespace FilterQuery.CommandLine

/-- What is to be done with a query. -/
structure CheckArguments where
  /-- The query, if it is not to be read from the input. -/
  query : Option String
  schemaPath : String
  grammar : Grammar
  pretty : Bool
  validateOnly : Bool

/-- What is to be done. -/
inductive Command
  | check (arguments : CheckArguments)
  | overview
  | category (name : String)
  | tutorial

/-- What arguments ask for. -/
inductive Request
  | run (command : Command)
  | version
  /-- The arguments do not fit the usage. -/
  | misused

/-- The flags and the option of a command. -/
inductive Flag
  | verbose
  | schema
  | json
  | pretty
  | validateOnly
  deriving DecidableEq

namespace Flag

/-- Whether a flag is followed by a value. -/
def takesValue : Flag → Bool
  | schema => true
  | _ => false

/-- The flag of the check command with a given letter. -/
def ofLetter? : Char → Option Flag
  | 'v' => some verbose
  | 's' => some schema
  | 'p' => some pretty
  | _ => none

/-- The flag of the check command with a given name. -/
def ofName? : String → Option Flag
  | "verbose" => some verbose
  | "schema" => some schema
  | "json" => some json
  | "pretty" => some pretty
  | "syntax-only" => some validateOnly
  | _ => none

end Flag

/-- What has been given on one level: flags, the value of the option, and positional arguments. -/
structure Given where
  flags : List Flag
  schemaPath : Option String
  positional : List String

namespace Given

/-- Nothing at all. -/
def nothing : Given := ⟨[], none, []⟩

/-- One more flag, unless it has been given before. -/
def addFlag? (given : Given) (flag : Flag) : Option Given :=
  if given.flags.contains flag then none else some { given with flags := flag :: given.flags }

/-- The value of an option that has just been given.  It is not empty. -/
def setPath? (given : Given) (path : String) : Option Given :=
  if path = "" then none else some { given with schemaPath := some path }

/-- One more positional argument. -/
def addPositional (given : Given) (argument : String) : Given :=
  { given with positional := given.positional ++ [argument] }

end Given

/-- An argument as it looks from the outside. -/
inductive Shape
  /-- Two dashes alone. -/
  | escape
  /-- Two dashes with a name, and a value behind an equals sign. -/
  | long (name : String) (value : Option String)
  /-- One dash with letters. -/
  | short (letters : List Char)
  | plain

/-- The part of a text behind its first equals sign. -/
def behindEquals? (text : List Char) : Option String :=
  match text.dropWhile (· != '=') with
  | [] => none
  | _ :: value => some (String.ofList value)

/-- How an argument looks from the outside. -/
def shape (argument : String) : Shape :=
  match argument.toList with
  | ['-', '-'] => .escape
  | '-' :: '-' :: text =>
      .long (String.ofList (text.takeWhile (· != '='))) (behindEquals? text)
  | '-' :: first :: rest => .short (first :: rest)
  | _ => .plain

/-- Whether the next argument can be the value of an option. -/
def isPlain (argument : String) : Bool :=
  match shape argument with
  | .plain => true
  | _ => false

/-- Take the flags of some letters.  The result says whether an option still lacks its value. -/
def takeLetters? (known : Flag → Bool) (given : Given) : List Char → Option (Given × Bool)
  | [] => some (given, false)
  | letter :: rest => do
      let flag ← (Flag.ofLetter? letter).filter known
      let given ← given.addFlag? flag
      if flag.takesValue then
        match rest with
        | [] => some (given, true)
        | '=' :: value => (given.setPath? (String.ofList value)).map fun given => (given, false)
        | value => (given.setPath? (String.ofList value)).map fun given => (given, false)
      else takeLetters? known given rest

/-- Take a flag with a name.  The result says whether an option still lacks its value. -/
def takeName? (known : Flag → Bool) (given : Given) (name : String) (value : Option String) :
    Option (Given × Bool) := do
  let flag ← (Flag.ofName? name).filter known
  let given ← given.addFlag? flag
  match flag.takesValue, value with
  | true, some path => (given.setPath? path).map fun given => (given, false)
  | true, none => some (given, true)
  | false, none => some (given, false)
  | false, some _ => none

/-- Take the flags of one argument.  The result says whether an option still lacks its value. -/
def takeFlags? (known : Flag → Bool) (given : Given) : Shape → Option (Given × Bool)
  | .long name value => takeName? known given name value
  | .short letters => takeLetters? known given letters
  | .escape | .plain => none

/-- Take the arguments of a command, all flags of which are among the known ones. -/
def takeArguments? (known : Flag → Bool) (given : Given) : List String → Option Given
  | [] => some given
  | argument :: rest =>
      match shape argument with
      | .escape => some { given with positional := given.positional ++ rest }
      | .plain => takeArguments? known (given.addPositional argument) rest
      | flags =>
          match takeFlags? known given flags, rest with
          | some (given, false), rest => takeArguments? known given rest
          | some (given, true), path :: rest =>
              if isPlain path then (given.setPath? path).bind (takeArguments? known · rest)
              else none
          | _, _ => none

/-- The check that has been asked for. -/
def checkCommand? (given : Given) : Option Command := do
  let path ← given.schemaPath
  let query ←
    match given.positional with
    | [] => some none
    | [query] => some (some query)
    | _ => none
  return .check
    { query
      schemaPath := path
      grammar := if given.flags.contains .json then .array else .text
      pretty := given.flags.contains .pretty
      validateOnly := given.flags.contains .validateOnly }

/-- The arguments of a command that has only the flag for verbosity. -/
def takePositional? (arguments : List String) : Option (List String) :=
  (takeArguments? (· == .verbose) Given.nothing arguments).map (·.positional)

/-- The command of a given name with its arguments. -/
def command? (name : String) (arguments : List String) : Option Command :=
  match name with
  | "check" => (takeArguments? (fun _ => true) Given.nothing arguments).bind checkCommand?
  | "docs" =>
      match takePositional? arguments with
      | some [] => some .overview
      | _ => none
  | "doc" =>
      match takePositional? arguments with
      | some [name] => some (.category name)
      | _ => none
  | "onboard" =>
      match takePositional? arguments with
      | some [] => some .tutorial
      | _ => none
  | _ => none

/-- What the letters before a command ask for: the version at once, more arguments, or nothing
that fits.  The flag for verbosity may be given once. -/
def takeGlobalLetters (verbose : Bool) : List Char → Except Request Bool
  | [] => .ok verbose
  | 'V' :: _ => .error .version
  | 'v' :: rest => if verbose then .error .misused else takeGlobalLetters true rest
  | _ :: _ => .error .misused

/-- What arguments ask for, the flag for verbosity having been given before or not. -/
def requestFrom (verbose : Bool) : List String → Request
  | [] => .misused
  | argument :: rest =>
      match shape argument with
      | .long "version" none => .version
      | .long "verbose" none => if verbose then .misused else requestFrom true rest
      | .short letters =>
          match takeGlobalLetters verbose letters with
          | .ok verbose => requestFrom verbose rest
          | .error request => request
      | .plain =>
          match command? argument rest with
          | some command => .run command
          | none => .misused
      | _ => .misused

/-- What arguments ask for. -/
def request (arguments : List String) : Request :=
  requestFrom false arguments

end FilterQuery.CommandLine
