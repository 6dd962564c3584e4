import SmallScheme.CommandLine.Arguments
import SmallScheme.CommandLine.Files
import SmallScheme.Repl
import SmallScheme.Settings

/-!
# The command line

`run` says what a command line does in given surroundings: what it prints, what it reports, and
how it ends.  Without a file it starts the interactive loop; with one it evaluates the whole file
and prints nothing by itself.  The steps that are reported go to the error output, followed by
the message of an error.
-/

namespace SmallScheme

namespace CommandLine

/-- What a command line finds around it. -/
structure Surroundings where
  /-- The files. -/
  files : FileSystem
  /-- The variables of the environment, by name. -/
  environment : String → Option String
  /-- The text on the standard input. -/
  input : String

/-- How a command line ends. -/
inductive Ending where
  /-- With a code, after its work. -/
  | returned (code : Nat)
  /-- With a code, before there was any work. -/
  | exited (code : Nat)
  /-- With an error that it does not report itself. -/
  | failed (e : Error)
  deriving DecidableEq, Repr

/-- What a command line does. -/
structure Outcome where
  /-- How it ends. -/
  ending : Ending
  /-- What it prints. -/
  output : String
  /-- What it reports. -/
  report : String
  deriving DecidableEq, Repr

/-- The name of the program. -/
def programName : String := "ezscheme"

/-- The shape of a command line. -/
def usage : String :=
  s!"usage: {programName} [-h] [--strict-unbound] [--trace] [file]\n"

/-- The help text. -/
def helpText : String :=
  usage ++ "\nA small Scheme interpreter\n\npositional arguments:\n" ++
    "  file              Scheme source file to run (default: start the REPL)\n" ++
    "\noptions:\n" ++
    "  -h, --help        show this help message and exit\n" ++
    "  --strict-unbound  Treat reads of unbound variables as errors\n" ++
    "  --trace           Log every eval/apply step to stderr\n"

/-- The message about refused arguments. -/
def usageMessage (e : UsageError) : String :=
  usage ++ s!"{programName}: error: " ++ e.message ++ "\n"

/-- The message about an error that ends a command line. -/
def errorMessage (text : String) : String :=
  "Error: " ++ text ++ "\n"

/-- One line for every event that was reported. -/
def eventLines (s : Store) : String :=
  String.join <| s.events.toList.map fun event =>
    s!"{programName}.{event.observer}: " ++ event.message ++ "\n"

/-- The interpreter of a command line.  An option counts more than a variable. -/
def interpreter (environment : String → Option String) (strict trace : Bool) :
    Effect Interpreter :=
  let strict := strict || Settings.flag (environment Settings.strictVariable) false
  let trace := trace || Settings.flag (environment Settings.traceVariable) false
  Interpreter.new (.standard .standard) ⟨strict, trace⟩ trace defaultLimit

/-- Evaluates a file, or starts the loop without one.  A path with a null character is refused
before anything is looked for.  The result is the message of an error that the command line reports
itself. -/
def work (around : Surroundings) (file : Option String) (strict trace : Bool) :
    Effect (Option String) := do
  let i ← interpreter around.environment strict trace
  match file with
  | none =>
    Repl.run i around.input.toList
    return none
  | some file =>
    let path := normalPath file
    if path.toList.contains '\x00' then throw .invalidPath
    match around.files path with
    | .error fault => return some (errorMessage (fault.message path))
    | .ok text =>
      tryCatch (do i.run (unifyLineEnds text.toList); return none) fun e =>
        if e.isProgramFault then return some (errorMessage e.message) else throw e

/-- The outcome of the work on a store that was empty before. -/
def outcomeOf (result : EStateM.Result Error Store (Option String)) : Outcome :=
  match result with
  | .ok none s => ⟨.returned 0, s.output .standard, eventLines s⟩
  | .ok (some message) s => ⟨.returned 1, s.output .standard, eventLines s ++ message⟩
  | .error e s => ⟨.failed e, s.output .standard, eventLines s⟩

/-- What a command line does. -/
def run (around : Surroundings) (arguments : List String) : Outcome :=
  match Command.ofArguments arguments with
  | .error e => ⟨.exited 2, "", usageMessage e⟩
  | .ok .help => ⟨.exited 0, helpText, ""⟩
  | .ok (.run file strict trace) => outcomeOf ((work around file strict trace).run .empty)

end CommandLine

end SmallScheme
