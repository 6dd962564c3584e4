import SmallScheme.CommandLine.Run

/-!
# The program

Carries out what `CommandLine.run` says, on the real files and streams.  The interactive loop
works line by line, so that every answer is seen before the next line is typed.
-/

namespace SmallScheme

namespace CommandLine

/-- The text of a file, or why it cannot be read. -/
def readProgram (path : String) : IO (Except FileFault String) := do
  try
    return .ok (← IO.FS.readFile path)
  catch
    | .noFileOrDirectory .. => return .error .missing
    | .inappropriateType none .. => return .error .isDirectory
    | .inappropriateType (some _) .. => return .error .notDirectory
    | e@(.invalidArgument _ _ details) =>
      if details = "name too long" then return .error .nameTooLong else throw e
    | e => throw e

/-- Prints what a store holds as output and reports.  The store that is left has neither. -/
def emit (s : Store) : IO Store := do
  (← IO.getStdout).putStr (s.output .standard)
  (← IO.getStderr).putStr (eventLines s)
  (← IO.getStdout).flush
  return { s with printed := #[], events := #[] }

/-- Does one step on a store and prints what it says. -/
def perform {α : Type} (effect : Effect α) (s : Store) : IO (α × Store) := do
  match effect.run s with
  | .ok a s => return (a, ← emit s)
  | .error e s =>
    discard <| emit s
    throw (IO.userError e.message)

/-- Takes lines from the standard input until the loop ends. -/
partial def interact (i : Interpreter) (s : Store) : IO Unit := do
  let ((), s) ← perform (Repl.say Repl.prompt) s
  let line ← (← IO.getStdin).getLine
  if !line.isEmpty then
    let (goesOn, s) ← perform (Repl.turn i line.toList) s
    if goesOn then interact i s

/-- Carries out a command line and returns its exit code. -/
def carryOut (arguments : List String) : IO Nat := do
  let finish (around : Surroundings) : IO Nat := do
    let outcome := run around arguments
    (← IO.getStdout).putStr outcome.output
    (← IO.getStderr).putStr outcome.report
    match outcome.ending with
    | .returned code | .exited code => return code
    | .failed e => throw (IO.userError e.message)
  let strict ← IO.getEnv Settings.strictVariable
  let trace ← IO.getEnv Settings.traceVariable
  let environment (name : String) : Option String :=
    if name = Settings.strictVariable then strict
    else if name = Settings.traceVariable then trace
    else none
  match Command.ofArguments arguments with
  | .ok (.run none strict trace) =>
    let (i, s) ← perform (interpreter environment strict trace) .empty
    let ((), s) ← perform (Repl.say Repl.banner) s
    interact i s
    return 0
  | .ok (.run (some file) ..) =>
    let text ← readProgram (normalPath file)
    finish ⟨fun _ => text, environment, ""⟩
  | _ => finish ⟨fun _ => .error .missing, environment, ""⟩

end CommandLine

end SmallScheme

/-- The command line. -/
def main (arguments : List String) : IO UInt32 := do
  return (← SmallScheme.CommandLine.carryOut arguments).toUInt32
