import SmallScheme.Interpreter

/-!
# The interactive loop

The loop prompts, takes one line, and answers it.  A line is read as a whole, but only its first
expression is evaluated.  The answer is the value, unless it is the empty list, or what went
wrong.  The loop ends at the word `quit` on a line of its own or when there are no more lines.

A fault of the program ends the answer to its line and not the loop; so does nesting that is too
deep.  Any other error ends the loop.
-/

namespace SmallScheme

namespace Repl

/-- What the loop says when it starts. -/
def banner : String := "Type a Scheme expression or 'quit'\n"

/-- What the loop says when it waits for a line. -/
def prompt : String := "[ez] >> "

/-- The line that ends the loop. -/
def quitWord : List Char := ['q', 'u', 'i', 't']

/-- How a value is answered.  The empty list is not answered at all. -/
def answer? (s : Store) (limit : Nat) (v : Value) : Except Error (Option String) :=
  match v with
  | .nil => .ok none
  | .closure _ => .ok (some ": <procedure object>")
  | v => do return some (": " ++ (← s.render limit v))

/-- Text is printed where the loop prints. -/
def say (text : String) : Effect Unit :=
  modify fun s => s.print .standard text

/-- Evaluates the first expression of a line and answers it. -/
def evaluate (i : Interpreter) (line : List Char) : Effect Unit := do
  match ← i.parse line with
  | [] => return
  | expr :: _ =>
    let v ← i.interpret expr
    if let some text ← Effect.ask fun s => answer? s i.limit v then
      say (text ++ "\n")

/-- Whether the loop goes on after an error. -/
def recovers (e : Error) : Bool :=
  e.isProgramFault || e == .tooDeep

/-- Answers a line that is neither blank nor the last one. -/
def respond (i : Interpreter) (line : List Char) : Effect Unit :=
  tryCatch (evaluate i line) fun e =>
    if recovers e then say ("error: " ++ e.message ++ "\n") else throw e

/-- Takes one line.  The result tells whether the loop goes on. -/
def turn (i : Interpreter) (line : List Char) : Effect Bool := do
  let line := Text.stripChars line
  if line = quitWord then return false
  if !line.isEmpty then respond i line
  return true

/-- Prompts, and takes lines until the loop ends. -/
def loop (i : Interpreter) : List (List Char) → Effect Unit
  | [] => say prompt
  | line :: rest => do
    say prompt
    if ← turn i line then loop i rest

/-- The whole loop over a text. -/
def run (i : Interpreter) (input : List Char) : Effect Unit := do
  say banner
  loop i (Text.lines input)

end Repl

end SmallScheme
