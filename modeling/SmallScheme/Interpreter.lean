import SmallScheme.Eval
import SmallScheme.Reading
import SmallScheme.Library
import SmallScheme.Store.Tree

/-!
# Interpreters

An interpreter has a global frame in which the native procedures are bound.  It reads a text as a
whole and then evaluates its data in order, all in the global frame, so that definitions last from
one text to the next.  If an evaluation fails, what was done before stays.
-/

namespace SmallScheme

/-- How deeply lists, evaluation and printing may nest, unless something else is asked for. -/
def defaultLimit : Nat := 6000

/-- An interpreter. -/
structure Interpreter where
  /-- How programs are run. -/
  mode : Mode
  /-- Whether every whole expression is reported before it is evaluated. -/
  announced : Bool
  /-- How deeply lists, evaluation and printing may nest. -/
  limit : Nat
  /-- The global frame. -/
  globals : FrameId
  deriving DecidableEq, Repr

namespace Interpreter

/-- A new interpreter with its own global frame. -/
def new (library : Library) (mode : Mode) (announced : Bool) (limit : Nat) :
    Effect Interpreter := do
  let globals ← modifyGet fun s => s.addFrame [] none
  library.install globals
  return ⟨mode, announced, limit, globals⟩

/-- The value of an expression in the global frame. -/
def interpret (i : Interpreter) (expr : Value) : Effect Value := do
  if i.announced then
    let form ← Effect.shown i.limit expr
    modify fun s => s.report (.interpret form)
  SmallScheme.eval i.mode i.limit expr i.globals

/-- The expressions of a text. -/
def parse (i : Interpreter) (text : List Char) : Effect (List Value) := do
  let data ← Effect.ask fun _ => read i.limit text
  modifyGet fun s => s.loadAll data

theorem parse_of_read {i : Interpreter} {text : List Char} {data : List Datum} (s : Store)
    (h : read i.limit text = .ok data) :
    i.parse text s = .ok (s.loadAll data).1 (s.loadAll data).2 := by
  exact Effect.bind_ok (Effect.ask_ok (f := fun _ => read i.limit text) h)

/-- The first expression of a text, or the empty list if it has none. -/
def parseFirst (i : Interpreter) (text : List Char) : Effect Value := do
  return (← i.parse text).headD .nil

/-- The value of the last of some expressions, after all others.  Without an expression it is
the empty list. -/
def interpretAll (i : Interpreter) : List Value → Effect Value
  | [] => return .nil
  | [expr] => i.interpret expr
  | expr :: rest => do
    discard <| i.interpret expr
    i.interpretAll rest

/-- The value of the last expression of a text, after all others. -/
def eval (i : Interpreter) (text : List Char) : Effect Value := do
  i.interpretAll (← i.parse text)

/-- All expressions of a text are evaluated. -/
def run (i : Interpreter) (text : List Char) : Effect Unit := do
  discard <| i.eval text

/-- A procedure is applied to arguments, without any program around it. -/
def apply (i : Interpreter) (proc : Value) (args : List Value) : Effect Value :=
  Eval.apply i.mode i.limit (SmallScheme.eval i.mode i.limit) proc args

end Interpreter

end SmallScheme
