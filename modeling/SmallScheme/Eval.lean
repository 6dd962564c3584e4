import SmallScheme.Derived
import SmallScheme.Primitive.Run
import SmallScheme.Store.Scope

/-!
# Evaluation

An expression is a value that is looked at as a program: numbers, truth values and texts are
their own value, a symbol is looked up, and a list is a special form or the application of a
procedure.  `eval` evaluates an expression in a frame; `limit` bounds how deeply evaluation may
nest, and what is left of it bounds the printing of messages and events.

Each rule is written for any way `ev` to evaluate the parts of an expression.  `step` puts the
rules together, and `eval` ties the knot: the parts are evaluated like the whole, one level
deeper.
-/

namespace SmallScheme

/-- How programs are run. -/
structure Mode where
  /-- Whether it is an error to read a name that is not bound; otherwise its value is the empty
  list. -/
  strict : Bool
  /-- Whether every step is reported. -/
  traced : Bool
  deriving DecidableEq, Repr

namespace Mode

/-- Lenient reads and no reports. -/
def plain : Mode := ⟨false, false⟩

/-- An expression is about to be evaluated. -/
def reportEval (mode : Mode) (limit : Nat) (expr : Value) : Effect Unit := do
  if mode.traced then
    let form ← Effect.shown limit expr
    modify fun s => s.report (.eval form expr.typeName)

/-- A procedure is about to be applied. -/
def reportApply (mode : Mode) (limit : Nat) (proc : Value) (args : List Value) : Effect Unit := do
  if mode.traced then
    let procedure ← Effect.shown limit proc
    let arguments ← args.mapM (Effect.shown limit)
    modify fun s => s.report (.apply procedure arguments)

end Mode

/-- A way to evaluate an expression in a frame. -/
abbrev Evaluator := Value → FrameId → Effect Value

namespace Eval

open Effect

/-! ## Names, sequences and operands -/

/-- The value of a name. -/
def readName (mode : Mode) (x : Symbol) (env : FrameId) : Effect Value := do
  match (← get).lookup? env x with
  | some v => return v
  | none => if mode.strict then throw (.unbound x.name) else return .nil

/-- A name that is bound gets a new value. -/
def assignName (x : Symbol) (v : Value) (env : FrameId) : Effect Unit := do
  match (← get).assign? env x v with
  | some s => set s
  | none => throw (.unbound x.name)

/-- The values of some expressions, from left to right. -/
def operands (ev : Evaluator) (env : FrameId) : List Value → Effect (List Value)
  | [] => return []
  | expr :: rest => do
    let v ← ev expr env
    let vs ← operands ev env rest
    return v :: vs

/-- The value of the last of some expressions, after all others. -/
def sequence (ev : Evaluator) (env : FrameId) : List Value → Effect Value
  | [] => malformed .emptySequence
  | [expr] => ev expr env
  | expr :: rest => do
    discard <| ev expr env
    sequence ev env rest

/-! ## Application -/

/-- A new frame in which the parameters of a closure are bound to arguments.  Arguments without
parameter are ignored. -/
def enter (closure : Closure) (args : List Value) : Effect FrameId :=
  match closure.params[args.length]? with
  | some missing =>
    throw (.shortage ⟨closure.params.length, args.length, missing⟩)
  | none =>
    modifyGet fun s => s.addFrame (closure.params.zip args) (some closure.env)

/-- A procedure is applied to arguments. -/
def apply (mode : Mode) (limit : Nat) (ev : Evaluator) (proc : Value) (args : List Value) :
    Effect Value := do
  mode.reportApply limit proc args
  match proc with
  | .builtin b => b.apply limit args
  | .closure k =>
    let closure := (← get).closure k
    let env ← enter closure args
    sequence ev env closure.body
  | v => throw (.unknownForm (.notProcedure (← shown limit v)))

/-- The application in a cell: operator, operands from left to right, then the procedure.  The
operands are found after the operator has been evaluated. -/
def application (mode : Mode) (limit : Nat) (ev : Evaluator) (c : CellId) (env : FrameId) :
    Effect Value := do
  if !(← get).isList (.pair c) then
    throw (.unknownForm (.improperApplication (← shown limit (.pair c))))
  let proc ← ev ((← get).cell c).car env
  let s ← get
  let args ← operands ev env (s.members (s.cell c).cdr)
  apply mode limit ev proc args

/-! ## Special forms -/

/-- An assignment gives no value. -/
def assign (limit : Nat) (ev : Evaluator) (args : List Value) (env : FrameId) : Effect Value := do
  match args with
  | [.symbol x, expr] =>
    let v ← ev expr env
    assignName x v env
    return .nil
  | [target, _] => malformed (.assignTarget (← ask fun s => s.display limit target))
  | _ => malformed .assignOperands

/-- A definition binds in the current frame, names a closure without name, and gives no value. -/
def define (limit : Nat) (ev : Evaluator) (args : List Value) (env : FrameId) : Effect Value := do
  let (x, expr) ← Derived.definition limit args
  let v ← ev expr env
  if let .closure k := v then modify fun s => s.nameClosure k x
  modify fun s => s.define env x v
  return .nil

/-- A choice: only false is false, and without alternative the result is false. -/
def choice (ev : Evaluator) (args : List Value) (env : FrameId) : Effect Value := do
  match args with
  | [test, consequent] =>
    if (← ev test env) == .bool false then return .bool false else ev consequent env
  | [test, consequent, alternative] =>
    if (← ev test env) == .bool false then ev alternative env else ev consequent env
  | _ => malformed .ifOperands

/-- The names in a parameter list. -/
def parameters (limit : Nat) : List Value → Effect (List Symbol)
  | [] => return []
  | .symbol x :: rest => do return x :: (← parameters limit rest)
  | v :: _ => malformedBy limit .lambdaParameter v

/-- A procedure keeps its body and the current frame. -/
def lambda (limit : Nat) (args : List Value) (env : FrameId) : Effect Value := do
  match args with
  | [] => malformed .lambdaEmpty
  | params :: body =>
    match (← get).list? params with
    | none => malformedBy limit .lambdaParameters params
    | some names =>
      let names ← parameters limit names
      if body.isEmpty then malformed .lambdaBody
      modifyGet fun s => s.addClosure ⟨names, body, env, none⟩

/-- A special form with its operands. -/
def special (limit : Nat) (ev : Evaluator) (form : SpecialForm) (args : List Value)
    (env : FrameId) : Effect Value := do
  match form with
  | .quote =>
    match args with
    | [v] => return v
    | _ => malformed .quoteOperands
  | .assign => assign limit ev args env
  | .define => define limit ev args env
  | .choice => choice ev args env
  | .cond => ev (← Derived.cond limit args) env
  | .letIn =>
    match args with
    | [] => malformed .letEmpty
    | bindings :: body => ev (← Derived.letIn limit bindings body) env
  | .lambda => lambda limit args env
  | .sequence => sequence ev env args

/-! ## All expressions -/

/-- The special form that a value is the keyword of. -/
def keyword? : Value → Option SpecialForm
  | .symbol x => SpecialForm.ofSymbol? x
  | _ => none

/-- The value of the expression in a cell. -/
def combination (mode : Mode) (limit : Nat) (ev : Evaluator) (c : CellId) (env : FrameId) :
    Effect Value := do
  let s ← get
  match keyword? (s.cell c).car with
  | some form =>
    match s.list? (.pair c) with
    | some members => special limit ev form members.tail env
    | none => malformedBy limit (.improper form.keyword.name) (.pair c)
  | none => application mode limit ev c env

/-- The value of an expression, given a way to evaluate its parts. -/
def step (mode : Mode) (limit : Nat) (ev : Evaluator) (expr : Value) (env : FrameId) :
    Effect Value := do
  mode.reportEval limit expr
  match expr with
  | .number _ | .bool _ | .text _ => return expr
  | .symbol x => readName mode x env
  | .pair c => combination mode limit ev c env
  | v => throw (.unknownForm (.notExpression (← shown limit v)))

end Eval

/-- The value of an expression in a frame. -/
def eval (mode : Mode) : Nat → Evaluator
  | 0 => fun _ _ => throw .tooDeep
  | limit + 1 => Eval.step mode limit (eval mode limit)

@[simp] theorem eval_zero (mode : Mode) (expr : Value) (env : FrameId) :
    eval mode 0 expr env = throw .tooDeep := rfl

theorem eval_succ (mode : Mode) (limit : Nat) (expr : Value) (env : FrameId) :
    eval mode (limit + 1) expr env = Eval.step mode limit (eval mode limit) expr env := rfl

end SmallScheme
