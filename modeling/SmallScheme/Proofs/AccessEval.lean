import SmallScheme.Interpreter
import SmallScheme.Proofs.AccessPrimitives
import SmallScheme.Proofs.Descent

/-!
# Evaluation asks only for parts that are there

The rules of evaluation, written with explicit accesses: operands are asked for by their index, the
last expression of a sequence and the parameter without argument likewise, special forms are looked
up in their table, values in the frame that binds the name, and the operator and the operands of an
application are the two parts of a value.

The main results are `ByAccess.eval_eq` and `ByAccess.evalText_eq`: whatever the host answers for
missing parts, the evaluation of expressions and of texts does what it did.
-/

namespace SmallScheme

namespace ByAccess

open Access Effect

section Definitions

variable (h : Host) (mode : Mode) (limit : Nat) (ev : Evaluator)

/-! ## Events and names -/

/-- An expression is about to be evaluated. -/
def reportEval (expr : Value) : Effect Unit := do
  if mode.traced then
    let form ← h.print limit expr
    modify fun s => s.report (.eval form expr.typeName)

/-- A procedure is about to be applied. -/
def reportApply (proc : Value) (args : List Value) : Effect Unit := do
  if mode.traced then
    let procedure ← h.print limit proc
    let arguments ← args.mapM (h.print limit)
    modify fun s => s.report (.apply procedure arguments)

/-- The value of a name, from the nearest frame that binds it. -/
def readName (x : Symbol) (env : FrameId) : Effect Value := do
  let s ← get
  match s.find? env x with
  | some f => entry h.missing ((s.frame f).bindings.get? x)
  | none => if mode.strict then throw (.unbound x.name) else return .nil

/-- The nearest frame that binds a name binds it anew. -/
def assignName (x : Symbol) (v : Value) (env : FrameId) : Effect Unit := do
  match (← get).find? env x with
  | some f => modify fun s => s.define f x v
  | none => throw (.unbound x.name)

/-! ## Sequences and application -/

/-- The value of the last of some expressions, after all others. -/
def sequence (env : FrameId) (exprs : List Value) : Effect Value := do
  if exprs.isEmpty then malformed .emptySequence
  forM exprs.dropLast fun expr => discard (ev expr env)
  ev (← last h.missing exprs) env

/-- A new frame in which the parameters of a closure are bound to arguments. -/
def enter (closure : Closure) (args : List Value) : Effect FrameId := do
  if args.length < closure.params.length then
    let parameter ← item h.missing closure.params args.length
    throw (.shortage ⟨closure.params.length, args.length, parameter⟩)
  modifyGet fun s => s.addFrame (closure.params.zip args) (some closure.env)

/-- A procedure is applied to arguments. -/
def apply (proc : Value) (args : List Value) : Effect Value := do
  reportApply h mode limit proc args
  match proc with
  | .builtin b => applyBuiltin h limit b args
  | .closure k =>
    let closure := (← get).closure k
    let env ← enter h closure args
    sequence h ev env closure.body
  | v => throw (.unknownForm (.notProcedure (← h.print limit v)))

/-- The application in a value: operator, operands from left to right, then the procedure. -/
def application (expr : Value) (env : FrameId) : Effect Value := do
  if !(← get).isList expr then
    throw (.unknownForm (.improperApplication (← h.print limit expr)))
  let proc ← ev (← first h.missing expr) env
  let rest ← second h.missing expr
  let args ← Eval.operands ev env ((← get).members rest)
  apply h mode limit ev proc args

/-! ## Special forms -/

/-- How a value is shown in messages about the shape of a form: pairs are marked as such. -/
def display (v : Value) : Effect String := do
  match v with
  | .pair _ => return "Pair<" ++ (← h.print limit v) ++ ">"
  | v => h.print limit v

/-- A quotation. -/
def quote (args : List Value) : Effect Value := do
  if args.length = 1 then item h.missing args 0 else malformed .quoteOperands

/-- An assignment. -/
def assign (args : List Value) (env : FrameId) : Effect Value := do
  if args.length = 2 then
    let target ← item h.missing args 0
    let expr ← item h.missing args 1
    match target with
    | .symbol x =>
      let v ← ev expr env
      assignName x v env
      return .nil
    | _ => malformed (.assignTarget (← display h limit target))
  else malformed .assignOperands

/-- A definition. -/
def define (args : List Value) (env : FrameId) : Effect Value := do
  let (x, expr) ← definition h limit args
  let v ← ev expr env
  if let .closure k := v then modify fun s => s.nameClosure k x
  modify fun s => s.define env x v
  return .nil

/-- A choice. -/
def choice (args : List Value) (env : FrameId) : Effect Value := do
  if args.length = 2 || args.length = 3 then
    if (← ev (← item h.missing args 0) env) != .bool false then
      ev (← item h.missing args 1) env
    else if args.length = 3 then ev (← item h.missing args 2) env
    else return .bool false
  else malformed .ifOperands

/-- The names in a parameter list. -/
def parameters : List Value → Effect (List Symbol)
  | [] => return []
  | .symbol x :: rest => do return x :: (← parameters rest)
  | v :: _ => refuse h limit .lambdaParameter v

/-- A procedure. -/
def lambda (args : List Value) (env : FrameId) : Effect Value := do
  if args.isEmpty then malformed .lambdaEmpty
  let params ← item h.missing args 0
  let s ← get
  if s.isList params then
    let names ← parameters h limit (s.members params)
    let body := args.drop 1
    if body.isEmpty then malformed .lambdaBody
    modifyGet fun s => s.addClosure ⟨names, body, env, none⟩
  else refuse h limit .lambdaParameters params

/-- A special form with its operands. -/
def special (form : SpecialForm) (args : List Value) (env : FrameId) : Effect Value := do
  match form with
  | .quote => quote h args
  | .assign => assign h limit ev args env
  | .define => define h limit ev args env
  | .choice => choice h ev args env
  | .cond => ev (← cond h limit args) env
  | .letIn =>
    if args.isEmpty then malformed .letEmpty
    ev (← letIn h limit (← item h.missing args 0) (args.drop 1)) env
  | .lambda => lambda h limit args env
  | .sequence => sequence h ev env args

/-! ## All expressions -/

/-- The value of an expression that is a pair. -/
def combination (expr : Value) (env : FrameId) : Effect Value := do
  match ← first h.missing expr with
  | .symbol x =>
    let form? := SpecialForm.ofSymbol? x
    if form?.isSome then
      let s ← get
      if s.isList expr then
        let form ← entry h.missing form?
        special h limit ev form (s.members (← second h.missing expr)) env
      else refuse h limit (.improper x.name) expr
    else application h mode limit ev expr env
  | _ => application h mode limit ev expr env

/-- The value of an expression, given a way to evaluate its parts. -/
def step (expr : Value) (env : FrameId) : Effect Value := do
  reportEval h mode limit expr
  match expr with
  | .number _ | .bool _ | .text _ => return expr
  | .symbol x => readName h mode x env
  | .pair _ => combination h mode limit ev expr env
  | v => throw (.unknownForm (.notExpression (← h.print limit v)))

end Definitions

/-- The value of an expression in a frame. -/
def eval (h : Host) (mode : Mode) : Nat → Evaluator
  | 0 => fun _ _ => throw .tooDeep
  | limit + 1 => step h mode limit (eval h mode limit)

/-! ## Texts -/

section Texts

variable (h : Host) (i : Interpreter)

/-- The value of an expression in the global frame. -/
def interpret (expr : Value) : Effect Value := do
  if i.announced then
    let form ← h.print i.limit expr
    modify fun s => s.report (.interpret form)
  eval h i.mode i.limit expr i.globals

/-- The value of the last of some expressions, after all others. -/
def interpretAll : List Value → Effect Value
  | [] => return .nil
  | [expr] => interpret h i expr
  | expr :: rest => do
    discard <| interpret h i expr
    interpretAll rest

/-- The expressions of a text. -/
def parse (text : List Char) : Effect (List Value) := do
  let data ← ask fun _ => Descent.read h.missing i.limit text
  modifyGet fun s => s.loadAll data

/-- The value of the last expression of a text, after all others. -/
def evalText (text : List Char) : Effect Value := do
  interpretAll h i (← parse h i text)

end Texts

/-! ## They do the same -/

section Agreement

variable (missing : HostFault → Error) (mode : Mode) (limit : Nat) (ev : Evaluator)

lemma readName_eq (x : Symbol) (env : FrameId) :
    readName (.usual missing) mode x env = Eval.readName mode x env := by
  funext s
  unfold readName Eval.readName
  rw [get_bind, get_bind]
  unfold Store.lookup?
  cases hfind : s.find? env x with
  | none => rfl
  | some f =>
    have hbound := List.find?_some hfind
    obtain ⟨v, hv⟩ := Option.isSome_iff_exists.mp hbound
    simp [hv]

lemma assignName_eq (x : Symbol) (v : Value) (env : FrameId) :
    assignName x v env = Eval.assignName x v env := by
  funext s
  unfold assignName Eval.assignName
  rw [get_bind, get_bind]
  unfold Store.assign?
  cases s.find? env x <;> rfl

lemma sequence_eq (env : FrameId) (exprs : List Value) :
    sequence (.usual missing) ev env exprs = Eval.sequence ev env exprs := by
  induction exprs with
  | nil => rfl
  | cons expr rest ih =>
    cases rest with
    | nil => simp [sequence, Eval.sequence]
    | cons expr' rest =>
      simp [sequence, Eval.sequence, ← ih]

lemma enter_eq (closure : Closure) (args : List Value) :
    enter (.usual missing) closure args = Eval.enter closure args := by
  unfold enter Eval.enter item
  cases hparam : closure.params[args.length]? with
  | none => simp [List.getElem?_eq_none_iff.mp hparam]
  | some parameter =>
    obtain ⟨hlt, -⟩ := List.getElem?_eq_some_iff.mp hparam
    simp [hlt, throw_bind]

lemma apply_eq (proc : Value) (args : List Value) :
    apply (.usual missing) mode limit ev proc args = Eval.apply mode limit ev proc args := by
  unfold apply Eval.apply
  cases proc with
  | builtin b => simp only [applyBuiltin_eq]; rfl
  | closure k => simp only [enter_eq, sequence_eq]; rfl
  | _ => rfl

lemma application_eq (c : CellId) (env : FrameId) :
    application (.usual missing) mode limit ev (.pair c) env =
      Eval.application mode limit ev c env := by
  unfold application Eval.application
  simp only [apply_eq]
  funext s
  rfl

lemma quote_eq (args : List Value) (env : FrameId) :
    quote (.usual missing) args = Eval.special limit ev .quote args env := by
  match args with
  | [] | [_] | _ :: _ :: _ => rfl

lemma display_eq (v : Value) :
    display (.usual missing) limit v = ask fun s => s.display limit v := by
  cases v with
  | pair c =>
    funext s
    cases hrender : s.render limit (.pair c) with
    | ok text =>
      refine (bind_ok (ask_ok hrender)).trans (ask_ok ?_).symm
      simp [Store.display, hrender]
    | error e =>
      refine (bind_error (ask_error hrender)).trans (ask_error ?_).symm
      simp [Store.display, hrender]
  | _ => rfl

lemma assign_eq (args : List Value) (env : FrameId) :
    assign (.usual missing) limit ev args env = Eval.assign limit ev args env := by
  match args with
  | [] | [_] | _ :: _ :: _ :: _ => simp [assign, Eval.assign]
  | [target, expr] =>
    simp only [assign, Eval.assign, assignName_eq, display_eq]
    rcases target with (_ | _ | _ | x | _) | _ | _ | _ | _
    all_goals rfl

lemma define_eq (args : List Value) (env : FrameId) :
    define (.usual missing) limit ev args env = Eval.define limit ev args env :=
  congrArg (· >>= _) (definition_eq missing limit args)

lemma choice_eq (args : List Value) (env : FrameId) :
    choice (.usual missing) ev args env = Eval.choice ev args env := by
  match args with
  | [] | [_] | _ :: _ :: _ :: _ :: _ => rfl
  | [test, consequent] =>
    simp [choice, Eval.choice]
  | [test, consequent, alternative] =>
    simp [choice, Eval.choice]

lemma parameters_eq (vs : List Value) :
    parameters (.usual missing) limit vs = Eval.parameters limit vs := by
  induction vs with
  | nil => rfl
  | cons v rest ih =>
    rcases v with (_ | _ | _ | x | _) | _ | _ | _ | _
    case atom.symbol => simp only [parameters, Eval.parameters, ih]
    all_goals rfl

lemma lambda_eq (args : List Value) (env : FrameId) :
    lambda (.usual missing) limit args env = Eval.lambda limit args env := by
  rcases args with _ | ⟨params, body⟩
  · rfl
  · simp only [lambda, Eval.lambda, List.isEmpty_cons, Bool.false_eq_true, if_false,
      Host.usual_missing, item_zero, pure_bind, parameters_eq]
    funext s
    rw [get_bind, get_bind]
    cases hlist : s.list? params with
    | none => simp [Store.isList, hlist]
    | some names => simp [Store.isList, hlist, members_of_list? hlist]

lemma special_eq (form : SpecialForm) (args : List Value) (env : FrameId) :
    special (.usual missing) limit ev form args env = Eval.special limit ev form args env := by
  cases form with
  | quote => exact quote_eq missing limit ev args env
  | assign => exact assign_eq missing limit ev args env
  | define => exact define_eq missing limit ev args env
  | choice => exact choice_eq missing ev args env
  | cond => simp only [special, Eval.special, cond_eq]
  | letIn =>
    rcases args with _ | ⟨bindings, body⟩
    · rfl
    · simp [special, Eval.special, letIn_eq]
  | lambda => exact lambda_eq missing limit args env
  | sequence => exact sequence_eq missing ev env args

lemma combination_eq (c : CellId) (env : FrameId) :
    combination (.usual missing) mode limit ev (.pair c) env =
      Eval.combination mode limit ev c env := by
  funext s
  unfold combination Eval.combination
  rw [first_pair_bind, get_bind]
  generalize hcar : (s.cell c).car = v
  rcases v with (_ | _ | _ | x | _) | _ | _ | _ | _
  case atom.symbol =>
    cases hform : SpecialForm.ofSymbol? x with
    | none =>
      simp only [Eval.keyword?, hform]
      exact congrFun (application_eq missing mode limit ev c env) s
    | some form =>
      obtain rfl := SpecialForm.keyword_of_ofSymbol? hform
      simp only [Eval.keyword?, hform, Option.isSome_some, if_true, entry_some, pure_bind]
      rw [get_bind]
      rcases list?_cases s (.pair c) with hlist | ⟨hnil, -⟩ | ⟨c', vs, hpair, hrest, hlist⟩
      · simp [Store.isList, hlist]
      · cases hnil
      · cases hpair
        rw [if_pos (by simp [Store.isList, hlist]), hlist, Host.usual_missing, second_pair_bind,
          members_of_list? hrest, special_eq]
        rfl
  all_goals exact congrFun (application_eq missing mode limit ev c env) s

/-- **A step of evaluation does the same.** -/
lemma step_eq (expr : Value) (env : FrameId) :
    step (.usual missing) mode limit ev expr env = Eval.step mode limit ev expr env := by
  unfold step Eval.step
  rcases expr with (_ | _ | _ | x | _) | c | _ | _ | _
  case atom.symbol => simp only [readName_eq]; rfl
  case pair => simp only [combination_eq]; rfl
  all_goals rfl

/-- **Evaluation never asks for a part that is missing.** -/
theorem eval_eq : eval (.usual missing) mode limit = SmallScheme.eval mode limit := by
  induction limit with
  | zero => rfl
  | succ limit ih =>
    funext expr env
    rw [eval, ih, step_eq, eval_succ]

lemma interpret_eq (i : Interpreter) (expr : Value) :
    interpret (.usual missing) i expr = i.interpret expr := by
  unfold interpret Interpreter.interpret
  rw [eval_eq]
  rfl

lemma interpretAll_eq (i : Interpreter) (exprs : List Value) :
    interpretAll (.usual missing) i exprs = i.interpretAll exprs := by
  induction exprs with
  | nil => rfl
  | cons expr rest ih =>
    cases rest with
    | nil => exact interpret_eq missing i expr
    | cons expr' rest => simp only [interpretAll, Interpreter.interpretAll, interpret_eq, ← ih]

/-- **Reading and evaluating a text never asks for a part that is missing**: whatever the host
answers then, the text is read and evaluated as it was. -/
theorem evalText_eq (i : Interpreter) (text : List Char) :
    evalText (.usual missing) i text = i.eval text := by
  unfold evalText Interpreter.eval parse Interpreter.parse
  simp only [interpretAll_eq, Host.usual_missing, Descent.read_eq]

end Agreement

end ByAccess

end SmallScheme
