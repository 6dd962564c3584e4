import SmallScheme.Proofs.Consultation

/-!
# Deeds

A program changes what is there already by deeds of four kinds: it replaces the first or the second
part of a pair, it binds a name in a frame, and it names a closure.  Here is said which call does a
deed, and how: the former two are done by applying a native procedure to the pair, names are bound
by definitions and assignments, and closures are named by definitions (`Eval.Performs`).  What a
whole evaluation does is done by one of its calls.
-/

namespace SmallScheme

/-- What a program can do to a cell, a frame or a closure. -/
inductive Deed where
  /-- The first part of a pair is replaced. -/
  | setCar (c : CellId) (v : Value)
  /-- The second part of a pair is replaced. -/
  | setCdr (c : CellId) (v : Value)
  /-- A name is bound in a frame. -/
  | bind (f : FrameId) (x : Symbol) (v : Value)
  /-- A closure is named. -/
  | name (k : ClosureId) (x : Symbol)
  deriving DecidableEq

/-- What a primitive does to what its arguments stand for. -/
def Primitive.deed? : Primitive → List Value → Option Deed
  | setCar, .pair c :: v :: _ => some (.setCar c v)
  | setCdr, .pair c :: v :: _ => some (.setCdr c v)
  | _, _ => none

/-- What the application of a procedure does, apart from what the body of a closure does. -/
def Value.deed? (proc : Value) (args : List Value) : Option Deed :=
  match proc with
  | .builtin b => b.primitive.deed? args
  | _ => none

namespace Eval

open Effect

/-! ## The parts of an application -/

/-- The procedure and the arguments of the application in a cell. -/
def parts (limit : Nat) (ev : Evaluator) (c : CellId) (env : FrameId) :
    Effect (Value × List Value) := do
  if !(← get).isList (.pair c) then
    throw (.unknownForm (.improperApplication (← shown limit (.pair c))))
  let proc ← ev ((← get).cell c).car env
  let s ← get
  let args ← operands ev env (s.members (s.cell c).cdr)
  return (proc, args)

/-- First the parts of an application are evaluated, then the procedure is applied. -/
lemma application_eq (mode : Mode) (limit : Nat) (ev : Evaluator) (c : CellId) (env : FrameId) :
    application mode limit ev c env =
      parts limit ev c env >>= fun found => apply mode limit ev found.1 found.2 := by
  unfold application parts
  rw [bind_assoc]
  congr 1
  funext s
  cases s.isList (.pair c) <;> simp

/-! ## Calls and their deeds -/

/-- The definition with the given operands binds a name to a value in the current frame. -/
def Defines (limit : Nat) (ev : Evaluator) (args : List Value) (env : FrameId) (s : Store)
    (x : Symbol) (v : Value) : Prop :=
  ∃ expr s₁ s₂, Derived.definition limit args s = .ok (x, expr) s₁ ∧ ev expr env s₁ = .ok v s₂

/-- The assignment with the given operands binds a name to a value in a frame. -/
def Assigns (ev : Evaluator) (args : List Value) (env : FrameId) (s : Store) (f : FrameId)
    (x : Symbol) (v : Value) : Prop :=
  ∃ expr s₁, args = [.symbol x, expr] ∧ ev expr env s = .ok v s₁ ∧ s₁.find? env x = some f

/-- What a special form with the given operands does itself. -/
inductive FormPerforms (limit : Nat) (ev : Evaluator) (args : List Value) (env : FrameId)
    (s : Store) : SpecialForm → Deed → Prop
  /-- An assignment binds the name where it is bound already. -/
  | assign {f : FrameId} {x : Symbol} {v : Value} : Assigns ev args env s f x v →
      FormPerforms limit ev args env s .assign (.bind f x v)
  /-- A definition binds the name in the current frame. -/
  | define {x : Symbol} {v : Value} : Defines limit ev args env s x v →
      FormPerforms limit ev args env s .define (.bind env x v)
  /-- If the value is a closure, it is named as well. -/
  | name {x : Symbol} {k : ClosureId} : Defines limit ev args env s x (.closure k) →
      FormPerforms limit ev args env s .define (.name k x)

/-- What the combination in a cell does itself. -/
inductive CellPerforms (mode : Mode) (limit : Nat) (ev : Evaluator) (c : CellId) (env : FrameId)
    (s : Store) : Deed → Prop
  /-- A special form does it. -/
  | form {form : SpecialForm} {members : List Value} {d : Deed} :
      keyword? (s.cell c).car = some form → s.list? (.pair c) = some members →
      FormPerforms limit ev members.tail env s form d → CellPerforms mode limit ev c env s d
  /-- A native procedure that is applied does it, once its application has been reported. -/
  | apply {proc : Value} {args : List Value} {s₁ s₂ : Store} {d : Deed} :
      keyword? (s.cell c).car = none → parts limit ev c env s = .ok (proc, args) s₁ →
      mode.reportApply limit proc args s₁ = .ok () s₂ → proc.deed? args = some d →
      CellPerforms mode limit ev c env s d

/-- What a call does itself, its event having been reported. -/
def Performs (mode : Mode) (limit : Nat) (ev : Evaluator) (call : Call) (d : Deed) : Prop :=
  ∃ c s, call.expr = .pair c ∧ mode.reportEval limit call.expr call.store = .ok () s ∧
    CellPerforms mode limit ev c call.env s d

end Eval

end SmallScheme
