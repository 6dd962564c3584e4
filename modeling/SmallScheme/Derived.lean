import SmallScheme.Effect
import SmallScheme.SpecialForm
import SmallScheme.Store.Chain

/-!
# Derived forms

Three forms are expanded into others before they are evaluated:

* `(cond (p e ...) ... (else e ...))` becomes a nest of `if`s, one for each clause, in which each
  clause's expressions are wrapped into `begin` unless there is only one;
* `(let ((x e) ...) body ...)` becomes `((lambda (x ...) body ...) e ...)`;
* `(define (f x ...) body ...)` defines `f` as `(lambda (x ...) body ...)`.

A form of the wrong shape is refused before anything is expanded.  The new expressions are new
cells that share the parts of the old ones.
-/

namespace SmallScheme

namespace Derived

open Effect

/-- A new list. -/
def newList (members : List Value) : Effect Value :=
  modifyGet fun s => s.list members

/-- A new pair. -/
def newPair (car cdr : Value) : Effect Value :=
  modifyGet fun s => s.cons car cdr

/-- A keyword as a value. -/
def keyword (form : SpecialForm) : Value :=
  .symbol form.keyword

/-- One expression that evaluates some expressions in order. -/
def sequence (forms : List Value) : Effect Value := do
  match forms with
  | [form] => return form
  | forms => newList (keyword .sequence :: forms)

/-- An expression that makes a procedure. -/
def lambda (params : Value) (body : List Value) : Effect Value := do
  newPair (keyword .lambda) (← newPair params (← newList body))

/-! ## Clauses -/

/-- Whether the test of a clause is the word for the last clause. -/
def isElse (test : Value) : Bool :=
  test == .symbol SpecialForm.elseWord

/-- The test and the expressions of a clause. -/
def clause (limit : Nat) (v : Value) : Effect (Value × List Value) := do
  match (← get).list? v with
  | some (test :: forms) => return (test, forms)
  | _ => malformedBy limit .condClause v

/-- The tests and the expressions of all clauses, checked in order. -/
def clauses (limit : Nat) : List Value → Effect (List (Value × List Value))
  | [] => return []
  | v :: rest => do
    let (test, forms) ← clause limit v
    if isElse test && !rest.isEmpty then
      malformedBy limit .condElse (← newList (v :: rest))
    if forms.isEmpty then malformedBy limit .condBody v
    return (test, forms) :: (← clauses limit rest)

/-- The nest of choices between checked clauses.  Without a clause left the result is false. -/
def choices : List (Value × List Value) → Effect Value
  | [] => return .bool false
  | (test, forms) :: rest => do
    let otherwise ← choices rest
    let consequent ← sequence forms
    if isElse test then return consequent
    else newList [keyword .choice, test, consequent, otherwise]

/-- The clauses of a `cond` as nested choices. -/
def cond (limit : Nat) (operands : List Value) : Effect Value := do
  choices (← clauses limit operands)

/-! ## Local bindings -/

/-- The name and the expression of a binding. -/
def binding (limit : Nat) (v : Value) : Effect (Symbol × Value) := do
  match (← get).list? v with
  | some [.symbol x, form] => return (x, form)
  | _ => malformedBy limit .letBinding v

/-- A `let` with the given binding list and body, as the application of a procedure. -/
def letIn (limit : Nat) (bindings : Value) (body : List Value) : Effect Value := do
  match (← get).list? bindings with
  | none => malformedBy limit .letBindings bindings
  | some members =>
    if body.isEmpty then malformed .letBody
    let bound ← members.mapM (binding limit)
    let params ← newList (bound.map fun (x, _) => .symbol x)
    newList ((← lambda params body) :: bound.map Prod.snd)

/-! ## Definitions -/

/-- The name and the value expression of a definition. -/
def definition (limit : Nat) (operands : List Value) : Effect (Symbol × Value) := do
  match operands with
  | [] => malformed .defineEmpty
  | .symbol x :: rest =>
    match rest with
    | [form] => return (x, form)
    | _ => malformed (.defineValue x)
  | target :: body =>
    match target with
    | .pair c =>
      let cell := (← get).cell c
      match cell.car with
      | .symbol x =>
        if body.isEmpty then malformed (.defineBody x)
        return (x, ← lambda cell.cdr body)
      | _ => malformedBy limit .defineTarget target
    | _ => malformedBy limit .defineTarget target

end Derived

end SmallScheme
