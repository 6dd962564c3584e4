import SmallScheme.Effect
import SmallScheme.Store.Chain

/-!
# What native procedures do

`Primitive.run` applies a primitive to its arguments.  First the number of arguments is checked,
then their kinds, and only then anything is done; so a procedure that complains has changed
nothing.  A complaint shows the value that it is about, printed as a program would print it.
-/

namespace SmallScheme

namespace Primitive

open Effect

/-- The cell of a value that has to be a pair. -/
def cellOf (p : Primitive) (limit : Nat) : Value → Effect CellId
  | .pair c => pure c
  | v => do throw (p.complain (.notPair (← shown limit v)))

/-- The integer of a value that has to be a number. -/
def numberOf (p : Primitive) (limit : Nat) : Value → Effect Int
  | .number n => pure n
  | v => do throw (p.complain (.notNumber (← shown limit v)))

/-- The value found from a pair by going to the second part once for every unit of `steps`, and
then to the first part. -/
def nthOf (p : Primitive) (limit : Nat) : Nat → Value → Effect Value
  | 0, v => do
    let c ← p.cellOf limit v
    return ((← get).cell c).car
  | steps + 1, v => do
    let c ← p.cellOf limit v
    p.nthOf limit steps ((← get).cell c).cdr

/-- The operation folded over the numbers from the left. -/
def foldNumbers (operation : Arithmetic) : Int → List Int → Effect Int
  | total, [] => pure total
  | total, n :: ns =>
    match operation.result? total n with
    | some total => foldNumbers operation total ns
    | none => throw ((arithmetic operation).complain .divisionByZero)

/-- Whether the relation holds between all neighbours.  The first two that are not related settle
it, and what comes after them is not looked at. -/
def compareAll (relation : Comparison) (limit : Nat) : List Value → Effect Bool
  | v :: w :: rest => do
    let m ← (comparison relation).numberOf limit v
    let n ← (comparison relation).numberOf limit w
    if relation.holds m n then compareAll relation limit (w :: rest) else return false
  | _ => pure true

/-- What a procedure of an embedding program does. -/
def runForeign (args : List Value) : Foreign → Effect Value
  | .constant n => pure (.number n)
  | .argumentCount => pure (.number args.length)
  | .argumentList => modifyGet fun s => s.list args
  | .value v => modifyGet fun s => s.addForeign v
  | .fails fault message => throw (.host fault message)
  | .complains message => throw (.builtin none (.stated message))

/-- What a primitive does with its arguments, once there are enough of them. -/
def start (limit : Nat) (p : Primitive) (args : List Value) : Effect Value :=
  match p, args with
  | isPair, v :: _ => pure (.bool (v matches .pair _))
  | isBoolean, v :: _ => pure (.bool (v matches .bool _))
  | isSymbol, v :: _ => pure (.bool (v matches .symbol _))
  | isNumber, v :: _ => pure (.bool (v matches .number _))
  | isNull, v :: _ => pure (.bool (v == .nil))
  | isZero, v :: _ => pure (.bool (v == .number 0))
  | cons, v :: w :: _ => modifyGet fun s => s.cons v w
  | car, v :: _ => p.nthOf limit 0 v
  | cdr, v :: _ => do return ((← get).cell (← p.cellOf limit v)).cdr
  | cadr, v :: _ => p.nthOf limit 1 v
  | caddr, v :: _ => p.nthOf limit 2 v
  | list, vs => modifyGet fun s => s.list vs
  | setCar, v :: w :: _ => do
    let c ← p.cellOf limit v
    modify fun s => s.setCar c w
    return .nil
  | setCdr, v :: w :: _ => do
    let c ← p.cellOf limit v
    modify fun s => s.setCdr c w
    return .nil
  | same, v :: w :: _ => pure (.bool (v == w))
  | not, v :: _ => pure (.bool (v == .bool false))
  | and, vs => pure ((vs.find? (· == .bool false)).getD (vs.getLastD (.bool true)))
  | or, vs => pure ((vs.find? (· == .bool true)).getD (vs.getLastD (.bool false)))
  | arithmetic _, [] => throw (p.complain .noArguments)
  | arithmetic operation, v :: vs => do
    let n ← p.numberOf limit v
    let ns ← vs.mapM (p.numberOf limit)
    return .number (← foldNumbers operation n ns)
  | comparison relation, vs => do return .bool (← compareAll relation limit vs)
  | write channel, v :: _ => do
    let text ← shown limit v
    modify fun s => s.print channel (text ++ "\n")
    return .nil
  | foreign procedure, vs => runForeign vs procedure
  | p, vs => throw (p.complain (.tooFew p.needed vs.length))

/-- What a primitive does with its arguments. -/
def run (limit : Nat) (p : Primitive) (args : List Value) : Effect Value :=
  if args.length < p.needed then throw (p.complain (.tooFew p.needed args.length))
  else p.start limit args

end Primitive

namespace Builtin

open Effect

/-- How a fault inside a native procedure is reported by the program that applies it: some faults
of an embedding program become complaints of the procedure, under the name it is registered by. -/
def report (b : Builtin) : Error → Error
  | .host fault message =>
    if fault.isComplaint then .builtin (some b.name) (.stated message) else .host fault message
  | e => e

/-- A native procedure is applied by a program. -/
def apply (limit : Nat) (b : Builtin) (args : List Value) : Effect Value :=
  tryCatch (b.primitive.run limit args) fun e => throw (b.report e)

theorem apply_of_ok {limit : Nat} {b : Builtin} {args : List Value} {s s' : Store} {v : Value}
    (h : b.primitive.run limit args s = .ok v s') : b.apply limit args s = .ok v s' :=
  tryCatch_ok h

/-- The error is reported anew, but the store stays as the primitive has left it. -/
theorem apply_of_error {limit : Nat} {b : Builtin} {args : List Value} {s s' : Store} {e : Error}
    (h : b.primitive.run limit args s = .error e s') :
    b.apply limit args s = .error (b.report e) s' :=
  tryCatch_error h

end Builtin

end SmallScheme
