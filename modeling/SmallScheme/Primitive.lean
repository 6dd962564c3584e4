import SmallScheme.Error

/-!
# Native procedures

What the native procedures are, apart from what they do to a store.  Each has a name in its
complaints (`Primitive.title`) and a number of arguments without which it does not start
(`Primitive.needed`).  Arguments beyond those it looks at are ignored.

An embedding program can add procedures of its own.  `Foreign` describes what such a procedure
may do as far as the interpreter can tell: give a value, describe its arguments, or fail.
-/

namespace SmallScheme

/-- Where printed text goes. -/
inductive Channel where
  /-- The output of the whole process. -/
  | standard
  /-- The output that was attached to one interpreter. -/
  | attached
  deriving DecidableEq, Repr

/-- The operations that are folded over numbers. -/
inductive Arithmetic where
  | add
  | sub
  | mul
  /-- The quotient, rounded down. -/
  | quotient
  /-- The remainder of the quotient rounded down; it has the sign of the divisor. -/
  | modulo
  deriving DecidableEq, Repr

namespace Arithmetic

/-- The name of an operation. -/
def name : Arithmetic → String
  | add => "+"
  | sub => "-"
  | mul => "*"
  | quotient => "quotient"
  | modulo => "modulo"

/-- The operation on two integers.  Only a zero divisor has no result. -/
def result? : Arithmetic → Int → Int → Option Int
  | add, a, b => some (a + b)
  | sub, a, b => some (a - b)
  | mul, a, b => some (a * b)
  | quotient, a, b => if b = 0 then none else some (Int.fdiv a b)
  | modulo, a, b => if b = 0 then none else some (Int.fmod a b)

end Arithmetic

/-- The relations that are checked along a list of numbers. -/
inductive Comparison where
  | equal
  | atLeast
  | atMost
  | greater
  | less
  deriving DecidableEq, Repr

namespace Comparison

/-- The name of a relation. -/
def name : Comparison → String
  | equal => "="
  | atLeast => ">="
  | atMost => "<="
  | greater => ">"
  | less => "<"

/-- Whether two integers are related. -/
def holds : Comparison → Int → Int → Bool
  | equal, a, b => a == b
  | atLeast, a, b => decide (b ≤ a)
  | atMost, a, b => decide (a ≤ b)
  | greater, a, b => decide (b < a)
  | less, a, b => decide (a < b)

end Comparison

/-- What is known of a value of an embedding program.  It can be kept, compared and printed, and
nothing else. -/
structure ForeignValue where
  /-- The name of its type. -/
  typeName : String
  /-- Whether it stands for the absence of a value.  Nothing is printed for such a value where a
  chain ends in it. -/
  isAbsent : Bool
  deriving DecidableEq, Repr

/-- What a procedure of an embedding program does. -/
inductive Foreign where
  /-- It gives a number. -/
  | constant (n : Int)
  /-- It gives the number of its arguments. -/
  | argumentCount
  /-- It gives the list of its arguments. -/
  | argumentList
  /-- It gives a value of the embedding program: a new one at every call, except that the absence
  of a value is always the same. -/
  | value (v : ForeignValue)
  /-- It fails with a fault of the embedding program. -/
  | fails (fault : HostFault) (message : String)
  /-- It complains like a native procedure, without giving its name. -/
  | complains (message : String)
  deriving DecidableEq, Repr

/-- What a native procedure does. -/
inductive Primitive where
  /-- Whether a value is a pair. -/
  | isPair
  /-- Whether a value is a truth value. -/
  | isBoolean
  /-- Whether a value is a symbol. -/
  | isSymbol
  /-- Whether a value is a number. -/
  | isNumber
  /-- Whether a value is the empty list. -/
  | isNull
  /-- Whether a value is the number zero. -/
  | isZero
  /-- A new pair. -/
  | cons
  /-- The first part of a pair. -/
  | car
  /-- The second part of a pair. -/
  | cdr
  /-- The second member of a chain. -/
  | cadr
  /-- The third member of a chain. -/
  | caddr
  /-- The list of all arguments. -/
  | list
  /-- Replaces the first part of a pair. -/
  | setCar
  /-- Replaces the second part of a pair. -/
  | setCdr
  /-- Whether two values are one and the same. -/
  | same
  /-- Whether a value is false. -/
  | not
  /-- The first argument that is false, or else the last one. -/
  | and
  /-- The first argument that is the truth value true, or else the last one. -/
  | or
  /-- An operation folded over all arguments. -/
  | arithmetic (operation : Arithmetic)
  /-- A relation checked between all neighbours. -/
  | comparison (relation : Comparison)
  /-- Prints a value and ends the line. -/
  | write (channel : Channel)
  /-- A procedure of an embedding program. -/
  | foreign (procedure : Foreign)
  deriving DecidableEq, Repr

namespace Primitive

/-- The name that a primitive goes by in its complaints. -/
def title : Primitive → String
  | isPair => "pair?"
  | isBoolean => "boolean?"
  | isSymbol => "symbol?"
  | isNumber => "number?"
  | isNull => "null?"
  | isZero => "zero?"
  | cons => "cons"
  | car => "car"
  | cdr => "cdr"
  | cadr => "cadr"
  | caddr => "caddr"
  | list => "list"
  | setCar => "set-car!"
  | setCdr => "set-cdr!"
  | same => "eqv?"
  | not => "not"
  | and => "and"
  | or => "or"
  | arithmetic operation => operation.name
  | comparison relation => relation.name
  | write _ => "write"
  | foreign _ => ""

/-- The number of arguments that a primitive does not start without. -/
def needed : Primitive → Nat
  | isPair | isBoolean | isSymbol | isNumber | isNull | isZero => 1
  | car | cdr | cadr | caddr | not | write _ => 1
  | cons | setCar | setCdr | same => 2
  | list | and | or | arithmetic _ | comparison _ | foreign _ => 0

/-- The error that a primitive raises with a complaint. -/
def complain (p : Primitive) (complaint : Complaint) : Error :=
  .builtin (some p.title) complaint

end Primitive

end SmallScheme
