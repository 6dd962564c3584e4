import SmallScheme.Notice
import SmallScheme.Symbol
import SmallScheme.Text.Coordinate
import SmallScheme.Token

/-!
# Errors

Everything that can go wrong, by cause.  `Error.message` words each cause; nothing else in the
library looks at a message.

Faults of a program (`Error.isProgramFault`) are those that give notice of themselves
(`Error.notice?`); the interactive loop and the command line report them.  The other errors are
limits of the interpreter and faults of the procedures that an embedding program supplies.  Where
a cause mentions a value, the error holds its printed form, since the value may change after the
error has arisen.
-/

namespace SmallScheme

open Text (Place)

/-- Why tokens make up no data. -/
inductive ReadFault where
  /-- The text ends where a datum has to follow a quote mark. -/
  | unexpectedEnd
  /-- The text ends inside a list. -/
  | unclosedList
  /-- A datum cannot start with this token. -/
  | unexpectedToken (text : String)
  /-- A second point in one list. -/
  | repeatedDot
  /-- A list with a point that does not stand before its last member. -/
  | misplacedDot
  /-- A number token without a value. -/
  | invalidNumber
  /-- A token of one kind was asked for, by the name of the kind, where another one stands, or none
  at all. -/
  | expected (kind : String) (found : Option Token)
  deriving DecidableEq, Repr

namespace ReadFault

/-- The wording of a fault. -/
def message : ReadFault → String
  | unexpectedEnd => "Unexpected end of input"
  | unclosedList => "Unmatched parentheses at end of input"
  | unexpectedToken text => s!"Unexpected token '{text}'"
  | repeatedDot => "Invalid usage of '.'"
  | misplacedDot => "Invalid location for '.' in list"
  | invalidNumber => "Invalid number"
  | expected kind none => s!"Expected {kind}, found end of input"
  | expected kind (some found) => s!"Expected {kind}, found {found.kind} '{found.text}'"

end ReadFault

/-- Why an expression is no special form, although it starts like one. -/
inductive FormFault where
  /-- A form that is no proper list. -/
  | improper (keyword : String) (form : String)
  /-- No expression where at least one has to be evaluated. -/
  | emptySequence
  /-- A quotation of anything but one operand. -/
  | quoteOperands
  /-- An assignment without exactly two operands. -/
  | assignOperands
  /-- An assignment to something else than a symbol. -/
  | assignTarget (target : String)
  /-- A conditional with fewer than two or more than three operands. -/
  | ifOperands
  /-- A procedure without parameter list. -/
  | lambdaEmpty
  /-- A parameter list that is no proper list. -/
  | lambdaParameters (parameters : String)
  /-- A parameter that is no symbol. -/
  | lambdaParameter (parameter : String)
  /-- A procedure without body. -/
  | lambdaBody
  /-- A definition of nothing. -/
  | defineEmpty
  /-- A definition of a name without exactly one value. -/
  | defineValue (name : Symbol)
  /-- A definition of a procedure without body. -/
  | defineBody (name : Symbol)
  /-- A definition of something that has no name. -/
  | defineTarget (target : String)
  /-- A clause that is no list, or an empty one. -/
  | condClause (clause : String)
  /-- A final clause with further clauses after it. -/
  | condElse (clauses : String)
  /-- A clause with a test alone. -/
  | condBody (clause : String)
  /-- Local bindings without binding list. -/
  | letEmpty
  /-- A binding list that is no proper list. -/
  | letBindings (bindings : String)
  /-- Local bindings without body. -/
  | letBody
  /-- A binding that is no list of a symbol and an expression. -/
  | letBinding (binding : String)
  deriving DecidableEq, Repr

namespace FormFault

/-- The wording of a fault. -/
def message : FormFault → String
  | improper keyword form => s!"Malformed {keyword} form: {form}"
  | emptySequence => "Cannot evaluate an empty sequence of expressions"
  | quoteOperands => "quote expects exactly 1 argument"
  | assignOperands => "set! requires exactly 2 arguments: (set! var value)"
  | assignTarget target => s!"set! first argument must be a symbol, got {target}"
  | ifOperands => "if requires a predicate, a consequent and an optional alternative"
  | lambdaEmpty => "lambda requires a parameter list"
  | lambdaParameters parameters => s!"lambda parameters must be a proper list: {parameters}"
  | lambdaParameter parameter => s!"lambda parameter must be a symbol, got {parameter}"
  | lambdaBody => "lambda requires at least one body expression"
  | defineEmpty => "define requires a name"
  | defineValue name => s!"define of {name} requires exactly one value expression"
  | defineBody name => s!"define of procedure {name} requires a body"
  | defineTarget target => s!"Cannot define {target}"
  | condClause clause => s!"Malformed cond clause: {clause}"
  | condElse clauses => s!"ELSE clause is not last: {clauses}"
  | condBody clause => s!"cond clause has no body: {clause}"
  | letEmpty => "let requires a binding list"
  | letBindings bindings => s!"Malformed let bindings: {bindings}"
  | letBody => "let requires a body"
  | letBinding binding => s!"Malformed let binding: {binding}"

end FormFault

/-- Why a text or an expression is refused for its shape. -/
inductive Fault where
  /-- The tokens of a text make up no data. -/
  | reading (fault : ReadFault)
  /-- An expression is no special form, although it starts like one. -/
  | form (fault : FormFault)
  deriving DecidableEq, Repr

namespace Fault

/-- The wording of a fault. -/
def message : Fault → String
  | reading fault => fault.message
  | form fault => fault.message

end Fault

/-- A call with fewer arguments than the procedure has parameters. -/
structure Shortage where
  /-- How many arguments the procedure needs. -/
  expected : Nat
  /-- How many it was given. -/
  provided : Nat
  /-- The first parameter that is left without a value. -/
  parameter : Symbol
  deriving DecidableEq, Repr

namespace Shortage

/-- The wording of a shortage. -/
def message (s : Shortage) : String :=
  s!"Unassigned parameter in procedure call: {s.parameter} " ++
    s!"(expected {s.expected} argument(s), got {s.provided})"

end Shortage

/-- Why an expression has no meaning. -/
inductive UnknownForm where
  /-- An application that is no proper list. -/
  | improperApplication (form : String)
  /-- A value that is no expression. -/
  | notExpression (shown : String)
  /-- A value in the place of a procedure. -/
  | notProcedure (shown : String)
  deriving DecidableEq, Repr

namespace UnknownForm

/-- The wording of the reason. -/
def message : UnknownForm → String
  | improperApplication form => s!"Improper argument list in application: {form}"
  | notExpression shown => s!"Unknown expression in eval: {shown}"
  | notProcedure shown => s!"Unknown procedure type in apply: {shown}"

end UnknownForm

/-- What a native procedure complains about. -/
inductive Complaint where
  /-- Fewer arguments than it needs. -/
  | tooFew (needed provided : Nat)
  /-- No argument at all where one is needed. -/
  | noArguments
  /-- A value that is no pair. -/
  | notPair (shown : String)
  /-- A value that is no number. -/
  | notNumber (shown : String)
  /-- A zero divisor. -/
  | divisionByZero
  /-- A complaint of a procedure that an embedding program supplies. -/
  | stated (message : String)
  deriving DecidableEq, Repr

namespace Complaint

/-- The wording of a complaint. -/
def message : Complaint → String
  | tooFew needed provided => s!"requires {needed} argument(s), got {provided}"
  | noArguments => "requires at least 1 argument"
  | notPair shown => s!"expected a pair, got {shown}"
  | notNumber shown => s!"expected a number, got {shown}"
  | divisionByZero => "division by zero"
  | stated message => message

end Complaint

/-- The kinds of faults inside a procedure that an embedding program supplies. -/
inductive HostFault where
  /-- A value of the wrong type. -/
  | wrongType
  /-- A part that a value does not have. -/
  | missingAttribute
  /-- An index past the end. -/
  | outOfRange
  /-- A division by zero. -/
  | divisionByZero
  /-- A value of the right type that does not fit. -/
  | badValue
  /-- A key that is in no table. -/
  | missingKey
  deriving DecidableEq, Repr

namespace HostFault

/-- Whether a fault inside a procedure counts as a complaint of that procedure when a program
applies it.  The other faults are left to the embedding program. -/
def isComplaint : HostFault → Bool
  | wrongType | missingAttribute | outOfRange | divisionByZero => true
  | badValue | missingKey => false

end HostFault

/-- Everything that can go wrong. -/
inductive Error where
  /-- No token starts at a position of a text. -/
  | lexical (position : Nat) (place : Place)
  /-- A text or an expression has the wrong shape. -/
  | malformed (fault : Fault) (place : Place)
  /-- A name without binding is assigned, or read where reads are strict. -/
  | unbound (name : String)
  /-- A call with too few arguments. -/
  | shortage (shortage : Shortage)
  /-- An expression without meaning. -/
  | unknownForm (reason : UnknownForm)
  /-- A native procedure refuses its arguments; the name is the one it goes by. -/
  | builtin (name : Option String) (complaint : Complaint)
  /-- A fault that an embedding program states. -/
  | stated (notice : Notice)
  /-- Reading, evaluation, comparison or printing is nested too deeply. -/
  | tooDeep
  /-- An integer is too long to be written in decimal. -/
  | tooManyDigits
  /-- A symbol was asked for without a name. -/
  | emptyName
  /-- A file was asked for by something that is no path. -/
  | invalidPath
  /-- A fault inside a procedure of an embedding program. -/
  | host (fault : HostFault) (message : String)
  deriving DecidableEq, Repr

namespace Error

/-- What an embedding program gets to see of an error, if it is a fault of a program. -/
def notice? : Error → Option Notice
  | lexical position place =>
    some (.lexical (.number position) (.ofNat? place.line) (.ofNat? place.column))
  | malformed fault place =>
    some (.malformed (.text fault.message) (.ofNat? place.line) (.ofNat? place.column))
  | unbound name => some (.unbound (.text name))
  | shortage s =>
    some (.shortage .absent (.number s.expected) (.number s.provided) (.text s.message))
  | unknownForm reason => some (.unknownForm [.text reason.message])
  | builtin name complaint => some (.builtin (.text complaint.message) (.ofText? name))
  | stated notice => some notice
  | tooDeep | tooManyDigits | emptyName | invalidPath | host .. => none

/-- The wording of an error. -/
def message : Error → String
  | tooDeep => "maximum recursion depth exceeded"
  | tooManyDigits => "too many digits for a decimal numeral"
  | emptyName => "a symbol needs a non-empty name"
  | invalidPath => "a path cannot hold a null character"
  | host _ message => message
  | e => e.notice?.elim "" Notice.message

theorem message_of_notice? {e : Error} {notice : Notice} (h : e.notice? = some notice) :
    e.message = notice.message := by
  cases e <;> simp_all [message, notice?]

/-- Whether an error is a fault of the program, and not a limit of the interpreter or a fault of
an embedding program. -/
def isProgramFault (e : Error) : Bool :=
  e.notice?.isSome

/-- A fault of reading at a position of a text. -/
def atPosition (text : List Char) (position : Nat) (fault : ReadFault) : Error :=
  malformed (.reading fault) (.ofPosition text position)

/-- No token starts at this position of a text. -/
def lexicalAt (text : List Char) (position : Nat) : Error :=
  lexical position (.ofPosition text position)

/-- A fault in the shape of a special form, which has no place. -/
def ofForm (fault : FormFault) : Error :=
  malformed (.form fault) .unknown

end Error

end SmallScheme
