import SmallScheme.Text.DecimalDigit
import SmallScheme.Text.Quoted

/-!
# Command-line arguments

The arguments are options and at most one file.  Options may stand anywhere before a lone `--`,
after which nothing is an option any more, and a long option may be shortened as long as only one
option starts that way.  No option takes a value.

Every argument is first looked at on its own (`Word.ofArgument`); a word that could be several
options is refused at once.  Then the words are taken in order (`Command.ofWords`): a request for
help ends everything, and arguments that nobody wants are collected and refused at the end.
-/

namespace SmallScheme

namespace CommandLine

/-- The options. -/
inductive Flag where
  /-- Show the help text. -/
  | help
  /-- Make reads of unbound names an error. -/
  | strict
  /-- Report every step. -/
  | trace
  deriving DecidableEq, Repr

namespace Flag

/-- All spellings of options. -/
def spellings : List (String × Flag) :=
  [("-h", help), ("--help", help), ("--strict-unbound", strict), ("--trace", trace)]

/-- An option with all its spellings, as messages name it. -/
def title : Flag → String
  | help => "-h/--help"
  | strict => "--strict-unbound"
  | trace => "--trace"

end Flag

/-- The value that is attached to an option. -/
inductive Attached where
  /-- None. -/
  | nothing
  /-- A value after the equals sign of a long option. -/
  | assigned (value : String)
  /-- What follows the letter of a short option, or the equals sign after it. -/
  | letters (rest : String)
  deriving DecidableEq, Repr

/-- An argument by itself. -/
inductive Word where
  /-- An option. -/
  | option (flag : Flag) (attached : Attached)
  /-- Something that looks like an option and is none. -/
  | unknown (argument : String)
  /-- The lone `--`. -/
  | separator
  /-- Anything else. -/
  | operand (argument : String)
  deriving DecidableEq, Repr

/-- Why arguments are refused. -/
inductive UsageError where
  /-- An argument could be several options. -/
  | ambiguous (argument : String) (spellings : List String)
  /-- An option with a value. -/
  | unwantedValue (flag : Flag) (value : String)
  /-- Arguments that nobody wants. -/
  | unrecognized (arguments : List String)
  deriving DecidableEq, Repr

namespace UsageError

/-- The wording of a refusal. -/
def message : UsageError → String
  | ambiguous argument spellings =>
    s!"ambiguous option: {argument} could match " ++ ", ".intercalate spellings
  | unwantedValue flag value =>
    s!"argument {flag.title}: ignored explicit argument " ++ Text.quoted value
  | unrecognized arguments => "unrecognized arguments: " ++ " ".intercalate arguments

end UsageError

namespace Word

/-- A text up to its first equals sign, and what follows the sign. -/
def splitAssigned (cs : List Char) : List Char × Option (List Char) :=
  let name := cs.takeWhile (· != '=')
  match cs.drop name.length with
  | [] => (name, none)
  | _ :: value => (name, some value)

/-- What is attached to an option after an equals sign. -/
def attachedTo (spelling : String) : Option (List Char) → Attached
  | none => .nothing
  | some value =>
    if ['-', '-'].isPrefixOf spelling.toList then .assigned (String.ofList value)
    else .letters (String.ofList value)

/-- The options that an argument could be short for, with their spelling and what is attached to
them. -/
def candidates (cs : List Char) : List (String × Flag × Attached) :=
  match cs with
  | '-' :: '-' :: _ =>
    let (name, value) := splitAssigned cs
    (Flag.spellings.filter fun (spelling, _) => name.isPrefixOf spelling.toList).map
      fun (spelling, flag) => (spelling, flag, attachedTo spelling value)
  | '-' :: letter :: rest =>
    (Flag.spellings.filter fun (spelling, _) => spelling.toList == ['-', letter]).map
      fun (spelling, flag) => (spelling, flag, .letters (String.ofList rest))
  | _ => []

/-- Whether a text looks like a negative decimal number.  A line feed at its end does not
matter. -/
def isNegativeNumber (cs : List Char) : Bool :=
  match if cs.getLast? = some '\n' then cs.dropLast else cs with
  | '-' :: cs =>
    let isDigit := fun c => (Text.decimalDigit? c).isSome
    let whole := cs.takeWhile isDigit
    match cs.drop whole.length with
    | [] => !whole.isEmpty
    | '.' :: fraction => !fraction.isEmpty && fraction.all isDigit
    | _ => false
  | _ => false

/-- The word of an argument before any `--`. -/
def ofArgument (argument : String) : Except UsageError Word :=
  let cs := argument.toList
  if cs.head? ≠ some '-' ∨ cs.length = 1 then .ok (.operand argument)
  else
    match Flag.spellings.lookup argument with
    | some flag => .ok (.option flag .nothing)
    | none =>
      let (name, value) := splitAssigned cs
      let name := String.ofList name
      match Flag.spellings.lookup name with
      | some flag => .ok (.option flag (attachedTo name value))
      | none =>
        match candidates cs with
        | [(_, flag, attached)] => .ok (.option flag attached)
        | [] =>
          if isNegativeNumber cs || cs.contains ' ' then .ok (.operand argument)
          else .ok (.unknown argument)
        | several => .error (.ambiguous argument (several.map Prod.fst))

/-- The words of all arguments. -/
def ofArguments : List String → Except UsageError (List Word)
  | [] => .ok []
  | argument :: rest =>
    if argument = "--" then .ok (.separator :: rest.map .operand)
    else do
      let word ← ofArgument argument
      return word :: (← ofArguments rest)

end Word

/-- What the arguments ask for. -/
inductive Command where
  /-- Show the help text. -/
  | help
  /-- Run a file, or the interactive loop without one. -/
  | run (file : Option String) (strict trace : Bool)
  deriving DecidableEq, Repr

/-- What the words so far ask for. -/
structure Pending where
  /-- Whether the place of the file is taken, by a file or by nothing. -/
  settled : Bool
  /-- The file. -/
  file : Option String
  /-- Whether reads of unbound names are an error. -/
  strict : Bool
  /-- Whether every step is reported. -/
  trace : Bool
  /-- The arguments that nobody wants, the last one first. -/
  extras : List String
  deriving DecidableEq, Repr

namespace Pending

/-- Nothing has been asked for. -/
def initial : Pending := ⟨false, none, false, false, []⟩

/-- An argument that nobody wants. -/
def extra (argument : String) (p : Pending) : Pending :=
  { p with extras := argument :: p.extras }

/-- The place of the file is taken. -/
def settle (file : Option String) (p : Pending) : Pending :=
  { p with settled := true, file := file }

/-- All words have been taken. -/
def finish (p : Pending) : Except UsageError Command :=
  if p.extras.isEmpty then .ok (.run p.file p.strict p.trace)
  else .error (.unrecognized p.extras.reverse)

end Pending

namespace Command

/-- Letters after the letter of the help option ask for help once more.  From the first one on
that does not, they are a value. -/
def checkLetters (flag : Flag) : List Char → Except UsageError Unit
  | ['h'] => .ok ()
  | 'h' :: c :: rest => checkLetters flag (c :: rest)
  | value => .error (.unwantedValue flag (String.ofList value))

/-- No option takes a value. -/
def checkAttached (flag : Flag) : Attached → Except UsageError Unit
  | .nothing => .ok ()
  | .assigned value => .error (.unwantedValue flag value)
  | .letters rest => checkLetters flag rest.toList

/-- What some words ask for, after those taken so far. -/
def ofWords (p : Pending) : List Word → Except UsageError Command
  | [] => p.finish
  | .option flag attached :: rest => do
    checkAttached flag attached
    match flag with
    | .help => return .help
    | .strict => ofWords { p with strict := true } rest
    | .trace => ofWords { p with trace := true } rest
  | .unknown argument :: rest => ofWords (p.extra argument) rest
  | .operand argument :: .separator :: rest =>
    if p.settled then ofWords ((p.extra argument).extra "--") rest
    else ofWords (p.settle (some argument)) rest
  | .operand argument :: rest =>
    if p.settled then ofWords (p.extra argument) rest
    else ofWords (p.settle (some argument)) rest
  | .separator :: rest =>
    if p.settled then ofWords (p.extra "--") rest
    else
      match rest with
      | .operand argument :: rest => ofWords (p.settle (some argument)) rest
      | rest => ofWords (p.settle none) rest

/-- What the arguments of a command line ask for. -/
def ofArguments (arguments : List String) : Except UsageError Command := do
  ofWords .initial (← Word.ofArguments arguments)

end Command

end CommandLine

end SmallScheme
