import SmallScheme.Text.Quoted

/-!
# Notices

A notice is what an embedding program gets to see of a fault of a program: its kind and its
details.  The details of a notice that the interpreter gives are always sensible.  An embedding
program may also state a notice by itself, and then every detail may be absent or anything else;
`Notice.message` words it all the same.
-/

namespace SmallScheme

/-- A detail of a notice. -/
inductive Detail where
  /-- Nothing is said about it. -/
  | absent
  /-- A number. -/
  | number (n : Int)
  /-- A truth value. -/
  | flag (b : Bool)
  /-- A text. -/
  | text (s : String)
  deriving DecidableEq, Repr

namespace Detail

/-- A number that may be unknown. -/
def ofNat? : Option Nat → Detail
  | none => absent
  | some n => number n

/-- A text that may be missing. -/
def ofText? : Option String → Detail
  | none => absent
  | some s => text s

/-- Whether a detail says anything.  Zero, false and the empty text do not. -/
def isTelling : Detail → Bool
  | absent => false
  | number n => n != 0
  | flag b => b
  | text s => !s.isEmpty

/-- How a detail is shown inside a message. -/
def shown : Detail → String
  | absent => "None"
  | number n => toString n
  | flag true => "True"
  | flag false => "False"
  | text s => s

/-- How a detail is shown among others: a text is quoted there. -/
def listed : Detail → String
  | text s => Text.quoted s
  | d => d.shown

/-- How details are shown that make up a message by themselves. -/
def together : List Detail → String
  | [] => ""
  | [d] => d.shown
  | ds => "(" ++ ", ".intercalate (ds.map listed) ++ ")"

instance : ToString Detail := ⟨shown⟩

@[simp] theorem toString_eq (d : Detail) : toString d = d.shown := rfl

end Detail

/-- What an embedding program gets to see of a fault of a program. -/
inductive Notice where
  /-- No token starts at a position of a text. -/
  | lexical (position line column : Detail)
  /-- A text or an expression has the wrong shape. -/
  | malformed (reason line column : Detail)
  /-- A name without binding is assigned, or read where reads are strict. -/
  | unbound (name : Detail)
  /-- A call with too few arguments.  A message of its own replaces the usual one. -/
  | shortage (procedure expected provided message : Detail)
  /-- An expression without meaning. -/
  | unknownForm (reasons : List Detail)
  /-- A native procedure refuses its arguments. -/
  | builtin (complaint name : Detail)
  /-- A fault of no special kind. -/
  | general (reasons : List Detail)
  deriving DecidableEq, Repr

namespace Notice

/-- How a message ends that has a place.  Without a line nothing is said. -/
def suffix (line column : Detail) : String :=
  if line = .absent then "" else s!" [line {line}, column {column}]"

@[simp] theorem suffix_absent (column : Detail) : suffix .absent column = "" := rfl

/-- The wording of a notice. -/
def message : Notice → String
  | lexical position line column =>
    s!"syntax error at character {position}" ++ suffix line column
  | malformed reason line column => reason.shown ++ suffix line column
  | unbound name => s!"unbound variable '{name}'"
  | shortage procedure expected provided message =>
    if message.isTelling then message.shown
    else s!"{procedure}: expected {expected} argument(s), got {provided}"
  | unknownForm reasons => Detail.together reasons
  | builtin complaint name =>
    if name.isTelling then s!"{name}: {complaint}" else complaint.shown
  | general reasons => Detail.together reasons

end Notice

end SmallScheme
