import SmallScheme.Atom
import SmallScheme.Primitive

/-!
# Values

What a program computes with.  Pairs and procedures that a program makes live in a store and are
known by their number there, so that a value may be shared and a pair may reach itself.  The values
that an embedding program supplies are numbered in the same way.  Values of all kinds can be
compared directly: two values are equal exactly if a program cannot tell them apart, that is, if
they are equal atoms or one and the same pair, procedure or supplied value.
-/

namespace SmallScheme

/-- The number of a cell of a store. -/
abbrev CellId := Nat

/-- The number of a frame of a store. -/
abbrev FrameId := Nat

/-- The number of a closure of a store. -/
abbrev ClosureId := Nat

/-- The number of a value of an embedding program. -/
abbrev ForeignId := Nat

/-- A native procedure as a value. -/
structure Builtin where
  /-- The name under which it was registered. -/
  name : String
  /-- What it does. -/
  primitive : Primitive
  /-- The installation that it came with: two installations bring different procedures. -/
  installation : Nat
  deriving DecidableEq, Repr

/-- A value. -/
inductive Value where
  /-- A value without parts. -/
  | atom (a : Atom)
  /-- A pair, which is a cell of the store. -/
  | pair (c : CellId)
  /-- A procedure that a program made. -/
  | closure (k : ClosureId)
  /-- A native procedure. -/
  | builtin (b : Builtin)
  /-- A value of an embedding program. -/
  | foreign (v : ForeignValue) (id : ForeignId)
  deriving DecidableEq, Repr

namespace Value

/-- The empty list. -/
@[match_pattern] abbrev nil : Value := .atom .nil

/-- A truth value. -/
@[match_pattern] abbrev bool (b : Bool) : Value := .atom (.bool b)

/-- An integer. -/
@[match_pattern] abbrev number (n : Int) : Value := .atom (.number n)

/-- A symbol. -/
@[match_pattern] abbrev symbol (x : Symbol) : Value := .atom (.symbol x)

/-- A text. -/
@[match_pattern] abbrev text (s : String) : Value := .atom (.text s)

instance : Inhabited Value := ⟨nil⟩

/-- The name of a value's kind. -/
def typeName : Value → String
  | atom a => a.typeName
  | pair _ => "Pair"
  | closure _ => "Closure"
  | builtin _ => "Builtin"
  | foreign v _ => v.typeName

end Value

end SmallScheme
