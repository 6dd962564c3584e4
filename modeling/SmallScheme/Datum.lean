import SmallScheme.Atom

/-!
# Data

What a program text says before anything is evaluated: a finite tree of atoms and pairs.  A list
is a chain of pairs that ends in the empty list, and a chain may also end in any other datum.

`ofList` builds a chain, `chain` takes one apart, and `tagged?` writes a datum flat and without
ambiguity.
-/

namespace SmallScheme

/-- A tree of atoms and pairs. -/
inductive Datum where
  /-- A leaf. -/
  | atom (a : Atom)
  /-- A pair of two data. -/
  | cons (car cdr : Datum)
  deriving DecidableEq, Repr, Inhabited

namespace Datum

/-- The empty list. -/
@[match_pattern] abbrev nil : Datum := .atom .nil

/-- A symbol as a datum. -/
@[match_pattern] abbrev symbol (x : Symbol) : Datum := .atom (.symbol x)

/-- The chain of some data that ends in `tail`. -/
def ofList (items : List Datum) (tail : Datum) : Datum :=
  items.foldr cons tail

@[simp] theorem ofList_nil (tail : Datum) : ofList [] tail = tail := rfl

@[simp] theorem ofList_cons (d : Datum) (ds : List Datum) (tail : Datum) :
    ofList (d :: ds) tail = cons d (ofList ds tail) := rfl

/-- The members of the chain that starts at a datum. -/
def items : Datum → List Datum
  | atom _ => []
  | cons car cdr => car :: cdr.items

/-- What the chain that starts at a datum ends in. -/
def tail : Datum → Atom
  | atom a => a
  | cons _ cdr => cdr.tail

theorem ofList_items_tail (d : Datum) : ofList d.items (atom d.tail) = d := by
  induction d with
  | atom a => rfl
  | cons car cdr _ ih => simp [items, tail, ih]

/-- What the abbreviation with a quote mark stands for. -/
def quoted (d : Datum) : Datum :=
  ofList [symbol ⟨"quote"⟩, d] nil

mutual

/-- A datum with every atom tagged and every chain between square brackets, with a point before
a last member that is not the empty list. -/
def tagged? : Datum → Option String
  | atom a => a.tagged?
  | cons car cdr => do
    let first ← car.tagged?
    let rest ← cdr.taggedRest?
    return "[" ++ first ++ rest ++ "]"

/-- The members of a chain after its first one, each after a space. -/
def taggedRest? : Datum → Option String
  | atom .nil => some ""
  | atom a => a.tagged?.map (" . " ++ ·)
  | cons car cdr => do
    let next ← car.tagged?
    let rest ← cdr.taggedRest?
    return " " ++ next ++ rest

end

end Datum

end SmallScheme
