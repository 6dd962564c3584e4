import SmallScheme.Datum
import SmallScheme.Store

/-!
# Data in a store

A datum becomes a value by storing a new cell for every pair (`load`).  The other way, a value
without procedures and foreign values can be unfolded into a datum if it is not nested too
deeply (`toDatum?`); parts that are shared are copied.
-/

namespace SmallScheme

namespace Store

/-- A datum is stored. -/
def load (d : Datum) (s : Store) : Value × Store :=
  match d with
  | .atom a => (.atom a, s)
  | .cons car cdr =>
    let (first, s) := s.load car
    let (second, s) := s.load cdr
    s.cons first second

/-- Some data are stored, one after another. -/
def loadAll (ds : List Datum) (s : Store) : List Value × Store :=
  match ds with
  | [] => ([], s)
  | d :: ds =>
    let (v, s) := s.load d
    let (vs, s) := s.loadAll ds
    (v :: vs, s)

/-- The datum that a value stands for, if no path from it has more than `limit` pairs. -/
def toDatum? (s : Store) (limit : Nat) (v : Value) : Option Datum :=
  match v, limit with
  | .atom a, _ => some (.atom a)
  | .pair c, limit + 1 => do
    let car ← s.toDatum? limit (s.cell c).car
    let cdr ← s.toDatum? limit (s.cell c).cdr
    return .cons car cdr
  | _, _ => none

end Store

end SmallScheme
