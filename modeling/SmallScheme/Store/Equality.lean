import SmallScheme.Error
import SmallScheme.Store

/-!
# Equality of structure

Two values have the same structure if they are equal, or if both are pairs and their first parts
and their second parts have the same structure.  The second parts are looked at only if the first
parts agree.
-/

namespace SmallScheme

namespace Store

/-- Whether two values have the same structure.  `limit` bounds how many pairs are compared inside
one another. -/
def sameStructure (s : Store) (limit : Nat) (v w : Value) : Except Error Bool :=
  match v, w, limit with
  | .pair c, .pair d, limit + 1 => do
    if ← s.sameStructure limit (s.cell c).car (s.cell d).car then
      s.sameStructure limit (s.cell c).cdr (s.cell d).cdr
    else
      return false
  | .pair _, .pair _, 0 => .error .tooDeep
  | v, w, _ => .ok (v == w)

end Store

end SmallScheme
