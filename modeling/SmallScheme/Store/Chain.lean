import SmallScheme.Store

/-!
# Chains and lists

A chain is what one finds when following the second parts of pairs: its members are the first
parts on the way, and it ends in the first value that is no pair.  A list is a chain that ends in
the empty list; in particular the empty list is one, without members.

A chain that never ends has neither members nor an end (`chain?` is `none`).  No chain that ends
is longer than the number of cells, so looking that far is enough.
-/

namespace SmallScheme

namespace Store

/-- Members and end of a chain of at most `limit` pairs. -/
def chainWithin? (s : Store) (limit : Nat) (v : Value) : Option (List Value × Value) :=
  match v, limit with
  | .pair c, limit + 1 => do
    let (members, last) ← s.chainWithin? limit (s.cell c).cdr
    return ((s.cell c).car :: members, last)
  | .pair _, 0 => none
  | v, _ => some ([], v)

@[simp] theorem chainWithin?_pair_zero (s : Store) (c : CellId) :
    s.chainWithin? 0 (.pair c) = none := by
  simp [chainWithin?]

theorem chainWithin?_pair_succ (s : Store) (limit : Nat) (c : CellId) :
    s.chainWithin? (limit + 1) (.pair c) =
      (s.chainWithin? limit (s.cell c).cdr).map
        fun (members, last) => ((s.cell c).car :: members, last) := by
  cases h : s.chainWithin? limit (s.cell c).cdr <;> simp [chainWithin?, h]

/-- Looking further does not change a chain that has been found. -/
theorem chainWithin?_mono {s : Store} {limit limit' : Nat} {v : Value}
    {r : List Value × Value} (hle : limit ≤ limit') (h : s.chainWithin? limit v = some r) :
    s.chainWithin? limit' v = some r := by
  induction limit' generalizing limit v r with
  | zero => simpa [Nat.le_zero.mp hle] using h
  | succ limit' ih =>
    cases v with
    | pair c =>
      cases limit with
      | zero => simp at h
      | succ limit =>
        rw [chainWithin?_pair_succ] at h ⊢
        obtain ⟨r', hr', rfl⟩ := Option.map_eq_some_iff.mp h
        rw [ih (Nat.le_of_succ_le_succ hle) hr', Option.map_some]
    | _ => simpa [chainWithin?] using h

/-- Members and end of the chain that starts at a value. -/
def chain? (s : Store) (v : Value) : Option (List Value × Value) :=
  s.chainWithin? s.cells.size v

/-- The members of a list. -/
def list? (s : Store) (v : Value) : Option (List Value) :=
  match s.chain? v with
  | some (members, .nil) => some members
  | _ => none

/-- Whether a value is a list. -/
def isList (s : Store) (v : Value) : Bool :=
  (s.list? v).isSome

/-- The members of a chain, whatever it ends in. -/
def members (s : Store) (v : Value) : List Value :=
  match s.chain? v with
  | some (members, _) => members
  | none => []

/-- A new chain with the given members and the given end. -/
def chain (members : List Value) (last : Value) (s : Store) : Value × Store :=
  members.foldr (fun v (rest, s) => s.cons v rest) (last, s)

/-- A new list. -/
def list (members : List Value) (s : Store) : Value × Store :=
  s.chain members .nil

@[simp] theorem chain_nil (last : Value) (s : Store) : s.chain [] last = (last, s) := rfl

@[simp] theorem chain_cons (v : Value) (vs : List Value) (last : Value) (s : Store) :
    s.chain (v :: vs) last = (s.chain vs last).2.cons v (s.chain vs last).1 := rfl

end Store

end SmallScheme
