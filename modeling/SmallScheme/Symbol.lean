/-!
# Symbols

Names of variables, keywords and quoted words.  A symbol is its name: two symbols with one name
are the same symbol, and upper and lower case differ.
-/

namespace SmallScheme

/-- A symbol, given by its name. -/
structure Symbol where
  /-- The name, exactly as it was read. -/
  name : String
  deriving DecidableEq, Repr, Inhabited

namespace Symbol

/-- The symbol of a name.  Only the empty name has none. -/
def ofName? (name : String) : Option Symbol :=
  if name.isEmpty then none else some ⟨name⟩

instance : ToString Symbol := ⟨Symbol.name⟩

@[simp] theorem toString_eq (x : Symbol) : toString x = x.name := rfl

end Symbol

end SmallScheme
