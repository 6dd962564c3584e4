import SmallScheme.Effect

/-!
# Libraries of native procedures

A library holds native procedures by name, in the order in which the names were first registered.
`core` has all that need no output, and `standard` has `write` as well.  A library is installed
into a frame, where each of its names is bound to a new procedure.
-/

namespace SmallScheme

/-- Native procedures by name, in the order of registration. -/
structure Library where
  /-- The names and what stands for them. -/
  entries : List (String × Primitive)
  deriving DecidableEq, Repr

namespace Library

/-- The library without procedures. -/
def empty : Library := ⟨[]⟩

/-- The entries after one more registration.  A name that is registered keeps its place. -/
def put (name : String) (p : Primitive) : List (String × Primitive) → List (String × Primitive)
  | [] => [(name, p)]
  | (other, q) :: rest =>
    if other = name then (other, p) :: rest else (other, q) :: put name p rest

/-- A procedure is registered under a name. -/
def register (name : String) (p : Primitive) (l : Library) : Library :=
  ⟨put name p l.entries⟩

/-- The procedure of a name. -/
def get? (name : String) (l : Library) : Option Primitive :=
  (l.entries.find? fun entry => entry.1 == name).map Prod.snd

/-- Whether a name is registered. -/
def contains (name : String) (l : Library) : Bool :=
  (l.get? name).isSome

/-- The registered names, in the order of registration. -/
def keys (l : Library) : List String :=
  l.entries.map Prod.fst

/-- The registered names, in the order of their characters. -/
def names (l : Library) : List String :=
  l.keys.mergeSort fun a b => decide (a ≤ b)

/-- How many names are registered. -/
def size (l : Library) : Nat :=
  l.entries.length

/-- The native procedures that need no output. -/
def core : Library :=
  ⟨[("pair?", .isPair), ("boolean?", .isBoolean), ("symbol?", .isSymbol),
    ("number?", .isNumber), ("null?", .isNull), ("zero?", .isZero),
    ("cons", .cons), ("car", .car), ("cdr", .cdr), ("cadr", .cadr), ("caddr", .caddr),
    ("list", .list), ("set-car!", .setCar), ("set-cdr!", .setCdr),
    ("eq?", .same), ("eqv?", .same), ("not", .not), ("and", .and), ("or", .or),
    ("+", .arithmetic .add), ("-", .arithmetic .sub), ("*", .arithmetic .mul),
    ("quotient", .arithmetic .quotient), ("modulo", .arithmetic .modulo),
    ("=", .comparison .equal), (">=", .comparison .atLeast), ("<=", .comparison .atMost),
    (">", .comparison .greater), ("<", .comparison .less)]⟩

/-- All native procedures, of which `write` prints on the given channel. -/
def standard (channel : Channel) : Library :=
  core.register "write" (.write channel)

/-- A library with a `write`: its own one if it has one, or else one that prints on the given
channel. -/
def withWrite (channel : Channel) (l : Library) : Library :=
  if l.contains "write" then l else l.register "write" (.write channel)

/-- Binds every name of a library in a frame.  Nothing is bound if a name is empty. -/
def install (f : FrameId) (l : Library) : Effect Unit := do
  if l.keys.any String.isEmpty then throw .emptyName
  modify fun s =>
    let builtins := l.entries.map fun (name, p) =>
      (⟨name⟩, .builtin ⟨name, p, s.installations⟩)
    { s.defineAll f builtins with installations := s.installations + 1 }

theorem contains_withWrite (channel : Channel) (l : Library) :
    (l.withWrite channel).contains "write" = true := by
  have found : ∀ es : List (String × Primitive),
      ((put "write" (.write channel) es).find? fun entry => entry.1 == "write").isSome := by
    intro es
    induction es with
    | nil => rfl
    | cons e es ih =>
      obtain ⟨name, q⟩ := e
      by_cases h : name = "write"
      · simp [put, h]
      · simpa [put, h] using ih
  unfold withWrite
  split
  · assumption
  · simpa [contains, get?, register] using found l.entries

end Library

end SmallScheme
