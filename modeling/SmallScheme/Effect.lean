import SmallScheme.Store.Rendering

/-!
# Effects

An effect is a step that reads and changes a store, and that gives a result or fails.  An effect
that fails keeps what it has done to the store before: nothing is undone.
-/

namespace SmallScheme

/-- A step on a store, with a result or an error. -/
abbrev Effect := EStateM Error Store

namespace Effect

/-- The result of a function on the store, which may fail and changes nothing. -/
def ask {α : Type} (f : Store → Except Error α) : Effect α := fun s =>
  match f s with
  | .ok a => .ok a s
  | .error e => .error e s

/-- A value is printed into a text. -/
def shown (limit : Nat) (v : Value) : Effect String :=
  ask fun s => s.render limit v

/-- An expression is no special form, although it starts like one. -/
def malformed {α : Type} (fault : FormFault) : Effect α :=
  throw (.ofForm fault)

/-- An expression is no special form because of a value that is shown in the message. -/
def malformedBy {α : Type} (limit : Nat) (fault : String → FormFault) (v : Value) : Effect α := do
  malformed (fault (← shown limit v))

@[simp] theorem ask_ok {α : Type} {f : Store → Except Error α} {s : Store} {a : α}
    (h : f s = .ok a) : ask f s = .ok a s := by
  simp [ask, h]

@[simp] theorem ask_error {α : Type} {f : Store → Except Error α} {s : Store} {e : Error}
    (h : f s = .error e) : ask f s = .error e s := by
  simp [ask, h]

/-- A step that looks at the store first. -/
theorem get_bind {α : Type} (f : Store → Effect α) (s : Store) : (get >>= f) s = f s s := rfl

/-- A step after one that succeeds. -/
theorem bind_ok {α β : Type} {x : Effect α} {f : α → Effect β} {s s' : Store} {a : α}
    (h : x s = .ok a s') : (x >>= f) s = f a s' := by
  simp [Bind.bind, EStateM.bind, h]

/-- There is no step after one that fails. -/
theorem bind_error {α β : Type} {x : Effect α} {f : α → Effect β} {s s' : Store} {e : Error}
    (h : x s = .error e s') : (x >>= f) s = .error e s' := by
  simp [Bind.bind, EStateM.bind, h]

/-- An error that is reported anew does not keep a step from succeeding. -/
theorem tryCatch_ok {α : Type} {x : Effect α} {g : Error → Error} {s s' : Store} {a : α}
    (h : x s = .ok a s') : tryCatch x (fun e => throw (g e)) s = .ok a s' := by
  show EStateM.tryCatch x _ s = _
  delta EStateM.tryCatch
  rw [h]

/-- The error is reported anew, but the store stays as the step has left it. -/
theorem tryCatch_error {α : Type} {x : Effect α} {g : Error → Error} {s s' : Store} {e : Error}
    (h : x s = .error e s') : tryCatch x (fun e => throw (g e)) s = .error (g e) s' := by
  show EStateM.tryCatch x _ s = _
  delta EStateM.tryCatch
  rw [h]
  rfl

end Effect

end SmallScheme
