import SmallScheme.Store

/-!
# Scopes

A name is looked up in a frame, then in the frame around it, and so on outwards.  A frame is made
after the frame around it and has a larger number, so the way outwards ends.

A name counts as bound whatever its value is.  `define` binds a name in the frame itself, and
`assign?` changes the nearest binding that exists.
-/

namespace SmallScheme

namespace Store

/-- A frame and the frames around it, from the inside outwards. -/
def scopes (s : Store) (f : FrameId) : List FrameId :=
  match (s.frame f).outer with
  | none => [f]
  | some outer => if outer < f then f :: s.scopes outer else [f]
termination_by f

theorem scopes_of_outermost {s : Store} {f : FrameId} (h : (s.frame f).outer = none) :
    s.scopes f = [f] := by
  rw [scopes]
  simp [h]

theorem scopes_of_outer {s : Store} {f outer : FrameId} (h : (s.frame f).outer = some outer)
    (hlt : outer < f) : s.scopes f = f :: s.scopes outer := by
  rw [scopes]
  simp [h, hlt]

/-- The nearest frame that binds a name. -/
def find? (s : Store) (f : FrameId) (x : Symbol) : Option FrameId :=
  (s.scopes f).find? fun f => ((s.frame f).bindings.get? x).isSome

/-- The value of a name. -/
def lookup? (s : Store) (f : FrameId) (x : Symbol) : Option Value := do
  let f ← s.find? f x
  (s.frame f).bindings.get? x

/-- The nearest binding of a name gets a new value. -/
def assign? (f : FrameId) (x : Symbol) (v : Value) (s : Store) : Option Store := do
  let f ← s.find? f x
  return s.define f x v

theorem assign?_eq_none_iff {s : Store} {f : FrameId} {x : Symbol} {v : Value} :
    s.assign? f x v = none ↔ s.find? f x = none := by
  cases h : s.find? f x <;> simp [assign?, h]

end Store

end SmallScheme
