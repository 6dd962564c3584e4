import SmallScheme.Value

/-!
# The store

Everything that a program can see or change: the cells of all pairs, the frames of all bindings,
the closures, the number of values that an embedding program has supplied, what has been printed
and what has been traced.  Nothing is ever removed from a store.  A new cell, frame or closure gets
the next free number, and so does a new value of an embedding program.

An operation that only looks at a store takes it as its first argument; one that changes it
returns the new store, with the number or value that was asked for in front.  A number that was
never handed out stands for an empty cell, frame or closure.
-/

namespace SmallScheme

/-- The two parts of a pair. -/
structure Cell where
  /-- The first part. -/
  car : Value
  /-- The second part. -/
  cdr : Value
  deriving DecidableEq, Repr, Inhabited

/-- Values by name, in the order in which the names were first bound. -/
abbrev Bindings := List (Symbol × Value)

namespace Bindings

/-- The value of a name. -/
def get? (x : Symbol) : Bindings → Option Value
  | [] => none
  | (y, v) :: rest => if y = x then some v else get? x rest

/-- Binds a name.  A name that is bound already keeps its place. -/
def put (x : Symbol) (v : Value) : Bindings → Bindings
  | [] => [(x, v)]
  | (y, w) :: rest => if y = x then (y, v) :: rest else (y, w) :: put x v rest

/-- Binds some names, one after another. -/
def putAll (new : List (Symbol × Value)) (bs : Bindings) : Bindings :=
  new.foldl (fun bs (x, v) => put x v bs) bs

theorem get?_put (x y : Symbol) (v : Value) (bs : Bindings) :
    get? y (put x v bs) = if x = y then some v else get? y bs := by
  induction bs with
  | nil => rfl
  | cons b bs ih =>
    obtain ⟨z, w⟩ := b
    by_cases hzx : z = x
    · subst hzx
      by_cases hzy : z = y <;> simp [put, get?, hzy]
    · by_cases hzy : z = y
      · subst hzy
        simp [put, get?, hzx, Ne.symm hzx]
      · simp [put, get?, hzx, hzy, ih]

end Bindings

/-- A frame of bindings. -/
structure Frame where
  /-- What the frame binds. -/
  bindings : Bindings
  /-- The frame around it; the outermost frame has none. -/
  outer : Option FrameId
  deriving DecidableEq, Repr, Inhabited

/-- A procedure that a program made. -/
structure Closure where
  /-- The names of its parameters. -/
  params : List Symbol
  /-- The expressions of its body. -/
  body : List Value
  /-- The frame that was current when it was made. -/
  env : FrameId
  /-- Its name, once a definition has given it one. -/
  name : Option Symbol
  deriving DecidableEq, Repr, Inhabited

/-- A step of a run, as it is reported to an observer. -/
inductive Event where
  /-- A whole expression is about to be evaluated. -/
  | interpret (form : String)
  /-- An expression or a part of one is about to be evaluated. -/
  | eval (form typeName : String)
  /-- A procedure is about to be applied. -/
  | apply (procedure : String) (arguments : List String)
  deriving DecidableEq, Repr

namespace Event

/-- The wording of an event. -/
def message : Event → String
  | interpret form => s!"interpret {form}"
  | eval form typeName => s!"eval {form} [{typeName}]"
  | apply procedure arguments => s!"apply {procedure} to (" ++ " ".intercalate arguments ++ ")"

/-- The observer that an event is reported to. -/
def observer : Event → String
  | interpret _ => "interpreter"
  | eval .. | apply .. => "trace"

end Event

/-- Everything that a program can see or change. -/
structure Store where
  /-- The cells of all pairs. -/
  cells : Array Cell
  /-- The frames of all bindings. -/
  frames : Array Frame
  /-- The procedures that programs made. -/
  closures : Array Closure
  /-- How often native procedures have been installed. -/
  installations : Nat
  /-- How many values an embedding program has supplied. -/
  foreigns : Nat
  /-- What has been printed, piece by piece, and where. -/
  printed : Array (Channel × String)
  /-- What has been reported to observers. -/
  events : Array Event
  deriving DecidableEq, Repr

namespace Store

/-- The store before anything has happened. -/
def empty : Store := ⟨#[], #[], #[], 0, 0, #[], #[]⟩

instance : Inhabited Store := ⟨empty⟩

/-! ## Cells -/

/-- The cell of a number. -/
def cell (s : Store) (c : CellId) : Cell :=
  s.cells.getD c default

/-- A new pair. -/
def cons (car cdr : Value) (s : Store) : Value × Store :=
  (.pair s.cells.size, { s with cells := s.cells.push ⟨car, cdr⟩ })

/-- The first part of a cell is replaced. -/
def setCar (c : CellId) (v : Value) (s : Store) : Store :=
  { s with cells := s.cells.modify c fun cell => { cell with car := v } }

/-- The second part of a cell is replaced. -/
def setCdr (c : CellId) (v : Value) (s : Store) : Store :=
  { s with cells := s.cells.modify c fun cell => { cell with cdr := v } }

theorem cell_cons_self (car cdr : Value) (s : Store) :
    (s.cons car cdr).2.cell s.cells.size = ⟨car, cdr⟩ := by
  simp [cons, cell]

/-- A new pair leaves the other cells as they are. -/
theorem cell_cons_of_lt {c : CellId} {s : Store} (car cdr : Value) (h : c < s.cells.size) :
    (s.cons car cdr).2.cell c = s.cell c := by
  simp [cons, cell, Array.getElem?_push, Nat.ne_of_lt h]

theorem cell_setCar {c d : CellId} {s : Store} (v : Value) (h : c < s.cells.size) :
    (s.setCar c v).cell d = if d = c then ⟨v, (s.cell c).cdr⟩ else s.cell d := by
  by_cases hd : d = c
  · subst hd
    simp [setCar, cell, Array.getElem_modify, h]
  · simp [setCar, cell, Array.getElem?_modify, hd, Ne.symm hd]

theorem cell_setCdr {c d : CellId} {s : Store} (v : Value) (h : c < s.cells.size) :
    (s.setCdr c v).cell d = if d = c then ⟨(s.cell c).car, v⟩ else s.cell d := by
  by_cases hd : d = c
  · subst hd
    simp [setCdr, cell, Array.getElem_modify, h]
  · simp [setCdr, cell, Array.getElem?_modify, hd, Ne.symm hd]

/-! ## Frames -/

/-- The frame of a number. -/
def frame (s : Store) (f : FrameId) : Frame :=
  s.frames.getD f default

/-- A new frame with some bindings.  The last value of a repeated name counts. -/
def addFrame (bindings : List (Symbol × Value)) (outer : Option FrameId) (s : Store) :
    FrameId × Store :=
  (s.frames.size, { s with frames := s.frames.push ⟨Bindings.putAll bindings [], outer⟩ })

/-- Binds some names in a frame. -/
def defineAll (f : FrameId) (new : List (Symbol × Value)) (s : Store) : Store :=
  { s with frames := s.frames.modify f fun frame =>
      { frame with bindings := frame.bindings.putAll new } }

/-- Binds a name in a frame. -/
def define (f : FrameId) (x : Symbol) (v : Value) (s : Store) : Store :=
  s.defineAll f [(x, v)]

theorem frame_addFrame_self (bindings : List (Symbol × Value)) (outer : Option FrameId)
    (s : Store) :
    (s.addFrame bindings outer).2.frame s.frames.size = ⟨Bindings.putAll bindings [], outer⟩ := by
  simp [addFrame, frame]

/-- A new frame leaves the other frames as they are. -/
theorem frame_addFrame_of_lt {f : FrameId} {s : Store} (bindings : List (Symbol × Value))
    (outer : Option FrameId) (h : f < s.frames.size) :
    (s.addFrame bindings outer).2.frame f = s.frame f := by
  simp [addFrame, frame, Array.getElem?_push, Nat.ne_of_lt h]

theorem frame_defineAll {f g : FrameId} {s : Store} (new : List (Symbol × Value))
    (h : f < s.frames.size) :
    (s.defineAll f new).frame g =
      if g = f then ⟨(s.frame f).bindings.putAll new, (s.frame f).outer⟩ else s.frame g := by
  by_cases hg : g = f
  · subst hg
    simp [defineAll, frame, Array.getElem_modify, h]
  · simp [defineAll, frame, Array.getElem?_modify, hg, Ne.symm hg]

/-! ## Closures -/

/-- The closure of a number. -/
def closure (s : Store) (k : ClosureId) : Closure :=
  s.closures.getD k default

/-- A new closure. -/
def addClosure (k : Closure) (s : Store) : Value × Store :=
  (.closure s.closures.size, { s with closures := s.closures.push k })

/-- Gives a closure its name, unless it has one. -/
def nameClosure (k : ClosureId) (x : Symbol) (s : Store) : Store :=
  { s with closures := s.closures.modify k fun closure =>
      { closure with name := closure.name.or (some x) } }

theorem closure_addClosure_self (k : Closure) (s : Store) :
    (s.addClosure k).2.closure s.closures.size = k := by
  simp [addClosure, closure]

/-- A new closure leaves the other closures as they are. -/
theorem closure_addClosure_of_lt {j : ClosureId} {s : Store} (k : Closure)
    (h : j < s.closures.size) : (s.addClosure k).2.closure j = s.closure j := by
  simp [addClosure, closure, Array.getElem?_push, Nat.ne_of_lt h]

/-! ## Values of an embedding program -/

/-- A value that an embedding program supplies.  The absence of a value is always the same, and
any other value is a new one. -/
def addForeign (v : ForeignValue) (s : Store) : Value × Store :=
  if v.isAbsent then (.foreign v 0, s)
  else (.foreign v s.foreigns, { s with foreigns := s.foreigns + 1 })

theorem addForeign_of_isAbsent {v : ForeignValue} (s : Store) (h : v.isAbsent = true) :
    s.addForeign v = (.foreign v 0, s) := by
  simp [addForeign, h]

/-- A value that is supplied later is another one. -/
theorem addForeign_ne_of_not_isAbsent {v : ForeignValue} (w : ForeignValue) (s : Store)
    (h : v.isAbsent = false) : ((s.addForeign v).2.addForeign w).1 ≠ (s.addForeign v).1 := by
  cases hw : w.isAbsent with
  | true =>
    intro he
    simp only [addForeign, h, hw, Bool.false_eq_true, if_false, if_true,
      Value.foreign.injEq] at he
    rw [he.1, h] at hw
    exact Bool.noConfusion hw
  | false => simp [addForeign, h, hw]

/-! ## Output and events -/

/-- Some text is printed. -/
def print (channel : Channel) (text : String) (s : Store) : Store :=
  { s with printed := s.printed.push (channel, text) }

/-- All that has been printed on a channel. -/
def output (s : Store) (channel : Channel) : String :=
  String.join ((s.printed.toList.filter fun piece => piece.1 = channel).map Prod.snd)

/-- An event is reported. -/
def report (event : Event) (s : Store) : Store :=
  { s with events := s.events.push event }

/-- Printing appends to one channel and leaves the other one as it is. -/
theorem output_print (channel other : Channel) (text : String) (s : Store) :
    (s.print channel text).output other =
      if channel = other then s.output other ++ text else s.output other := by
  by_cases h : channel = other <;> simp [output, print, h, String.join, List.foldl_append]

end Store

end SmallScheme
