import SmallScheme.Error
import SmallScheme.Store
import SmallScheme.Text.Quoted

/-!
# How values are printed

A pair is printed as the chain that starts at it: the members between parentheses, and a point
before the end unless that is the empty list.  Chains are followed without nesting; only members
that are pairs themselves nest.

While a chain is printed, its cells so far are active.  An active cell is not printed again:
where it would be a member, and where a chain would continue with it, three points stand instead,
and a chain ends there.  A cell is no longer active once its chain is printed, so parts that are
merely shared are printed in full each time.

There are three forms: `render` for programs and the loop, `display` for messages, which marks
pairs, and `inspect`, which tells the kind of every value.
-/

namespace SmallScheme

/-- What is printed in the place of a pair that is being printed already. -/
def cycleMarker : String := "..."

/-- The written form of an atom, if it has one: only a number may have too many digits. -/
def writtenForm (text : Option String) : Except Error String :=
  match text with
  | some text => .ok text
  | none => .error .tooManyDigits

namespace Store

/-- How a closure is printed. -/
def closureText (s : Store) (k : ClosureId) : String :=
  match (s.closure k).name with
  | none => "#<procedure>"
  | some name => s!"#<procedure {name}>"

/-- The printed parts of a chain from `v` on, without the spaces between them.  `part` prints a
member or an end, given the active cells; `room` bounds the length of the chain, and a chain of
different cells always has room. -/
def renderParts (s : Store) (part : List CellId → Value → Except Error String) (room : Nat)
    (active : List CellId) (v : Value) : Except Error (List String) :=
  match v, room with
  | .pair c, room + 1 =>
    if active.contains c then .ok [cycleMarker]
    else do
      let first ← part (c :: active) (s.cell c).car
      let rest ← s.renderParts part room (c :: active) (s.cell c).cdr
      return first :: rest
  | .pair _, 0 => .ok [cycleMarker]
  | .nil, _ => .ok []
  | .foreign w _, _ =>
    if w.isAbsent then .ok []
    else do return [".", ← part active v]
  | v, _ => do return [".", ← part active v]

/-- Prints a value inside the chains whose cells are active.  `limit` bounds how many chains are
printed inside one another. -/
def renderWithin (s : Store) (limit : Nat) (active : List CellId) (v : Value) :
    Except Error String :=
  match v, limit with
  | .atom a, _ => writtenForm a.text?
  | .closure k, _ => .ok (s.closureText k)
  | .builtin b, _ => .ok s!"#<builtin {b.name}>"
  | .foreign w _, _ => .ok s!"#<{w.typeName}>"
  | .pair _, 0 => .error .tooDeep
  | .pair c, limit + 1 =>
    if active.contains c then .ok cycleMarker
    else do
      let parts ← s.renderParts (s.renderWithin limit) (s.cells.size + 1) active (.pair c)
      return "(" ++ " ".intercalate parts ++ ")"

/-- Prints a value. -/
def render (s : Store) (limit : Nat) (v : Value) : Except Error String :=
  s.renderWithin limit [] v

/-- Prints values one by one. -/
def renderAll (s : Store) (limit : Nat) (vs : List Value) : Except Error (List String) :=
  vs.mapM (s.render limit)

/-- How a value is shown in messages about the shape of a form: pairs are marked as such. -/
def display (s : Store) (limit : Nat) (v : Value) : Except Error String :=
  match v with
  | .pair _ => do return "Pair<" ++ (← s.render limit v) ++ ">"
  | v => s.render limit v

/-- How a value is shown together with its kind. -/
def inspect (s : Store) (limit : Nat) (v : Value) : Except Error String :=
  match v with
  | .atom a => writtenForm a.inspect?
  | .pair _ => s.display limit v
  | .closure k =>
    let closure := s.closure k
    let params := " ".intercalate (closure.params.map Symbol.name)
    .ok (s!"Closure(({params}), " ++ s!"{closure.body.length} body form(s))")
  | .builtin b => .ok s!"Builtin({Text.quoted b.name})"
  | .foreign _ _ => s.render limit v

end Store

end SmallScheme
