/-!
# Coordinates

A position in a text counts characters from the start of the text.  For a reader of messages it
is turned into a line and a column (`coordinateAt`).  Lines count from one.  The first line
counts its columns from zero and every later line counts them from one, because there a column
is the distance from the line feed before it.
-/

namespace SmallScheme.Text

/-- A line and a column of a text. -/
structure Coordinate where
  /-- The number of the line; the first line is line one. -/
  line : Nat
  /-- The column: zero at the start of the text, one at the start of every later line. -/
  column : Nat
  deriving DecidableEq, Repr

namespace Coordinate

/-- Where a text starts. -/
def start : Coordinate := ⟨1, 0⟩

/-- The coordinate right after a character that stands at `p`. -/
def after (p : Coordinate) (c : Char) : Coordinate :=
  if c = '\n' then ⟨p.line + 1, 1⟩ else ⟨p.line, p.column + 1⟩

@[simp] theorem after_newline (p : Coordinate) : p.after '\n' = ⟨p.line + 1, 1⟩ := rfl

theorem after_of_ne_newline {c : Char} (p : Coordinate) (h : c ≠ '\n') :
    p.after c = ⟨p.line, p.column + 1⟩ := by
  simp [after, h]

end Coordinate

/-- The coordinate of a position.  A position past the end of the text lies on its last line. -/
def coordinateAt (text : List Char) (position : Nat) : Coordinate :=
  let before := text.take position
  let p := before.foldl Coordinate.after Coordinate.start
  ⟨p.line, p.column + (position - before.length)⟩

theorem coordinateAt_zero (text : List Char) : coordinateAt text 0 = Coordinate.start := by
  simp [coordinateAt, Coordinate.start]

/-- What is known about where a fault stands.  A fault of evaluation has no place at all. -/
structure Place where
  /-- The line, if it is known. -/
  line : Option Nat
  /-- The column, if it is known. -/
  column : Option Nat
  deriving DecidableEq, Repr

namespace Place

/-- The place of a fault that stands in no text. -/
def unknown : Place := ⟨none, none⟩

/-- The place of a position of a text. -/
def ofPosition (text : List Char) (position : Nat) : Place :=
  let p := coordinateAt text position
  ⟨some p.line, some p.column⟩

end Place

end SmallScheme.Text
