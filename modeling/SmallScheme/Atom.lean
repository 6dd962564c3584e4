import SmallScheme.Numeral
import SmallScheme.Symbol
import SmallScheme.Text.Quoted

/-!
# Atoms

The values without parts: the empty list, truth values, integers, symbols and texts.  An atom is
shared by what is read from a text (`Datum`) and by what a program computes with (`Value`), and
it has the same four written forms in both: `text?` for printing, `inspect?` with the kind of the
atom, `tagged?` with the lengths of its parts, and `typeName`.

Three of the forms can fail, and only for an integer that is too long for a decimal numeral.
-/

namespace SmallScheme

/-- A value without parts. -/
inductive Atom where
  /-- The empty list, which is also what a form gives that has no value. -/
  | nil
  /-- A truth value. -/
  | bool (b : Bool)
  /-- An integer of any size. -/
  | number (n : Int)
  /-- A symbol. -/
  | symbol (x : Symbol)
  /-- A text. -/
  | text (s : String)
  deriving DecidableEq, Repr, Inhabited

namespace Atom

/-- How an atom is printed. -/
def text? : Atom → Option String
  | nil => some "()"
  | bool true => some "#t"
  | bool false => some "#f"
  | number n => Numeral.decimal? n
  | symbol x => some x.name
  | text s => some s

/-- How an atom is shown together with its kind. -/
def inspect? : Atom → Option String
  | nil => some "()"
  | bool true => some "Boolean(value=True)"
  | bool false => some "Boolean(value=False)"
  | number n => (Numeral.decimal? n).map fun digits => s!"Number(value={digits})"
  | symbol x => some s!"Symbol({Text.quoted x.name})"
  | text s => some s!"String(value={Text.quoted s})"

/-- An atom with a tag for its kind; a name or a text also has its length in front. -/
def tagged? : Atom → Option String
  | nil => some "()"
  | bool true => some "#t"
  | bool false => some "#f"
  | number n => (Numeral.decimal? n).map fun digits => s!"N{digits}"
  | symbol x => some s!"Y{x.name.length}:{x.name}"
  | text s => some s!"S{s.length}:{s}"

/-- The name of an atom's kind. -/
def typeName : Atom → String
  | nil => "NilType"
  | bool _ => "Boolean"
  | number _ => "Number"
  | symbol _ => "Symbol"
  | text _ => "String"

theorem text?_eq_none_iff {a : Atom} :
    a.text? = none ↔ ∃ n : Int, a = number n ∧ Numeral.decimal? n = none := by
  cases a with
  | bool b => cases b <;> simp [text?]
  | _ => simp [text?]

end Atom

end SmallScheme
