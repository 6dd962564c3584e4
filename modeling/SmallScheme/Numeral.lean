import SmallScheme.Text.Blank
import SmallScheme.Text.DecimalDigit

/-!
# Numerals

The written form of integers.  `read?` takes a numeral with an optional radix mark (`#b`, `#o`,
`#d` or `#x`) and gives its value; `decimal?` writes an integer in decimal.  Decimal numerals
are limited to `maxDecimalDigits` digits in both directions, the other radices are not limited.

Inside a numeral a reader is more generous than the tokens of a program text need: blanks around
it, a sign, the radix announced once more by `0b`, `0o` or `0x`, single underscores between
digits, and the decimal digits of every script.
-/

namespace SmallScheme

/-- The radices that a numeral can be written in. -/
inductive Radix where
  | binary
  | octal
  | decimal
  | hexadecimal
  deriving DecidableEq, Repr

namespace Radix

/-- The number of digits of a radix. -/
def base : Radix → Nat
  | binary => 2
  | octal => 8
  | decimal => 10
  | hexadecimal => 16

/-- The letter that marks a radix. -/
def letter : Radix → Char
  | binary => 'b'
  | octal => 'o'
  | decimal => 'd'
  | hexadecimal => 'x'

/-- The radix that a letter marks, in upper or lower case. -/
def ofLetter? (c : Char) : Option Radix :=
  [binary, octal, decimal, hexadecimal].find? fun radix => radix.letter == c.toLower

end Radix

namespace Numeral

/-- The largest number of digits that a decimal numeral may have. -/
def maxDecimalDigits : Nat := 4300

/-! ## Reading -/

/-- A decimal digit of any script becomes the ASCII digit of its value. -/
def toAsciiDigit (c : Char) : Char :=
  match Text.decimalDigit? c with
  | some d => Char.ofNat (0x30 + d)
  | none => c

/-- The value of an ASCII digit or letter that is a digit in the given base. -/
def digit? (base : Nat) (c : Char) : Option Nat :=
  let value :=
    if c.isDigit then some (c.toNat - '0'.toNat)
    else if c.isAlpha then some (c.toLower.toNat - 'a'.toNat + 10)
    else none
  value.filter (· < base)

/-- The digits of a text: at least one, with at most one underscore between two of them. -/
def digits? (base : Nat) : List Char → Option (List Nat)
  | [] => none
  | [c] => (digit? base c).map fun d => [d]
  | c :: '_' :: rest => do
    let d ← digit? base c
    let ds ← digits? base rest
    return d :: ds
  | c :: c' :: rest => do
    let d ← digit? base c
    let ds ← digits? base (c' :: rest)
    return d :: ds

/-- The number that a list of digits stands for, the most significant digit first. -/
def ofDigits (base : Nat) (ds : List Nat) : Nat :=
  ds.foldl (fun n d => n * base + d) 0

/-- The digits without the second mark of their radix (`0b`, `0o` or `0x`), which an underscore
may follow.  The decimal radix has no such mark. -/
def dropMark (radix : Radix) : List Char → List Char
  | '0' :: c :: rest =>
    if radix ≠ .decimal ∧ c.toLower = radix.letter then
      match rest with
      | '_' :: rest => rest
      | rest => rest
    else '0' :: c :: rest
  | cs => cs

/-- The value of a numeral without sign. -/
def magnitude? (radix : Radix) (cs : List Char) : Option Nat := do
  let ds ← digits? radix.base (dropMark radix cs)
  if radix = .decimal ∧ maxDecimalDigits < ds.length then none
  else return ofDigits radix.base ds

/-- The value of a numeral with an optional sign. -/
def signed? (radix : Radix) : List Char → Option Int
  | '+' :: cs => (magnitude? radix cs).map fun n => n
  | '-' :: cs => (magnitude? radix cs).map fun n => -n
  | cs => (magnitude? radix cs).map fun n => n

/-- The blanks that may surround a numeral: all but the four information separators. -/
def isOuterBlank (c : Char) : Bool :=
  Text.isBlank c && !(0x1C ≤ c.toNat && c.toNat ≤ 0x1F)

/-- The value of a numeral of a known radix, with blanks around it. -/
def readIn? (radix : Radix) (cs : List Char) : Option Int :=
  let inner := ((cs.dropWhile isOuterBlank).reverse.dropWhile isOuterBlank).reverse
  signed? radix (inner.map toAsciiDigit)

/-- The value of a numeral.  Without a radix mark it is decimal. -/
def read? : List Char → Option Int
  | '#' :: c :: cs => do readIn? (← Radix.ofLetter? c) cs
  | ['#'] => none
  | cs => readIn? .decimal cs

/-! ## Writing -/

/-- The smallest number that has too many decimal digits. -/
def decimalBound : Nat :=
  Nat.pow 10 maxDecimalDigits

/-- An integer in decimal, unless it needs more digits than a decimal numeral may have. -/
def decimal? (n : Int) : Option String :=
  if n.natAbs < decimalBound then some (toString n) else none

theorem decimal?_isSome_iff {n : Int} : (decimal? n).isSome ↔ n.natAbs < decimalBound := by
  unfold decimal?
  split <;> simp_all

end Numeral

end SmallScheme
