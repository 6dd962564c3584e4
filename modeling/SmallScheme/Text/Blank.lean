/-!
# Blank characters

The characters that separate tokens and that are dropped at both ends of a line or of a flag.
Two functions on top of the class: `dropBlanks` at the front and `strip` at both ends.  The line
feed is one of them, and it is the only one that ends a line (`lines`).
-/

namespace SmallScheme.Text

/-- The blank characters: the ASCII controls from tab to carriage return, the four information
separators, the space, and the spaces and line separators beyond ASCII. -/
def isBlank (c : Char) : Bool :=
  let n := c.toNat
  (0x09 ≤ n && n ≤ 0x0D) || (0x1C ≤ n && n ≤ 0x20) || n == 0x85 || n == 0xA0 || n == 0x1680 ||
    (0x2000 ≤ n && n ≤ 0x200A) || n == 0x2028 || n == 0x2029 || n == 0x202F || n == 0x205F ||
    n == 0x3000

theorem isBlank_of_isWhitespace {c : Char} (h : c.isWhitespace = true) : isBlank c = true := by
  simp only [Char.isWhitespace, Bool.or_eq_true, decide_eq_true_eq] at h
  rcases h with ((rfl | rfl) | rfl) | rfl <;> decide

/-- What is left of a text once its leading blanks are gone. -/
def dropBlanks (cs : List Char) : List Char :=
  cs.dropWhile isBlank

/-- What is left of a text once the blanks at both ends are gone. -/
def stripChars (cs : List Char) : List Char :=
  (dropBlanks (dropBlanks cs).reverse).reverse

@[inherit_doc stripChars]
def strip (s : String) : String :=
  String.ofList (stripChars s.toList)

/-- The lines of a text, without their line feeds.  A text that ends in a line feed has no
further line after it, and the empty text has no line at all. -/
def lines : List Char → List (List Char)
  | [] => []
  | c :: cs =>
    if c = '\n' then [] :: lines cs
    else
      match lines cs with
      | [] => [[c]]
      | line :: rest => (c :: line) :: rest

@[simp] theorem lines_nil : lines [] = [] := rfl

@[simp] theorem lines_newline (cs : List Char) : lines ('\n' :: cs) = [] :: lines cs := by
  simp [lines]

end SmallScheme.Text
