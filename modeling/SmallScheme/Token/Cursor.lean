import SmallScheme.Error
import SmallScheme.Token.Lexer

/-!
# A cursor over the tokens of a text

A cursor stands on one token of a text, or at its end.  `expect` asks for a token by the name of
its kind: if it stands there, its text is returned and the cursor moves on.  Otherwise the cursor
stays.  A name that no kind has is never found.

Where the text cannot be cut any further, moving on fails and the cursor stays on the token that
was just asked for; the text is taken to end after it.
-/

namespace SmallScheme

/-- A cursor over the tokens of a text. -/
structure Cursor where
  /-- The text, from which places are computed. -/
  text : List Char
  /-- The token that the cursor stands on; at the end of the text there is none. -/
  current : Option Token
  /-- The tokens behind it. -/
  later : List Token
  /-- Where the text cannot be cut any further, if that is still ahead. -/
  fault : Option Nat

namespace Cursor

/-- The cursor on the next token, unless the text cannot be cut up to there. -/
def advance (c : Cursor) : Except Error Cursor :=
  match c.later, c.fault with
  | token :: later, _ => .ok { c with current := some token, later := later }
  | [], none => .ok { c with current := none }
  | [], some position => .error (.lexicalAt c.text position)

/-- The cursor on the first token of a text. -/
def start (text : List Char) : Except Error Cursor :=
  let cut := tokenize text
  advance ⟨text, none, cut.tokens, cut.fault⟩

/-- Asks for a token whose kind has the given name. -/
def expect (kind : String) (c : Cursor) : Except Error String × Cursor :=
  match c.current with
  | none => (.error (.atPosition c.text c.text.length (.expected kind none)), c)
  | some token =>
    if token.kind.name = kind then
      match c.advance with
      | .ok c' => (.ok token.text, c')
      | .error e => (.error e, { c with fault := none })
    else (.error (.atPosition c.text token.position (.expected kind (some token))), c)

/-- Asks for one token after another. -/
def expectAll (kinds : List String) (c : Cursor) : List (Except Error String) :=
  match kinds with
  | [] => []
  | kind :: kinds =>
    let (answer, c) := c.expect kind
    answer :: expectAll kinds c

end Cursor

end SmallScheme
