/-!
# Tokens

The words of a program text: what kind a token is of, how it is spelled and where it stands.
-/

namespace SmallScheme

/-- The kinds of tokens. -/
inductive TokenKind where
  | boolean
  | number
  | identifier
  | lparen
  | rparen
  | quote
  | string
  deriving DecidableEq, Repr

namespace TokenKind

/-- The name of a kind in messages. -/
def name : TokenKind → String
  | boolean => "boolean"
  | number => "number"
  | identifier => "identifier"
  | lparen => "lparen"
  | rparen => "rparen"
  | quote => "quote"
  | string => "string"

instance : ToString TokenKind := ⟨name⟩

/-- A kind is known by its name. -/
theorem name_inj {k l : TokenKind} : k.name = l.name ↔ k = l := by
  cases k <;> cases l <;> decide

end TokenKind

/-- A token of a text. -/
structure Token where
  /-- What kind of token it is. -/
  kind : TokenKind
  /-- Its characters, quotes and radix marks included. -/
  text : String
  /-- How many characters of the text stand before it. -/
  position : Nat
  deriving DecidableEq, Repr

namespace Token

/-- Kind and spelling of a token, for a reader. -/
def describe (token : Token) : String :=
  s!"{token.kind}({token.text})"

/-- Whether a token is a lone point, which is punctuation directly inside a list and an ordinary
identifier everywhere else. -/
def isDot (token : Token) : Bool :=
  token.kind == .identifier && token.text == "."

end Token

end SmallScheme
