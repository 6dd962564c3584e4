import SmallScheme.Text.Blank
import SmallScheme.Token

/-!
# Cutting a text into tokens

Between two tokens there is a gap of blanks and comments (`gapLength`); a comment runs from a
semicolon to the end of its line.  After the gap a token is recognised by its first characters
and extends as far as its kind allows (`scan?`).  Where no token starts, cutting stops, and the
position of that character is the fault of the text (`tokenize`).
-/

namespace SmallScheme

/-! ## Classes of characters -/

/-- The letters, digits apart, that may start an identifier. -/
def isInitial (c : Char) : Bool :=
  c.isAlpha || "!$%&*.:<=>?^_~".toList.contains c

/-- The characters that may follow in an identifier. -/
def isSubsequent (c : Char) : Bool :=
  isInitial c || c.isDigit || "+-.@".toList.contains c

/-- The binary digits. -/
def isBinaryDigit (c : Char) : Bool :=
  c == '0' || c == '1'

/-- The octal digits. -/
def isOctalDigit (c : Char) : Bool :=
  '0' ≤ c && c ≤ '7'

/-- The hexadecimal digits, in upper and lower case. -/
def isHexDigit (c : Char) : Bool :=
  c.isDigit || ('a' ≤ c && c ≤ 'f') || ('A' ≤ c && c ≤ 'F')

/-! ## Gaps -/

/-- The length of the gap at the front of a text; `inComment` says that a comment is open. -/
def gapLengthFrom (inComment : Bool) : List Char → Nat
  | [] => 0
  | c :: cs =>
    if inComment then gapLengthFrom (c != '\n') cs + 1
    else if Text.isBlank c then gapLengthFrom false cs + 1
    else if c = ';' then gapLengthFrom true cs + 1
    else 0

/-- The length of the gap at the front of a text. -/
def gapLength (cs : List Char) : Nat :=
  gapLengthFrom false cs

/-! ## Single tokens -/

/-- A number token after its radix mark: it needs a digit. -/
def scanDigits? (mark : List Char) (isDigit : Char → Bool) (cs : List Char) :
    Option (TokenKind × List Char) :=
  match cs.takeWhile isDigit with
  | [] => none
  | digits => some (.number, mark ++ digits)

/-- A string token after its opening quote: it ends at the next quote, in the same line. -/
def scanString? (cs : List Char) : Option (TokenKind × List Char) :=
  let body := cs.takeWhile fun c => c != '"' && c != '\n'
  match cs.drop body.length with
  | '"' :: _ => some (.string, '"' :: body ++ ['"'])
  | _ => none

/-- The token at the front of a text: its kind and its characters. -/
def scan? : List Char → Option (TokenKind × List Char)
  | [] => none
  | '(' :: _ => some (.lparen, ['('])
  | ')' :: _ => some (.rparen, [')'])
  | '\'' :: _ => some (.quote, ['\''])
  | '"' :: cs => scanString? cs
  | '#' :: c :: cs =>
    match c with
    | 't' => some (.boolean, ['#', 't'])
    | 'f' => some (.boolean, ['#', 'f'])
    | 'b' => scanDigits? ['#', 'b'] isBinaryDigit cs
    | 'o' => scanDigits? ['#', 'o'] isOctalDigit cs
    | 'd' => scanDigits? ['#', 'd'] Char.isDigit cs
    | 'x' => scanDigits? ['#', 'x'] isHexDigit cs
    | _ => none
  | c :: cs =>
    if c.isDigit then some (.number, c :: cs.takeWhile Char.isDigit)
    else if isInitial c then some (.identifier, c :: cs.takeWhile isSubsequent)
    else if c = '+' ∨ c = '-' then some (.identifier, [c])
    else none

theorem scanDigits?_ne_nil {mark : List Char} {isDigit : Char → Bool} {cs : List Char}
    {kind : TokenKind} {lexeme : List Char}
    (h : scanDigits? mark isDigit cs = some (kind, lexeme)) : lexeme ≠ [] := by
  rintro rfl
  unfold scanDigits? at h
  split at h <;> simp_all

theorem scanString?_ne_nil {cs : List Char} {kind : TokenKind} {lexeme : List Char}
    (h : scanString? cs = some (kind, lexeme)) : lexeme ≠ [] := by
  rintro rfl
  unfold scanString? at h
  dsimp only at h
  split at h <;> simp at h

/-- A token has at least one character, so cutting makes progress. -/
theorem scan?_ne_nil {cs : List Char} {kind : TokenKind} {lexeme : List Char}
    (h : scan? cs = some (kind, lexeme)) : lexeme ≠ [] := by
  rintro rfl
  unfold scan? at h
  split at h <;> try simp at h
  · exact scanString?_ne_nil h rfl
  · split at h
    · simp at h
    · simp at h
    · exact scanDigits?_ne_nil h rfl
    · exact scanDigits?_ne_nil h rfl
    · exact scanDigits?_ne_nil h rfl
    · exact scanDigits?_ne_nil h rfl
    · simp at h
  · split at h
    · simp at h
    · split at h
      · simp at h
      · split at h <;> simp at h

/-! ## Whole texts -/

/-- What stands at the front of a text. -/
inductive Front where
  /-- Nothing but a gap. -/
  | finished
  /-- After a gap, a character that starts no token. -/
  | stuck (position : Nat)
  /-- After a gap, a token, and then the rest of the text. -/
  | token (token : Token) (rest : List Char)

/-- The front of a text whose first character has the given position. -/
def front (position : Nat) (cs : List Char) : Front :=
  let gap := gapLength cs
  match cs.drop gap with
  | [] => .finished
  | c :: rest =>
    match scan? (c :: rest) with
    | none => .stuck (position + gap)
    | some (kind, lexeme) =>
      .token ⟨kind, String.ofList lexeme, position + gap⟩ ((c :: rest).drop lexeme.length)

theorem front_rest_length {position : Nat} {cs rest : List Char} {token : Token}
    (h : front position cs = .token token rest) : rest.length < cs.length := by
  unfold front at h
  dsimp only at h
  split at h
  · simp at h
  · rename_i c cs' hdrop
    split at h
    · simp at h
    · rename_i kind lexeme hscan
      have hlexeme := List.length_pos_iff.mpr (scan?_ne_nil hscan)
      have hlength := congrArg List.length hdrop
      simp only [Front.token.injEq] at h
      simp only [← h.2, List.length_drop, List.length_cons] at hlength ⊢
      omega

/-- What cutting a text gives. -/
structure Tokens where
  /-- The tokens, in the order of the text. -/
  tokens : List Token
  /-- Where cutting stopped, if it stopped before the end of the text. -/
  fault : Option Nat
  deriving DecidableEq, Repr

/-- The tokens of a text whose first character has the given position. -/
def tokensFrom (position : Nat) (cs : List Char) : Tokens :=
  match _ : front position cs with
  | .finished => ⟨[], none⟩
  | .stuck position => ⟨[], some position⟩
  | .token token rest =>
    let later := tokensFrom (token.position + token.text.length) rest
    ⟨token :: later.tokens, later.fault⟩
termination_by cs.length
decreasing_by exact front_rest_length (by assumption)

/-- The tokens of a text. -/
def tokenize (text : List Char) : Tokens :=
  tokensFrom 0 text

end SmallScheme
