import SmallScheme.Datum
import SmallScheme.Error
import SmallScheme.Token.Lexer

/-!
# Reading data

The tokens of a text are read one by one.  What has been opened and not yet closed is kept on a
stack (`Reading.opened`): a list with the data read so far, or a quote mark that waits for its
datum.  A datum that is complete goes to whatever was opened last (`Reading.complete`), and to
the results if nothing is open.

A lone point is punctuation directly inside a list, and an ordinary identifier everywhere else.
The datum after it must be the last one of its list.

`read` reads a whole text: either all its data, or the first fault in the order of the text.
-/

namespace SmallScheme

/-- Something that has been opened and not yet closed. -/
inductive Opened where
  /-- A list, with its data so far, the last one first. -/
  | list (items : List Datum)
  /-- A list after its point: the data before the point and those after it, the last one
  first. -/
  | dotted (items after : List Datum)
  /-- A quote mark. -/
  | quote
  deriving Repr

/-- What has been read of a text. -/
structure Reading where
  /-- The data that are complete, the last one first. -/
  done : List Datum
  /-- What is open, the innermost first. -/
  opened : List Opened
  deriving Repr

namespace Reading

/-- Nothing has been read. -/
def empty : Reading := ⟨[], []⟩

/-- A datum is complete and goes to whatever was opened last. -/
def complete (done : List Datum) (d : Datum) : List Opened → Reading
  | [] => ⟨d :: done, []⟩
  | .quote :: outer => complete done d.quoted outer
  | .list items :: outer => ⟨done, .list (d :: items) :: outer⟩
  | .dotted items after :: outer => ⟨done, .dotted items (d :: after) :: outer⟩

/-- Something is opened, unless too much is open already. -/
def push (limit : Nat) (inner : Opened) (r : Reading) : Except Error Reading :=
  if r.opened.length < limit then .ok { r with opened := inner :: r.opened }
  else .error .tooDeep

/-- The atom of a token that is a datum by itself. -/
def atomOf (token : Token) : Except ReadFault Atom :=
  match token.kind with
  | .boolean => .ok (.bool (token.text == "#t"))
  | .number =>
    match Numeral.read? token.text.toList with
    | some n => .ok (.number n)
    | none => .error .invalidNumber
  | .identifier => .ok (.symbol ⟨token.text⟩)
  | .string => .ok (.text (String.ofList (token.text.toList.drop 1).dropLast))
  | _ => .error (.unexpectedToken token.text)

/-- A token that is a datum by itself is read. -/
def simple (r : Reading) (token : Token) : Except ReadFault Reading := do
  let a ← atomOf token
  return complete r.done (.atom a) r.opened

/-- The innermost list is closed. -/
def close (r : Reading) (token : Token) : Except ReadFault Reading :=
  match r.opened with
  | .list items :: outer => .ok (complete r.done (Datum.ofList items.reverse .nil) outer)
  | .dotted items [last] :: outer =>
    .ok (complete r.done (Datum.ofList items.reverse last) outer)
  | .dotted .. :: _ => .error .misplacedDot
  | _ => .error (.unexpectedToken token.text)

/-- A lone point is read. -/
def dot (r : Reading) (token : Token) : Except ReadFault Reading :=
  match r.opened with
  | .list items :: outer => .ok { r with opened := .dotted items [] :: outer }
  | .dotted .. :: _ => .error .repeatedDot
  | _ => r.simple token

/-- The next token of a text is read. -/
def next (limit : Nat) (text : List Char) (r : Reading) (token : Token) :
    Except Error Reading :=
  match token.kind with
  | .lparen => r.push limit (.list [])
  | .quote => r.push limit .quote
  | .rparen => (r.close token).mapError (.atPosition text token.position)
  | _ =>
    (if token.isDot then r.dot token else r.simple token).mapError
      (.atPosition text token.position)

/-- The text ends.  Nothing may be open. -/
def finish (text : List Char) (r : Reading) : Except Error (List Datum) :=
  match r.opened with
  | [] => .ok r.done.reverse
  | .quote :: _ => .error (.atPosition text text.length .unexpectedEnd)
  | _ :: _ => .error (.atPosition text text.length .unclosedList)

end Reading

/-- The data of a text.  `limit` bounds how many lists and quote marks are open at once. -/
def read (limit : Nat) (text : List Char) : Except Error (List Datum) := do
  let cut := tokenize text
  let reading ← cut.tokens.foldlM (Reading.next limit text) .empty
  match cut.fault with
  | some position => throw (.lexicalAt text position)
  | none => reading.finish text

/-- The first datum of a text, or the empty list if it has none. -/
def readFirst (limit : Nat) (text : List Char) : Except Error Datum := do
  let data ← read limit text
  return data.headD .nil

/-- The value of a number token that stands at a position of a text. -/
def readNumber (text : List Char) (token : List Char) (position : Nat) : Except Error Int :=
  match Numeral.read? token with
  | some n => .ok n
  | none => .error (.atPosition text position .invalidNumber)

end SmallScheme
