import SmallScheme.Symbol

/-!
# Special forms

An expression that starts with one of eight keywords is evaluated by a rule of its own.  The
keywords cannot be redefined: they count only as the first member of an expression, and there
always.
-/

namespace SmallScheme

/-- The special forms. -/
inductive SpecialForm where
  /-- A datum as it is. -/
  | quote
  /-- A new value for the nearest binding. -/
  | assign
  /-- A binding in the current frame. -/
  | define
  /-- A choice between two expressions. -/
  | choice
  /-- The first clause whose test is true. -/
  | cond
  /-- Local bindings. -/
  | letIn
  /-- A procedure. -/
  | lambda
  /-- Expressions in order. -/
  | sequence
  deriving DecidableEq, Repr

namespace SpecialForm

/-- All special forms. -/
def all : List SpecialForm :=
  [quote, assign, define, choice, cond, letIn, lambda, sequence]

/-- The keyword of a form. -/
def keyword : SpecialForm → Symbol
  | quote => ⟨"quote"⟩
  | assign => ⟨"set!"⟩
  | define => ⟨"define"⟩
  | choice => ⟨"if"⟩
  | cond => ⟨"cond"⟩
  | letIn => ⟨"let"⟩
  | lambda => ⟨"lambda"⟩
  | sequence => ⟨"begin"⟩

/-- The form of a keyword. -/
def ofSymbol? (x : Symbol) : Option SpecialForm :=
  all.find? fun form => form.keyword = x

/-- The word that marks the last clause of a `cond`. -/
def elseWord : Symbol := ⟨"else"⟩

theorem ofSymbol?_keyword (form : SpecialForm) : ofSymbol? form.keyword = some form := by
  cases form <;> decide

theorem keyword_of_ofSymbol? {x : Symbol} {form : SpecialForm} (h : ofSymbol? x = some form) :
    form.keyword = x := by
  simpa using List.find?_some h

end SpecialForm

end SmallScheme
