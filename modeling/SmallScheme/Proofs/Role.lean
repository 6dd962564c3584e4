import Mathlib.Tactic
import SmallScheme.Eval

/-!
# The roles of values in a program

A value that the evaluator looks at has a role: it is an expression, a list of expressions, a list
of clauses, and so on, or it is data.  The parts of a cell have roles that follow from the role of
the cell (`Role.first`, `Role.rest`).  An expression has to be looked at first: whether its first
part is the keyword of a special form settles what the rest is (`Role.refine`).

Everything but data is text of the program.  The operands of a quotation are data; the cells of
the list of these operands are still text.
-/

namespace SmallScheme

/-- What a value is to the evaluator. -/
inductive Role where
  /-- A value that a program computes with. -/
  | data
  /-- An expression. -/
  | expr
  /-- An expression with the given keyword, or an application. -/
  | form (keyword : Option SpecialForm)
  /-- A chain of members with the same role. -/
  | listOf (member : Role)
  /-- A chain of expressions after a first member with a role of its own. -/
  | headed (first : Role)
  deriving DecidableEq

namespace Role

/-- The expressions of a sequence. -/
abbrev exprs : Role := listOf expr

/-- The operands of a form or of an application. -/
def operands : Option SpecialForm → Role
  | some .quote => listOf data
  | some .lambda | some .define => headed exprs
  | some .letIn => headed (listOf exprs)
  | some .cond => listOf exprs
  | _ => exprs

/-- The role of the first part of a cell. -/
def first : Role → Role
  | data => data
  | expr | form _ => expr
  | listOf member => member
  | headed first => first

/-- The role of the second part of a cell. -/
def rest : Role → Role
  | data => data
  | expr => exprs
  | form keyword => operands keyword
  | listOf member => listOf member
  | headed _ => exprs

/-- The role of a cell once its first part has been looked at. -/
def refine (r : Role) (car : Value) : Role :=
  match r with
  | expr => form (Eval.keyword? car)
  | r => r

@[simp] lemma refine_expr (car : Value) : expr.refine car = form (Eval.keyword? car) := rfl

lemma refine_of_ne {r : Role} (h : r ≠ expr) (car : Value) : r.refine car = r := by
  cases r <;> first | rfl | exact absurd rfl h

lemma refine_ne_expr (r : Role) (car : Value) : r.refine car ≠ expr := by
  cases r <;> simp [refine]

/-- The role of the first part does not depend on what it is. -/
@[simp] lemma first_refine (r : Role) (car : Value) : (r.refine car).first = r.first := by
  cases r <;> rfl

@[simp] lemma refine_refine (r : Role) (car : Value) : (r.refine car).refine car = r.refine car :=
  refine_of_ne (r.refine_ne_expr car) car

lemma refine_eq_data_iff {r : Role} {car : Value} : r.refine car = data ↔ r = data := by
  cases r <;> simp [refine]

/-- A chain that starts as text goes on as text. -/
lemma rest_ne_data {r : Role} (h : r ≠ data) : r.rest ≠ data := by
  cases r with
  | data => exact absurd rfl h
  | form keyword =>
    rcases keyword with _ | keyword
    · exact Role.noConfusion
    · cases keyword <;> exact Role.noConfusion
  | _ => exact Role.noConfusion

end Role

end SmallScheme
