import Mathlib.Tactic
import SmallScheme.Eval

/-!
# The calls that a step makes

The rules of evaluation are written for any way to evaluate the parts of an expression.  A step
consults its evaluator with a call if a breakpoint there stops the step (`Consults`), and it ignores
the call if the breakpoint is not noticed (`Ignores`).  No rule of evaluation catches an error, so
each call is either consulted or ignored, and the calls that are consulted are those that are made.
-/

namespace SmallScheme

/-- A call of an evaluator: an expression, a frame and the present store. -/
structure Call where
  /-- The expression. -/
  expr : Value
  /-- The frame. -/
  env : FrameId
  /-- The store. -/
  store : Store
  deriving DecidableEq

/-- What an evaluator does with a call. -/
def Call.run (call : Call) (ev : Evaluator) : EStateM.Result Error Store Value :=
  ev call.expr call.env call.store

/-- The store in which a step has ended. -/
def Effect.final {α : Type} : EStateM.Result Error Store α → Store
  | .ok _ s => s
  | .error _ s => s

/-- The evaluator that fails at one call, and otherwise does the same. -/
def stopAt (call : Call) (e : Error) (ev : Evaluator) : Evaluator := fun expr env s =>
  if ⟨expr, env, s⟩ = call then .error e s else ev expr env s

/-- From the given store, the step makes the call: it stops there if the evaluator fails there. -/
def Consults {α : Type} (x : Evaluator → Effect α) (ev : Evaluator) (s : Store)
    (call : Call) : Prop :=
  ∀ e, x (stopAt call e ev) s = .error e call.store

/-- From the given store, the step does not make the call: it does the same if the evaluator fails
there. -/
def Ignores {α : Type} (x : Evaluator → Effect α) (ev : Evaluator) (s : Store)
    (call : Call) : Prop :=
  ∀ e, x (stopAt call e ev) s = x ev s

section Rules

variable {α β : Type} {x : Evaluator → Effect α} {f : α → Evaluator → Effect β} {ev : Evaluator}
  {s s' : Store} {a : α} {e : Error} {call : Call}

/-- No call is both consulted and ignored: whatever the error of a breakpoint is, it shows. -/
lemma Consults.not_ignores (h : Consults x ev s call) : ¬Ignores x ev s call := by
  intro hignores
  have htwo := (h .tooDeep).symm.trans ((hignores .tooDeep).trans (hignores .tooManyDigits).symm)
  rw [h .tooManyDigits] at htwo
  cases htwo

lemma ignores_const (x : Effect α) : Ignores (fun _ => x) ev s call :=
  fun _ => rfl

/-- A call of the first step is one of the whole sequence. -/
lemma Consults.bind_left (h : Consults x ev s call) :
    Consults (fun ev => x ev >>= fun a => f a ev) ev s call :=
  fun e => Effect.bind_error (h e)

/-- A call of the second step is one of the whole sequence if the first step ignores it. -/
lemma Consults.bind_right (hx : Ignores x ev s call) (hok : x ev s = .ok a s')
    (h : Consults (f a) ev s' call) : Consults (fun ev => x ev >>= fun a => f a ev) ev s call :=
  fun e => (Effect.bind_ok ((hx e).trans hok)).trans (h e)

lemma Ignores.bind_error (hx : Ignores x ev s call) (herror : x ev s = .error e s') :
    Ignores (fun ev => x ev >>= fun a => f a ev) ev s call := fun e' =>
  (Effect.bind_error ((hx e').trans herror)).trans (Effect.bind_error herror).symm

lemma Ignores.bind_ok (hx : Ignores x ev s call) (hok : x ev s = .ok a s')
    (h : Ignores (f a) ev s' call) : Ignores (fun ev => x ev >>= fun a => f a ev) ev s call := by
  intro e
  refine (Effect.bind_ok ((hx e).trans hok)).trans ((h e).trans ?_)
  exact (Effect.bind_ok (f := fun a => f a ev) hok).symm

/-- An evaluator that is called at once is consulted with that call and no other. -/
lemma consults_or_ignores_call (expr : Value) (env : FrameId) (ev : Evaluator) (s : Store)
    (call : Call) :
    call = ⟨expr, env, s⟩ ∧ Consults (fun ev => ev expr env) ev s call ∨
      Ignores (fun ev => ev expr env) ev s call := by
  by_cases h : call = ⟨expr, env, s⟩
  · subst h
    exact .inl ⟨rfl, fun e => if_pos rfl⟩
  · exact .inr fun e => if_neg (Ne.symm h)

end Rules

end SmallScheme
