import SmallScheme.Proofs.Session

/-!
# Actions

Apart from texts, an interpreter is given expressions to evaluate and procedures to apply, and it
reads texts without evaluating them.  Any value may be given that exists in the store, whether it was
read or has come out of an earlier action.  `Interpreter.Reached` collects the stores between the
actions of a session, each of which may succeed or fail, and `Interpreter.Moment` also those before
and after all calls of the evaluator.

The main result is `exists_moment`: a discipline that permits all deeds and in which all existing
values may be used holds at every moment.
-/

namespace SmallScheme

/-- What an embedding program can do with an interpreter. -/
inductive Action where
  /-- To evaluate or to run a text. -/
  | request (request : Request)
  /-- To read a text. -/
  | parse (text : List Char)
  /-- To evaluate an expression in the global frame. -/
  | interpret (expr : Value)
  /-- To apply a procedure to arguments. -/
  | apply (proc : Value) (args : List Value)

/-- The values that are given to an interpreter. -/
def Action.values : Action → List Value
  | request _ => []
  | parse _ => []
  | interpret expr => [expr]
  | apply proc args => proc :: args

namespace Store

/-- The value is no node, or one of the store. -/
def Knows (s : Store) (v : Value) : Prop :=
  ∀ n, v.node? = some n → s.extent.Has n

end Store

namespace Interpreter

/-- The store after an action, whether it has succeeded or failed. -/
def perform (i : Interpreter) (s : Store) : Action → Store
  | .request request => i.after s request
  | .parse text => Effect.final (i.parse text s)
  | .interpret expr => Effect.final (i.interpret expr s)
  | .apply proc args => Effect.final (i.apply proc args s)

/-- An action in which expressions are evaluated by the given evaluator. -/
def performWith (i : Interpreter) (ev : Evaluator) : Action → Effect Unit
  | .request request => discard <| i.evalWith ev request.text
  | .parse text => discard <| i.parse text
  | .interpret expr => discard <| i.interpretWith ev expr
  | .apply proc args => discard <| Eval.apply i.mode i.limit ev proc args

lemma final_discard {α : Type} (x : Effect α) (s : Store) :
    Effect.final ((discard x : Effect Unit) s) = Effect.final (x s) := by
  show Effect.final ((x >>= fun _ => pure ()) s) = Effect.final (x s)
  cases h : x s with
  | ok a t =>
    rw [Effect.bind_ok h]
    rfl
  | error e t =>
    rw [Effect.bind_error h]
    rfl

/-- An interpreter performs actions by its evaluator. -/
lemma perform_eq (i : Interpreter) (s : Store) (action : Action) :
    i.perform s action = Effect.final (i.performWith i.evaluator action s) := by
  cases action with
  | request request => exact (i.after_eq s request).trans (final_discard _ s).symm
  | _ => exact (final_discard _ s).symm

/-- The calls of the evaluator in an action, each with the limit that is left for it. -/
def ActionCall (i : Interpreter) (s : Store) (action : Action) (limit : Nat) (call : Call) : Prop :=
  ∃ first, Consults (fun ev => i.performWith ev action) i.evaluator s first ∧
    Reaches i.mode i.limit first limit call

/-- The stores that a session leads to, action by action. -/
inductive Reached (i : Interpreter) (s : Store) : Store → Prop
  | start : Reached i s s
  | action {t : Store} {action : Action} : Reached i s t → (∀ v ∈ action.values, t.Knows v) →
      Reached i s (i.perform t action)

/-- The stores that a session leads to, between actions and inside them. -/
inductive Moment (i : Interpreter) (s : Store) : Store → Prop
  | reached {t : Store} : i.Reached s t → Moment i s t
  | before {t : Store} {action : Action} {limit : Nat} {call : Call} : i.Reached s t →
      (∀ v ∈ action.values, t.Knows v) → i.ActionCall t action limit call → Moment i s call.store
  | after {t : Store} {action : Action} {limit : Nat} {call : Call} : i.Reached s t →
      (∀ v ∈ action.values, t.Knows v) → i.ActionCall t action limit call →
      Moment i s (Effect.final (call.run (SmallScheme.eval i.mode limit)))

end Interpreter

namespace Discipline

variable {D : Discipline} {w : D.World} {s t : Store} {i : Interpreter} {action : Action}

lemma ensuresBy_performWith {Allowed : Call → Prop} {Runs : D.World → Call → D.World → Prop}
    {ev : Evaluator} (hpermits : ∀ d, D.Permits d) (hev : D.Obeys Allowed Runs ev)
    (hglobals : D.Scope w i.globals) (hvalues : ∀ v ∈ action.values, ∀ r, D.Good w r v) :
    D.EnsuresBy Allowed Runs ev w (fun ev => i.performWith ev action) fun _ _ => True := by
  cases action with
  | request request => exact (ensuresBy_evalWith hev hglobals request.text).discard
  | parse text => exact EnsuresBy.discard (ensures_parse text).by_any
  | interpret expr =>
    have hexpr : D.IsExpr w expr := hvalues expr (by simp [Action.values]) .expr
    exact (ensuresBy_interpretWith hev hexpr hglobals).discard
  | apply proc args =>
    have hproc : D.IsData w proc := hvalues proc (by simp [Action.values]) .data
    have hargs : ∀ v ∈ args, D.IsData w v := fun v hv =>
      hvalues v (by simp [Action.values, hv]) .data
    have happly : D.EnsuresBy Allowed Runs ev w
        (fun ev => Eval.apply i.mode i.limit ev proc args) D.IsData :=
      fun _ => ensuresAt_apply hev hproc hargs fun _ d _ _ => hpermits d
    exact happly.discard

/-- An action keeps the discipline, and its calls run between its two worlds. -/
lemma exists_perform (hpermits : ∀ d, D.Permits d) (hs : D.Holds w s)
    (hglobals : D.Scope w i.globals) (hvalues : ∀ v ∈ action.values, ∀ r, D.Good w r v) :
    ∃ w', D.le w w' ∧ D.Holds w' (i.perform s action) ∧
      ∀ limit call, i.ActionCall s action limit call → D.RunsWithin i.mode limit w call w' := by
  have hev := obeys_eval hpermits i.mode i.limit
  have haction := ensuresBy_performWith hpermits hev hglobals hvalues
  obtain ⟨w', hle, hout, hmade⟩ := haction s hs fun _ _ => trivial
  refine ⟨w', hle, ?_, ?_⟩
  · rw [i.perform_eq]
    exact hout.holds
  · rintro limit call ⟨first, hconsults, hreaches⟩
    exact runsWithin_of_reaches hmade hconsults hreaches

/-- **Every moment of a session keeps the discipline**, if it permits all deeds and if all values
that exist may be used in every role. -/
theorem exists_moment (hpermits : ∀ d, D.Permits d)
    (hgood : ∀ w s v, D.Holds w s → s.Knows v → ∀ r, D.Good w r v) (hs : D.Holds w s)
    (hglobals : D.Scope w i.globals) (ht : i.Moment s t) : ∃ w', D.le w w' ∧ D.Holds w' t := by
  have hreached {t : Store} (h : i.Reached s t) : ∃ w', D.le w w' ∧ D.Holds w' t := by
    induction h with
    | start => exact ⟨w, D.le_refl w, hs⟩
    | action _ hvalues ih =>
      obtain ⟨w₁, hle₁, hs₁⟩ := ih
      have hvalues₁ := fun v hv => hgood w₁ _ v hs₁ (hvalues v hv)
      obtain ⟨w₂, hle₂, hs₂, -⟩ :=
        exists_perform hpermits hs₁ (D.scope_mono hle₁ hglobals) hvalues₁
      exact ⟨w₂, D.le_trans hle₁ hle₂, hs₂⟩
  -- a call of an action runs between the worlds before and after the action
  have hcall {t : Store} {action : Action} {limit : Nat} {call : Call} (ht : i.Reached s t)
      (hvalues : ∀ v ∈ action.values, t.Knows v) (hcall : i.ActionCall t action limit call) :
      ∃ w', D.RunsWithin i.mode limit w call w' := by
    obtain ⟨w₁, hle₁, hs₁⟩ := hreached ht
    have hvalues₁ := fun v hv => hgood w₁ _ v hs₁ (hvalues v hv)
    obtain ⟨w₂, -, -, hcalls⟩ := exists_perform hpermits hs₁ (D.scope_mono hle₁ hglobals) hvalues₁
    exact ⟨w₂, (hcalls limit call hcall).mono hle₁ (D.le_refl w₂)⟩
  cases ht with
  | reached h => exact hreached h
  | before h hvalues hmade =>
    obtain ⟨w', w₁, -, hle₁, hmeets, -⟩ := hcall h hvalues hmade
    exact ⟨w₁, hle₁, hmeets.holds⟩
  | after h hvalues hmade =>
    obtain ⟨w', w₁, w₂, hle₁, -, hle₂, hout, -⟩ := hcall h hvalues hmade
    exact ⟨w₂, D.le_trans hle₁ hle₂, hout.holds⟩

end Discipline

end SmallScheme
