import SmallScheme.Proofs.ByCalls
import SmallScheme.Proofs.StrictReads

/-!
# Tracing

Where steps are reported, every expression is printed before it is evaluated, and so are a procedure
and its arguments before it is applied.  Printing changes nothing, but it may fail because of a
limit, and then the evaluation fails.  This is all that reports change, events apart: an evaluation
that ends without such an error ends in the same way if nothing is reported.

If it ends because a number has too many digits, then either this is so without reports as well, or
such a number was in a value that was to be shown in an event (`Eval.FailsToReport`).  In both cases
whatever it has printed is printed first without reports.

The main result is `ends_traced`.
-/

namespace SmallScheme

/-- The same store with other events. -/
def Store.withEvents (events : Array Event) (s : Store) : Store :=
  { s with events := events }

/-- The same result in a store with other events. -/
def Effect.withEvents {α : Type} (events : Array Event) :
    EStateM.Result Error Store α → EStateM.Result Error Store α
  | .ok a s => .ok a (s.withEvents events)
  | .error e s => .error e (s.withEvents events)

/-! ## Pairs of runs -/

/-- A run with reports and one without. -/
def RunPair.ofTracing (strict : Bool) (events : Array Event) : RunPair where
  mode := ⟨strict, true⟩
  mode' := ⟨strict, false⟩
  forget _ := events
  Stops := Error.OfLimit
  stops_ordinary := Error.OfLimit.ordinary
  strict := .inl rfl
  traced := .inr ⟨rfl, fun _ => ⟨fun _ _ => rfl, fun _ => id⟩⟩

/-- Two runs without reports that start with different events. -/
def RunPair.untraced (strict : Bool) (events : Array Event) : RunPair where
  mode := ⟨strict, false⟩
  mode' := ⟨strict, false⟩
  forget _ := events
  Stops e := e = .tooDeep
  stops_ordinary := Error.ordinary_of_eq_tooDeep
  strict := .inl rfl
  traced := .inr ⟨rfl, fun h => absurd h Bool.false_ne_true⟩

/-- If the events are all that is forgotten, the second run has the same result apart from them. -/
lemma RunPair.viewResult_eq_withEvents {α : Type} {P : RunPair} {events : Array Event}
    (hforget : P.forget = fun _ => events) (r : EStateM.Result Error Store α) :
    P.viewResult r = Effect.withEvents events r := by
  cases r with
  | ok a s =>
    rw [viewResult, view, hforget]
    rfl
  | error e s =>
    rw [viewResult, view, hforget]
    rfl

/-! ## Reports that fail -/

/-- The call cannot report the evaluation of its expression, or the application that it comes to,
since the value cannot be printed; this happens in the given store. -/
inductive Eval.FailsToReport (mode : Mode) (limit : Nat) (ev : Evaluator) (call : Call)
    (e : Error) : Store → Value → Prop
  | eval : call.store.render limit call.expr = .error e →
      mode.reportEval limit call.expr call.store = .error e call.store →
      FailsToReport mode limit ev call e call.store call.expr
  | apply {c : CellId} {s t : Store} {proc v : Value} {args : List Value} :
      call.expr = .pair c → mode.reportEval limit call.expr call.store = .ok () s →
      keyword? (s.cell c).car = none → parts limit ev c call.env s = .ok (proc, args) t →
      v ∈ proc :: args → t.render limit v = .error e →
      mode.reportApply limit proc args t = .error e t → FailsToReport mode limit ev call e t v

/-- One of the calls of an evaluation cannot report since a number has too many digits. -/
def StopsAtReport (mode : Mode) (limit : Nat) (call : Call) (t : Store) : Prop :=
  ∃ limit' call' v, Reaches mode limit call (limit' + 1) call' ∧
    Eval.FailsToReport mode limit' (eval mode limit') call' .tooManyDigits t v

section Steps

variable {strict : Bool} {mode : Mode} {limit : Nat} {events : Array Event} {ev ev' : Evaluator}
  {call part : Call} {expr v : Value} {env : FrameId} {s t : Store} {e : Error} {α β : Type}

lemma StopsAtReport.inner
    (hpart : Consults (fun ev => Eval.step mode limit ev call.expr call.env) (eval mode limit)
      call.store part)
    (h : StopsAtReport mode limit part t) : StopsAtReport mode (limit + 1) call t := by
  obtain ⟨limit', call', v, hreaches, hfails⟩ := h
  exact ⟨limit', call', v, .inner hpart hreaches, hfails⟩

/-- The step fails where its report does. -/
lemma Eval.FailsToReport.step_eq (h : FailsToReport mode limit ev call e t v) :
    step mode limit ev call.expr call.env call.store = .error e t := by
  cases h with
  | eval _ hreport => exact Effect.bind_error hreport
  | @apply c s _ proc _ args hexpr hreport hkeyword hparts _ _ happly =>
    rw [hexpr] at hreport ⊢
    refine (Effect.bind_ok hreport).trans ?_
    refine (Effect.get_bind _ _).trans ?_
    rw [hkeyword, application_eq]
    refine (Effect.bind_ok hparts).trans ?_
    exact Effect.bind_error happly

lemma Eval.FailsToReport.hasLongNumber
    (h : FailsToReport mode limit ev call .tooManyDigits t v) : t.HasLongNumber v := by
  cases h with
  | eval hrender => exact (Store.unprintable_of_render hrender).hasLongNumber
  | apply _ _ _ _ _ hrender => exact (Store.unprintable_of_render hrender).hasLongNumber

/-! ## Steps with and without reports -/

/-- From the store, the second step does the same as the first one, events apart, unless the first
one is nested too deeply. -/
def Alike (events : Array Event) (x y : Effect α) (s : Store) : Prop :=
  y (s.withEvents events) = Effect.withEvents events (x s) ∨ ∃ t, x s = .error .tooDeep t

lemma alike_of_abridges {x y : Effect α} (h : (RunPair.untraced strict events).Abridges x y)
    (s : Store) : Alike events x y s := by
  rcases h.run s with heq | ⟨e, t, hstop, he, -⟩
  · exact .inl (heq.trans (RunPair.viewResult_eq_withEvents rfl _))
  · have hdeep : e = .tooDeep := he
    exact .inr ⟨t, hdeep ▸ hstop⟩

lemma Alike.bind {x y : Effect α} {f g : α → Effect β} (hx : Alike events x y s)
    (hf : ∀ a t, x s = .ok a t → Alike events (f a) (g a) t) :
    Alike events (x >>= f) (y >>= g) s := by
  rcases hx with heq | ⟨t, hdeep⟩
  · cases h : x s with
    | ok a t =>
      rw [h] at heq
      unfold Alike
      rw [Effect.bind_ok h, Effect.bind_ok heq]
      exact hf a t h
    | error e t =>
      rw [h] at heq
      unfold Alike
      rw [Effect.bind_error h, Effect.bind_error heq]
      exact .inl rfl
  · exact .inr ⟨t, Effect.bind_error hdeep⟩

/-- A report that does not fail, or fails for lack of depth, makes no difference. -/
lemma Alike.report {report : Effect Unit} {x y : Effect α}
    (hreport : (∃ event, report s = .ok () (s.report event)) ∨ report s = .error .tooDeep s)
    (h : ∀ s', report s = .ok () s' → Alike events x y s') :
    Alike events (report >>= fun _ => x) y s := by
  rcases hreport with ⟨event, hok⟩ | hdeep
  · unfold Alike
    rw [Effect.bind_ok hok]
    exact h _ hok
  · exact .inr ⟨s, Effect.bind_error hdeep⟩

lemma reportEval_of_ne (h : ∀ v, ¬Eval.FailsToReport ⟨strict, true⟩ limit ev ⟨expr, env, s⟩
      .tooManyDigits s v) :
    (∃ event, Mode.reportEval ⟨strict, true⟩ limit expr s = .ok () (s.report event)) ∨
      Mode.reportEval ⟨strict, true⟩ limit expr s = .error .tooDeep s := by
  refine (Mode.reportEval_cases rfl limit expr s).imp_right fun ⟨e, he, hreport⟩ => ?_
  cases Store.unprintable_of_render he with
  | tooDeep => exact hreport
  | tooManyDigits => exact absurd (.eval he hreport) (h expr)

/-- An application that is reported goes on as without a report. -/
lemma apply_traced (strict : Bool) (limit : Nat) (ev : Evaluator) (proc : Value)
    (args : List Value) :
    Eval.apply ⟨strict, true⟩ limit ev proc args = (do
      Mode.reportApply ⟨strict, true⟩ limit proc args
      Eval.apply ⟨strict, false⟩ limit ev proc args) := rfl

lemma alike_application {c : CellId}
    (hev : (RunPair.untraced strict events).AbridgesEach ev ev')
    (hreports : ∀ proc args t, Eval.parts limit ev c env s = .ok (proc, args) t →
      ∀ v ∈ proc :: args, t.render limit v = .error .tooManyDigits →
        Mode.reportApply ⟨strict, true⟩ limit proc args t ≠ .error .tooManyDigits t) :
    Alike events (Eval.application ⟨strict, true⟩ limit ev c env)
      (Eval.application ⟨strict, false⟩ limit ev' c env) s := by
  rw [Eval.application_eq, Eval.application_eq]
  have hparts : (RunPair.untraced strict events).Abridges (Eval.parts limit ev c env)
      (Eval.parts limit ev' c env) := RunPair.abridges_parts (.refl limit) hev c
  refine (alike_of_abridges hparts s).bind fun found t hfound => ?_
  obtain ⟨proc, args⟩ := found
  rw [apply_traced]
  refine Alike.report ?_ fun t' _ => ?_
  · refine (Mode.reportApply_cases rfl limit proc args t).imp_right ?_
    rintro ⟨v, hv, e, he, hreport⟩
    cases Store.unprintable_of_render he with
    | tooDeep => exact hreport
    | tooManyDigits => exact absurd hreport (hreports proc args t hfound v hv he)
  · exact alike_of_abridges (RunPair.abridges_apply (.refl limit) hev proc args) t'

lemma alike_combination {c : CellId}
    (hev : (RunPair.untraced strict events).AbridgesEach ev ev')
    (hreports : Eval.keyword? (s.cell c).car = none → ∀ proc args t,
      Eval.parts limit ev c env s = .ok (proc, args) t →
      ∀ v ∈ proc :: args, t.render limit v = .error .tooManyDigits →
        Mode.reportApply ⟨strict, true⟩ limit proc args t ≠ .error .tooManyDigits t) :
    Alike events (Eval.combination ⟨strict, true⟩ limit ev c env)
      (Eval.combination ⟨strict, false⟩ limit ev' c env) s := by
  have hcombination : (RunPair.untraced strict events).Abridges
      (Eval.combination ⟨strict, false⟩ limit ev c env)
      (Eval.combination ⟨strict, false⟩ limit ev' c env) :=
    RunPair.abridges_combination (.refl limit) hev c
  cases hkeyword : Eval.keyword? (s.cell c).car with
  | some form =>
    -- a special form reports nothing itself
    have hsame : Eval.combination ⟨strict, true⟩ limit ev c env s =
        Eval.combination ⟨strict, false⟩ limit ev c env s := by
      unfold Eval.combination
      rw [Effect.get_bind, Effect.get_bind, hkeyword]
    unfold Alike
    rw [hsame]
    exact alike_of_abridges hcombination s
  | none =>
    have happlication := alike_application hev (hreports hkeyword)
    have heq (mode : Mode) (ev : Evaluator) (s' : Store) (h : s'.cell c = s.cell c) :
        Eval.combination mode limit ev c env s' = Eval.application mode limit ev c env s' := by
      unfold Eval.combination
      rw [Effect.get_bind, h, hkeyword]
    unfold Alike
    rw [heq _ _ s rfl, heq _ _ (s.withEvents events) rfl]
    exact happlication

/-- Apart from applications, a step goes on without reports after its first one. -/
lemma step_traced (strict : Bool) (limit : Nat) (ev : Evaluator) (expr : Value) (env : FrameId) :
    Eval.step ⟨strict, true⟩ limit ev expr env = (do
      Mode.reportEval ⟨strict, true⟩ limit expr
      match expr with
      | .pair c => Eval.combination ⟨strict, true⟩ limit ev c env
      | v => Eval.step ⟨strict, false⟩ limit ev v env) := by
  cases expr with
  | atom a => cases a <;> rfl
  | _ => rfl

/-- Without reports a step does the same as with reports, unless one of its own reports fails. -/
lemma alike_step (hev : (RunPair.untraced strict events).AbridgesEach ev ev')
    (hreports : ∀ t v,
      ¬Eval.FailsToReport ⟨strict, true⟩ limit ev ⟨expr, env, s⟩ .tooManyDigits t v) :
    Alike events (Eval.step ⟨strict, true⟩ limit ev expr env)
      (Eval.step ⟨strict, false⟩ limit ev' expr env) s := by
  rw [step_traced]
  refine Alike.report (reportEval_of_ne (hreports s)) fun s' hreport => ?_
  cases expr with
  | pair c =>
    refine alike_combination hev fun hkeyword proc args t hparts v hv hrender hfails => ?_
    exact hreports t v (.apply rfl hreport hkeyword hparts hv hrender hfails)
  | _ => exact alike_of_abridges (RunPair.abridges_step (.refl limit) hev _ env) s'

end Steps

/-! ## Evaluators with fewer calls -/

open Classical in
/-- The evaluator that is nested too deeply wherever a call is not allowed. -/
noncomputable def Evaluator.only (allowed : Call → Prop) (ev : Evaluator) : Evaluator :=
  fun expr env s => if allowed ⟨expr, env, s⟩ then ev expr env s else .error .tooDeep s

section Only

variable {allowed : Call → Prop} {ev : Evaluator} {mode : Mode} {limit : Nat} {call : Call}
  {s t : Store} {v : Value} {e : Error} {α : Type} {x : Evaluator → Effect α}

lemma run_only_of_allowed (h : allowed call) : call.run (Evaluator.only allowed ev) = call.run ev :=
  if_pos h

lemma run_only_of_not_allowed (h : ¬allowed call) :
    call.run (Evaluator.only allowed ev) = .error .tooDeep call.store :=
  if_neg h

/-- A step that is not nested too deeply makes calls only that are allowed. -/
lemma ByCalls.eq_only (hx : ByCalls x)
    (h : ∀ t, x (Evaluator.only allowed ev) s ≠ .error .tooDeep t) :
    x ev s = x (Evaluator.only allowed ev) s := by
  refine hx.congr fun call hcall => ?_
  by_cases hallowed : allowed call
  · exact (run_only_of_allowed hallowed).symm
  · exact absurd (hx.fails hcall (run_only_of_not_allowed hallowed)) (h _)

lemma Eval.FailsToReport.of_only
    (h : FailsToReport mode limit (Evaluator.only allowed ev) call e t v) :
    FailsToReport mode limit ev call e t v := by
  cases h with
  | eval hrender hreport => exact .eval hrender hreport
  | @apply c s _ _ _ _ hexpr hreport hkeyword hparts hv hrender happly =>
    refine .apply hexpr hreport hkeyword ?_ hv hrender happly
    have hdeep : ∀ t, parts limit (Evaluator.only allowed ev) c call.env s ≠ .error .tooDeep t := by
      rw [hparts]
      exact nofun
    exact ((byCalls_parts c).eq_only hdeep).trans hparts

end Only

/-! ## Evaluation -/

section Evaluation

variable {strict : Bool} {limit : Nat} {events : Array Event} {expr : Value} {env : FrameId}
  {s : Store}

/-- The call ends in the same way with and without reports, events apart. -/
def AgreesUntraced (strict : Bool) (events : Array Event) (limit : Nat) (call : Call) : Prop :=
  eval ⟨strict, false⟩ limit call.expr call.env (call.store.withEvents events) =
    Effect.withEvents events (call.run (eval ⟨strict, true⟩ limit))

lemma abridges_only :
    (RunPair.untraced strict events).AbridgesEach
      (Evaluator.only (AgreesUntraced strict events limit) (eval ⟨strict, true⟩ limit))
      (eval ⟨strict, false⟩ limit) := by
  intro expr env
  have hforward :=
    (RunPair.abridges_eval (P := RunPair.untraced strict events) (.refl limit) expr env).forward
  refine ⟨fun s => ?_, hforward⟩
  by_cases hagrees : AgreesUntraced strict events limit ⟨expr, env, s⟩
  · refine .inl (hagrees.trans ?_)
    rw [RunPair.viewResult_eq_withEvents rfl]
    exact congrArg _ (run_only_of_allowed hagrees).symm
  · exact .inr ⟨_, s, run_only_of_not_allowed hagrees, rfl, hforward _⟩

/-- An evaluation does the same without reports, unless one of its reports fails. -/
lemma alike_eval (h : ∀ t, eval ⟨strict, true⟩ limit expr env s = .error .tooManyDigits t →
      ¬StopsAtReport ⟨strict, true⟩ limit ⟨expr, env, s⟩ t) :
    Alike events (eval ⟨strict, true⟩ limit expr env) (eval ⟨strict, false⟩ limit expr env) s := by
  induction limit generalizing expr env s with
  | zero => exact .inl rfl
  | succ limit ih =>
    set traced := eval ⟨strict, true⟩ limit
    have hstep := Eval.byCalls_step ⟨strict, true⟩ limit expr env
    have hparts {part : Call}
        (hpart : Consults (fun ev => Eval.step ⟨strict, true⟩ limit ev expr env) traced s part) :
        AgreesUntraced strict events limit part ∨
          ∃ t, part.run traced = .error .tooDeep t :=
      ih fun t hfails hstops => h t (hstep.fails hpart hfails) (hstops.inner hpart)
    by_cases hdeep : ∃ part t, Consults (fun ev => Eval.step ⟨strict, true⟩ limit ev expr env)
        traced s part ∧ part.run traced = .error .tooDeep t
    · obtain ⟨part, t, hpart, hfails⟩ := hdeep
      exact .inr ⟨t, hstep.fails hpart hfails⟩
    · -- all calls that are made end alike, and the other ones do not matter
      have hsame : Eval.step ⟨strict, true⟩ limit
            (Evaluator.only (AgreesUntraced strict events limit) traced) expr env s =
          Eval.step ⟨strict, true⟩ limit traced expr env s := by
        refine hstep.congr fun part hpart => run_only_of_allowed ?_
        exact (hparts hpart).resolve_right fun ⟨t, ht⟩ => hdeep ⟨part, t, hpart, ht⟩
      show Alike events (Eval.step ⟨strict, true⟩ limit traced expr env) _ s
      unfold Alike
      rw [← hsame]
      refine alike_step abridges_only fun t v hfails => ?_
      exact h t (hsame.symm.trans hfails.step_eq) ⟨limit, _, v, .here _ _, hfails.of_only⟩

/-- With the same limit, nothing but errors of printing shows that steps are reported. -/
lemma eval_untraced (strict : Bool) (limit : Nat) (expr : Value) (env : FrameId) (s : Store) :
    eval ⟨strict, false⟩ limit expr env s =
        Effect.withEvents s.events (eval ⟨strict, true⟩ limit expr env s) ∨
      ∃ e t, eval ⟨strict, true⟩ limit expr env s = .error e t ∧ e.OfLimit ∧
        t.Precedes (Effect.final (eval ⟨strict, false⟩ limit expr env s)) := by
  have hrun := (RunPair.abridges_eval (P := RunPair.ofTracing strict s.events) (.refl limit)
    expr env).run s
  rw [RunPair.viewResult_eq_withEvents rfl] at hrun
  exact hrun

lemma error_of_ofLimit {e : Error} (h : e.OfLimit) : e = .tooDeep ∨ e = .tooManyDigits := by
  cases e with
  | tooDeep => exact .inl rfl
  | tooManyDigits => exact .inr rfl
  | _ => exact h.elim

/-- **Tracing does not change a program.**  An evaluation that is traced, and ends without finding a
number that is too long to be written, ends in the same way without being traced, with the same
output and in the same store.  If it ends because of such a number, then so it does without being
traced, or the number was in a value that was to be shown in an event; in both cases whatever it has
printed is a prefix of what is printed without being traced. -/
theorem ends_traced (strict : Bool) (expr : Value) (env : FrameId) (s : Store) :
    (∀ r, Ends ⟨strict, true⟩ expr env s r → (∀ t, r ≠ .error .tooManyDigits t) →
      Ends ⟨strict, false⟩ expr env s (Effect.withEvents s.events r)) ∧
    ∀ t r, Ends ⟨strict, true⟩ expr env s (.error .tooManyDigits t) →
      Ends ⟨strict, false⟩ expr env s r →
      t.Precedes (Effect.final r) ∧
      (r = .error .tooManyDigits (t.withEvents s.events) ∨
        ∃ limit limit' call v,
          Reaches ⟨strict, true⟩ limit ⟨expr, env, s⟩ (limit' + 1) call ∧
          Eval.FailsToReport ⟨strict, true⟩ limit' (eval ⟨strict, true⟩ limit') call .tooManyDigits
            t v ∧
          t.HasLongNumber v) := by
  constructor
  · rintro r ⟨hr, limit, hlimit⟩ hdigits
    rcases eval_untraced strict limit expr env s with heq | ⟨e, t, hstop, he, -⟩
    · refine ⟨fun t ht => ?_, limit, hlimit ▸ heq⟩
      cases r with
      | ok v s' => cases ht
      | error e s' =>
        cases ht
        exact hr s' rfl
    · rcases error_of_ofLimit he with rfl | rfl
      · exact absurd (hlimit.symm.trans hstop) (hr t)
      · exact absurd (hlimit.symm.trans hstop) (hdigits t)
  · intro t r htraced huntraced
    obtain ⟨limit, hstop, hr⟩ := htraced.exists_limit huntraced
    constructor
    · rcases eval_untraced strict limit expr env s with heq | ⟨e, t', hstop', he, hle⟩
      · rw [← hr, heq, hstop]
        exact Store.precedes_of_printed_eq rfl
      · cases hstop.symm.trans hstop'
        exact hr ▸ hle
    · by_cases hreport : StopsAtReport ⟨strict, true⟩ limit ⟨expr, env, s⟩ t
      · obtain ⟨limit', call, v, hreaches, hfails⟩ := hreport
        exact .inr ⟨limit, limit', call, v, hreaches, hfails, hfails.hasLongNumber⟩
      · have halike : Alike s.events (eval ⟨strict, true⟩ limit expr env)
            (eval ⟨strict, false⟩ limit expr env) s := alike_eval fun t' ht' => by
          cases hstop.symm.trans ht'
          exact hreport
        rcases halike with heq | ⟨t', hdeep⟩
        · left
          rw [← hr]
          exact heq.trans (congrArg _ hstop)
        · cases hstop.symm.trans hdeep

end Evaluation

/-- The expression `(begin (write 1) (not x))`. -/
def writingAndNegating : Datum :=
  .ofList [.symbol ⟨"begin"⟩, .ofList [.symbol ⟨"write"⟩, .atom (.number 1)] .nil,
    .ofList [.symbol ⟨"not"⟩, .symbol ⟨"x"⟩] .nil] .nil

/-- The store in which this expression is loaded and `x` is a number. -/
def negatingStart (n : Int) : Store :=
  (Interpreter.smallStart.load writingAndNegating).2.define 0 ⟨"x"⟩ (.number n)

lemma ends_of_error? {mode : Mode} {limit : Nat} {expr : Value} {env : FrameId} {s : Store}
    {e : Option Error} (h : Effect.error? (eval mode limit expr env s) = e)
    (hdeep : e ≠ some .tooDeep) : Ends mode expr env s (eval mode limit expr env s) := by
  refine ⟨fun t ht => hdeep ?_, limit, rfl⟩
  rw [← h, ht]
  rfl

/-- If `x` is a small number, the traced evaluation ends, and so does the other one.  If it has too
many digits, one number is written, and then `x` was to be shown as an argument of `not`. -/
theorem ends_traced_negating : ∃ expr r t r',
    Ends ⟨false, true⟩ expr 0 (negatingStart 2) r ∧
    Ends ⟨false, false⟩ expr 0 (negatingStart 2)
      (Effect.withEvents (negatingStart 2).events r) ∧
    Ends ⟨false, true⟩ expr 0 (negatingStart Numeral.decimalBound) (.error .tooManyDigits t) ∧
    Ends ⟨false, false⟩ expr 0 (negatingStart Numeral.decimalBound) r' ∧
    t.output .standard = "1\n" ∧ t.Precedes (Effect.final r') ∧
    ∃ limit call v, Eval.FailsToReport ⟨false, true⟩ limit (eval ⟨false, true⟩ limit) call
      .tooManyDigits t v := by
  set expr := (Interpreter.smallStart.load writingAndNegating).1
  have hok : Effect.error? (eval ⟨false, true⟩ 10 expr 0 (negatingStart 2)) = none := by
    decide +kernel
  have hlong : Effect.error? (eval ⟨false, true⟩ 10 expr 0 (negatingStart Numeral.decimalBound)) =
      some .tooManyDigits := by decide +kernel
  have huntraced : Effect.error?
      (eval ⟨false, false⟩ 10 expr 0 (negatingStart Numeral.decimalBound)) = none := by
    decide +kernel
  have hends := ends_of_error? hok nofun
  have hstops := ends_of_error? hlong nofun
  rw [Effect.eq_error_of_error? hlong] at hstops
  have hends' := ends_of_error? huntraced nofun
  have hsame := (ends_traced false expr 0 (negatingStart 2)).1 _ hends fun t ht => by
    rw [ht] at hok
    cases hok
  obtain ⟨hprecedes, hwhy⟩ :=
    (ends_traced false expr 0 (negatingStart Numeral.decimalBound)).2 _ _ hstops hends'
  have hreport := hwhy.resolve_left fun herror => by
    rw [herror] at huntraced
    cases huntraced
  obtain ⟨_, limit, call, v, -, hfails, -⟩ := hreport
  exact ⟨expr, _, _, _, hends, hsame, hstops, hends', by decide +kernel, hprecedes, limit, call, v,
    hfails⟩

end SmallScheme
