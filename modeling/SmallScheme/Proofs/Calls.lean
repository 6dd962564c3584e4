import SmallScheme.Proofs.EvalRules

/-!
# The calls of an evaluation

To evaluate an expression, the evaluator is called for its parts, one level deeper, and these calls
make calls in turn.  `Reaches` collects the calls of all levels, and `Does` what they do.

The main results are about a discipline that permits whatever an evaluation does: every call of an
evaluation that meets the discipline meets it as well, in a world between those of the whole
evaluation (`exists_runsEval`), and the value is data (`ensures_eval`).
-/

namespace SmallScheme

/-- The calls of an evaluation, each with the limit that is left for it, the evaluation itself
included. -/
inductive Reaches (mode : Mode) : Nat → Call → Nat → Call → Prop
  | here (limit : Nat) (call : Call) : Reaches mode limit call limit call
  | inner {limit limit' : Nat} {call part call' : Call} :
      Consults (fun ev => Eval.step mode limit ev call.expr call.env) (eval mode limit) call.store
        part →
      Reaches mode limit part limit' call' → Reaches mode (limit + 1) call limit' call'

/-- One of the calls of an evaluation does the deed. -/
def Does (mode : Mode) (limit : Nat) (call : Call) (d : Deed) : Prop :=
  ∃ limit' call', Reaches mode limit call (limit' + 1) call' ∧
    Eval.Performs mode limit' (eval mode limit') call' d

/-- What a part of an evaluation does is done by the evaluation. -/
lemma Does.inner {mode : Mode} {limit : Nat} {call part : Call} {d : Deed}
    (hpart : Consults (fun ev => Eval.step mode limit ev call.expr call.env) (eval mode limit)
      call.store part)
    (h : Does mode limit part d) : Does mode (limit + 1) call d := by
  obtain ⟨limit', call', hreaches, hperforms⟩ := h
  exact ⟨limit', call', .inner hpart hreaches, hperforms⟩

namespace Discipline

variable {D : Discipline} {α : Type} {mode : Mode} {limit : Nat} {w w' : D.World} {call : Call}

lemma Outcome.holds {P : D.World → α → Prop} {r : EStateM.Result Error Store α}
    (h : D.Outcome w P r) : D.Holds w (Effect.final r) := by
  cases r with
  | ok a s => exact h.1
  | error e s => exact h.1

/-- The call is allowed in a world from `w` on, and its end is in a world up to `w'`. -/
def RunsWithin (D : Discipline) (mode : Mode) (limit : Nat) (w : D.World) (call : Call)
    (w' : D.World) : Prop :=
  ∃ w₁ w₂, D.le w w₁ ∧ D.Meets w₁ call ∧ D.le w₁ w₂ ∧
    D.Outcome w₂ D.IsData (call.run (eval mode limit)) ∧ D.le w₂ w'

lemma RunsWithin.mono {w₁ w₂ : D.World} (h : D.RunsWithin mode limit w₁ call w₂)
    (hle : D.le w w₁) (hle' : D.le w₂ w') : D.RunsWithin mode limit w call w' := by
  obtain ⟨w₃, w₄, hle₃, hmeets, hrun, hout, hle₄⟩ := h
  exact ⟨w₃, w₄, D.le_trans hle hle₃, hmeets, hrun, hout, D.le_trans hle₄ hle'⟩

/-- The call runs between the two worlds, and so do all calls that it makes. -/
structure RunsEval (D : Discipline) (mode : Mode) (limit : Nat) (w : D.World) (call : Call)
    (w' : D.World) : Prop where
  le : D.le w w'
  outcome : D.Outcome w' D.IsData (call.run (eval mode limit))
  reaches : ∀ limit' call', Reaches mode limit call limit' call' →
    D.RunsWithin mode limit' w call' w'

/-- What a step calls between two worlds makes its own calls between them. -/
lemma runsWithin_of_reaches {x : Evaluator → Effect α} {ev : Evaluator} {s : Store}
    {limit' : Nat} {part : Call}
    (hcalls : ∀ call, Consults x ev s call ∧ D.RunsBetween (D.RunsEval mode limit) w call w' ∨
      Ignores x ev s call)
    (hpart : Consults x ev s part) (h : Reaches mode limit part limit' call) :
    D.RunsWithin mode limit' w call w' := by
  rcases hcalls part with ⟨-, w₁, w₂, hle₁, hruns, hle₂⟩ | hignores
  · exact (hruns.reaches limit' call h).mono hle₁ hle₂
  · exact absurd hignores hpart.not_ignores

/-- **Every call of an evaluation keeps the discipline**, if it permits what is done. -/
theorem exists_runsEval (hmeets : D.Meets w call)
    (hdeeds : ∀ d, Does mode limit call d → D.Permits d) :
    ∃ w', D.RunsEval mode limit w call w' := by
  induction limit generalizing w call with
  | zero =>
    have hout : D.Outcome w D.IsData (call.run (eval mode 0)) :=
      ⟨hmeets.holds, D.fails_ordinary trivial⟩
    refine ⟨w, D.le_refl w, hout, fun limit' call' h => ?_⟩
    cases h
    exact ⟨w, w, D.le_refl w, hmeets, D.le_refl w, hout, D.le_refl w⟩
  | succ limit ih =>
    -- the calls that are allowed are those that this step makes
    have hev : D.Obeys
        (Consults (fun ev => Eval.step mode limit ev call.expr call.env) (eval mode limit)
          call.store)
        (D.RunsEval mode limit) (eval mode limit) :=
      ⟨fun hpart hconsults => ih hpart fun d hd => hdeeds d (hd.inner hconsults),
        fun h => h.le, fun h => h.outcome⟩
    have hstep := ensuresAt_step hev hmeets.expr hmeets.scope fun d hd =>
      hdeeds d ⟨limit, call, .here _ call, hd⟩
    obtain ⟨w', hle, hout, hcalls⟩ := hstep hmeets.holds fun _ h => h
    refine ⟨w', hle, hout, fun limit' call' h => ?_⟩
    cases h with
    | here => exact ⟨w, w', D.le_refl w, hmeets, hle, hout, D.le_refl w'⟩
    | inner hpart hinner => exact runsWithin_of_reaches hcalls hpart hinner

/-- The evaluator keeps every discipline that permits all deeds. -/
theorem obeys_eval (hpermits : ∀ d, D.Permits d) (mode : Mode) (limit : Nat) :
    D.Obeys (fun _ => True) (D.RunsEval mode limit) (eval mode limit) :=
  ⟨fun hmeets _ => exists_runsEval hmeets fun d _ => hpermits d, fun h => h.le, fun h => h.outcome⟩

/-- **Evaluation keeps every discipline** that permits all deeds: the value of an expression is
data. -/
theorem ensures_eval {expr : Value} {env : FrameId} (hpermits : ∀ d, D.Permits d) (mode : Mode)
    (limit : Nat) (hexpr : D.IsExpr w expr) (henv : D.Scope w env) :
    D.Ensures w (eval mode limit expr env) D.IsData := by
  intro s hs
  have hmeets : D.Meets w ⟨expr, env, s⟩ := ⟨hs, hexpr, henv⟩
  obtain ⟨w', hruns⟩ := exists_runsEval hmeets fun d (_ : Does mode limit _ d) => hpermits d
  exact ⟨w', hruns.le, hruns.outcome⟩

end Discipline

end SmallScheme
