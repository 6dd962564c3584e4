import SmallScheme.Proofs.DerivedRules

/-!
# Evaluation keeps every discipline

The rules of evaluation are written for any way to evaluate the parts of an expression, and so are
their specifications here.  `Discipline.Obeys` says that an evaluator keeps a discipline when it is
called with an expression, and `Discipline.EnsuresBy` says of a step that uses an evaluator two
things: that it ends in a later world, and that each call with which it consults the evaluator runs
between the two worlds.

What a step does to existing cells, frames and closures has to be permitted.  Which deeds these are
depends on the store in which the step starts, and so the rules for steps that do deeds are about
one store (`Discipline.EnsuresAt`).

The main result is `ensuresAt_step`, for one step of evaluation.
-/

namespace SmallScheme

namespace Discipline

variable {D : Discipline} {α β : Type}

/-- The call is one of an expression in a frame that may be current. -/
structure Meets (D : Discipline) (w : D.World) (call : Call) : Prop where
  holds : D.Holds w call.store
  expr : D.IsExpr w call.expr
  scope : D.Scope w call.env

/-- Allowed calls that meet the discipline in a world run to an end in a later one; `Runs` relates
the two worlds. -/
structure Obeys (D : Discipline) (Allowed : Call → Prop) (Runs : D.World → Call → D.World → Prop)
    (ev : Evaluator) : Prop where
  runs : ∀ {w call}, D.Meets w call → Allowed call → ∃ w', Runs w call w'
  le : ∀ {w call w'}, Runs w call w' → D.le w w'
  outcome : ∀ {w call w'}, Runs w call w' → D.Outcome w' D.IsData (call.run ev)

/-- The call runs between the two worlds. -/
def RunsBetween (D : Discipline) (Runs : D.World → Call → D.World → Prop) (w : D.World)
    (call : Call) (w' : D.World) : Prop :=
  ∃ w₁ w₂, D.le w w₁ ∧ Runs w₁ call w₂ ∧ D.le w₂ w'

/-- If all calls are allowed that the step makes from the given store, it ends in a later world, and
these calls run between the two worlds. -/
def EnsuresAt (D : Discipline) (Allowed : Call → Prop) (Runs : D.World → Call → D.World → Prop)
    (ev : Evaluator) (w : D.World) (s : Store) (x : Evaluator → Effect α)
    (Q : D.World → α → Prop) : Prop :=
  D.Holds w s → (∀ call, Consults x ev s call → Allowed call) →
    ∃ w', D.le w w' ∧ D.Outcome w' Q (x ev s) ∧
      ∀ call, Consults x ev s call ∧ D.RunsBetween Runs w call w' ∨ Ignores x ev s call

/-- The same from every store of the world. -/
def EnsuresBy (D : Discipline) (Allowed : Call → Prop) (Runs : D.World → Call → D.World → Prop)
    (ev : Evaluator) (w : D.World) (x : Evaluator → Effect α) (Q : D.World → α → Prop) : Prop :=
  ∀ s, D.EnsuresAt Allowed Runs ev w s x Q

section Rules

variable {Allowed : Call → Prop} {Runs : D.World → Call → D.World → Prop} {ev : Evaluator}
  {w : D.World} {s : Store} {x : Effect α} {y : Evaluator → Effect α}
  {f : α → Evaluator → Effect β} {P : D.World → α → Prop} {Q : D.World → β → Prop}

/-! ## Rules -/

lemma RunsBetween.mono {w₁ w₂ w' : D.World} {call : Call} (h : D.RunsBetween Runs w₁ call w₂)
    (hle : D.le w w₁) (hle' : D.le w₂ w') : D.RunsBetween Runs w call w' := by
  obtain ⟨w₃, w₄, h₃, hruns, h₄⟩ := h
  exact ⟨w₃, w₄, D.le_trans hle h₃, hruns, D.le_trans h₄ hle'⟩

/-- A step that uses no evaluator, from one store. -/
lemma ensuresAt_of_outcome (h : D.Holds w s → ∃ w', D.le w w' ∧ D.Outcome w' P (x s)) :
    D.EnsuresAt Allowed Runs ev w s (fun _ => x) P := by
  intro hs _
  obtain ⟨w', hle, hout⟩ := h hs
  exact ⟨w', hle, hout, fun call => .inr (ignores_const x)⟩

/-- A step that uses no evaluator. -/
lemma Ensures.by_any (h : D.Ensures w x P) : D.EnsuresBy Allowed Runs ev w (fun _ => x) P :=
  fun s => ensuresAt_of_outcome (h s)

lemma EnsuresAt.bind (hy : D.EnsuresAt Allowed Runs ev w s y P)
    (hf : ∀ w' a s', y ev s = .ok a s' → D.le w w' → P w' a →
      D.EnsuresAt Allowed Runs ev w' s' (f a) Q) :
    D.EnsuresAt Allowed Runs ev w s (fun ev => y ev >>= fun a => f a ev) Q := by
  intro hs hallowed
  obtain ⟨w₁, hle₁, hout₁, hcalls₁⟩ := hy hs fun call h => hallowed call h.bind_left
  cases hr : y ev s with
  | error e s₁ =>
    rw [hr] at hout₁
    refine ⟨w₁, hle₁, ?_, fun call => ?_⟩
    · show D.Outcome w₁ Q ((y ev >>= fun a => f a ev) s)
      rw [Effect.bind_error hr]
      exact hout₁
    · exact (hcalls₁ call).imp (fun h => ⟨h.1.bind_left, h.2⟩) fun h => h.bind_error hr
  | ok a s₁ =>
    rw [hr] at hout₁
    have hallowed₁ : ∀ call, Consults (f a) ev s₁ call → Allowed call := fun call h =>
      (hcalls₁ call).elim (fun h₁ => hallowed call h₁.1.bind_left) fun h₁ =>
        hallowed call (h.bind_right h₁ hr)
    obtain ⟨w₂, hle₂, hout₂, hcalls₂⟩ := hf w₁ a s₁ hr hle₁ hout₁.2 hout₁.1 hallowed₁
    refine ⟨w₂, D.le_trans hle₁ hle₂, ?_, fun call => ?_⟩
    · show D.Outcome w₂ Q ((y ev >>= fun a => f a ev) s)
      rw [Effect.bind_ok hr]
      exact hout₂
    · -- the calls of the two steps are in the two halves of the way from `w` to `w₂`
      rcases hcalls₁ call with ⟨h₁, hruns⟩ | h₁
      · exact .inl ⟨h₁.bind_left, hruns.mono (D.le_refl w) hle₂⟩
      · rcases hcalls₂ call with ⟨h₂, hruns⟩ | h₂
        · exact .inl ⟨h₂.bind_right h₁ hr, hruns.mono hle₁ (D.le_refl w₂)⟩
        · exact .inr (h₁.bind_ok hr h₂)

lemma EnsuresBy.bind (hy : D.EnsuresBy Allowed Runs ev w y P)
    (hf : ∀ w' a, D.le w w' → P w' a → D.EnsuresBy Allowed Runs ev w' (f a) Q) :
    D.EnsuresBy Allowed Runs ev w (fun ev => y ev >>= fun a => f a ev) Q :=
  fun s => (hy s).bind fun w' a s' _ hle ha => hf w' a hle ha s'

/-- A step that uses no evaluator comes first. -/
lemma Ensures.bind_by (hx : D.Ensures w x P)
    (hf : ∀ w' a, D.le w w' → P w' a → D.EnsuresBy Allowed Runs ev w' (f a) Q) :
    D.EnsuresBy Allowed Runs ev w (fun ev => x >>= fun a => f a ev) Q :=
  EnsuresBy.bind hx.by_any hf

lemma EnsuresBy.discard (h : D.EnsuresBy Allowed Runs ev w y P) :
    D.EnsuresBy Allowed Runs ev w (fun ev => discard (y ev)) fun _ _ => True :=
  h.bind fun _ _ _ _ => (ensures_pure trivial).by_any

/-- A call of the evaluator. -/
lemma ensuresBy_call {expr : Value} {env : FrameId} (hev : D.Obeys Allowed Runs ev)
    (hexpr : D.IsExpr w expr) (henv : D.Scope w env) :
    D.EnsuresBy Allowed Runs ev w (fun ev => ev expr env) D.IsData := by
  intro s hs hallowed
  have hmeets : D.Meets w ⟨expr, env, s⟩ := ⟨hs, hexpr, henv⟩
  obtain ⟨w', hruns⟩ := hev.runs hmeets (hallowed _ fun e => if_pos rfl)
  refine ⟨w', hev.le hruns, hev.outcome hruns, fun call => ?_⟩
  rcases consults_or_ignores_call expr env ev s call with ⟨rfl, hconsults⟩ | hignores
  · exact .inl ⟨hconsults, w, w', D.le_refl w, hruns, D.le_refl w'⟩
  · exact .inr hignores

end Rules

/-! ## Events and names -/

section Names

variable {w : D.World} {mode : Mode} {limit : Nat} {expr proc v : Value} {args : List Value}
  {x : Symbol} {env : FrameId}

lemma ensures_reportEval : D.Ensures w (mode.reportEval limit expr) fun _ _ => True := by
  unfold Mode.reportEval
  split
  · exact Ensures.bind ensures_shown fun _ _ _ _ => ensures_modify fun _ hs => D.report hs
  · exact ensures_pure trivial

lemma ensures_reportApply : D.Ensures w (mode.reportApply limit proc args) fun _ _ => True := by
  unfold Mode.reportApply
  split
  · refine Ensures.bind ensures_shown fun w₁ _ _ _ => ?_
    have hargs : D.Ensures w₁ (args.mapM (Effect.shown limit)) fun _ texts => ∀ t ∈ texts, True :=
      ensures_mapM (fun _ h => h) fun _ _ _ _ => ensures_shown
    exact Ensures.bind hargs fun _ _ _ _ => ensures_modify fun _ hs => D.report hs
  · exact ensures_pure trivial

lemma ensures_readName (henv : D.Scope w env) :
    D.Ensures w (Eval.readName mode x env) D.IsData := by
  refine Ensures.bind ensures_get fun w₁ s hle hs => ?_
  split
  · rename_i v hlookup
    exact ensures_pure (good_of_lookup? hs (D.scope_mono hle henv) hlookup)
  · split
    · exact ensures_throw (D.fails_ordinary trivial)
    · exact ensures_atom

/-- The binding that an assignment changes is found in the present store. -/
lemma exists_assignName {s : Store} (hs : D.Holds w s) (hv : D.IsData w v) (henv : D.Scope w env)
    (hdeed : ∀ f, s.find? env x = some f → D.Permits (.bind f x v)) :
    ∃ w', D.le w w' ∧ D.Outcome w' (fun _ _ => True) (Eval.assignName x v env s) := by
  cases hassign : s.assign? env x v with
  | none =>
    refine ⟨w, D.le_refl w, ?_⟩
    rw [Eval.assignName, Effect.get_bind, hassign]
    exact ⟨hs, D.fails_ordinary trivial⟩
  | some s' =>
    obtain ⟨w', hle, hs'⟩ := exists_assign? hs henv hv hdeed hassign
    refine ⟨w', hle, ?_⟩
    rw [Eval.assignName, Effect.get_bind, hassign]
    exact ⟨hs', trivial⟩

lemma ensures_unknownForm {P : D.World → α → Prop} (reason : String → UnknownForm) :
    D.Ensures w (do throw (.unknownForm (reason (← Effect.shown limit v))) : Effect α) P :=
  Ensures.bind ensures_shown fun _ _ _ _ => ensures_throw (D.fails_ordinary trivial)

end Names

/-! ## Operands, sequences and application -/

section Application

variable {Allowed : Call → Prop} {Runs : D.World → Call → D.World → Prop} {ev : Evaluator}
  {w : D.World} {mode : Mode} {limit : Nat} {env : FrameId} {v : Value} {vs : List Value}

lemma ensuresBy_operands (hev : D.Obeys Allowed Runs ev) (hvs : ∀ v ∈ vs, D.IsExpr w v)
    (henv : D.Scope w env) :
    D.EnsuresBy Allowed Runs ev w (fun ev => Eval.operands ev env vs) fun w' args =>
      ∀ v ∈ args, D.IsData w' v := by
  induction vs generalizing w with
  | nil => exact (ensures_pure (by simp)).by_any
  | cons v vs ih =>
    refine (ensuresBy_call hev (hvs v (by simp)) henv).bind fun w₁ v' hle₁ hv' => ?_
    have hrest := ih (fun v hv => D.good_mono hle₁ (hvs v (by simp [hv]))) (D.scope_mono hle₁ henv)
    refine hrest.bind fun w₂ args hle₂ hargs => (ensures_pure ?_).by_any
    exact List.forall_mem_cons.mpr ⟨D.good_mono hle₂ hv', hargs⟩

lemma ensuresBy_sequence (hev : D.Obeys Allowed Runs ev) (hvs : ∀ v ∈ vs, D.IsExpr w v)
    (henv : D.Scope w env) :
    D.EnsuresBy Allowed Runs ev w (fun ev => Eval.sequence ev env vs) D.IsData := by
  induction vs generalizing w with
  | nil => exact ensures_malformed.by_any
  | cons v vs ih =>
    have hfirst := ensuresBy_call hev (hvs v (by simp)) henv
    cases vs with
    | nil => exact hfirst
    | cons v' vs =>
      refine hfirst.discard.bind fun w₁ _ hle _ => ih (fun v hv => ?_) (D.scope_mono hle henv)
      exact D.good_mono hle (hvs v (List.mem_cons_of_mem _ hv))

lemma ensures_enter {closure : Closure} (henv : D.Scope w closure.env)
    (hvs : ∀ v ∈ vs, D.IsData w v) : D.Ensures w (Eval.enter closure vs) D.Scope := by
  unfold Eval.enter
  split
  · exact ensures_throw (D.fails_ordinary trivial)
  · refine ensures_modifyGet fun s hs => D.addFrame hs henv fun b hb => ?_
    exact hvs b.2 (List.of_mem_zip hb).2

/-- The body of a closure is evaluated in a new frame. -/
lemma ensuresBy_closure {k : ClosureId} (hev : D.Obeys Allowed Runs ev)
    (hk : D.IsData w (.closure k)) (hvs : ∀ v ∈ vs, D.IsData w v) :
    D.EnsuresBy Allowed Runs ev w
      (fun ev => do
        let closure := (← get).closure k
        let env ← Eval.enter closure vs
        Eval.sequence ev env closure.body) D.IsData := by
  refine Ensures.bind_by ensures_get fun w₁ s hle₁ hs => ?_
  have hk₁ := D.good_mono hle₁ hk
  have hargs : ∀ v ∈ vs, D.IsData w₁ v := fun v hv => D.good_mono hle₁ (hvs v hv)
  refine Ensures.bind_by (ensures_enter (D.scope_env hs hk₁) hargs) fun w₂ env hle₂ henv => ?_
  exact ensuresBy_sequence hev (fun form hform => D.good_mono hle₂ (D.good_body hs hk₁ hform)) henv

lemma ensuresAt_apply {s : Store} (hev : D.Obeys Allowed Runs ev) (hv : D.IsData w v)
    (hvs : ∀ v ∈ vs, D.IsData w v)
    (hdeed : ∀ s' d, mode.reportApply limit v vs s = .ok () s' → v.deed? vs = some d →
      D.Permits d) :
    D.EnsuresAt Allowed Runs ev w s (fun ev => Eval.apply mode limit ev v vs) D.IsData := by
  unfold Eval.apply
  refine (ensures_reportApply.by_any s).bind fun w₁ _ s₁ hreport hle _ => ?_
  have hv₁ := D.good_mono hle hv
  have hvs₁ : ∀ v ∈ vs, D.IsData w₁ v := fun v hv => D.good_mono hle (hvs v hv)
  cases v with
  | builtin b => exact (ensures_builtin hv₁ hvs₁ fun d => hdeed s₁ d hreport).by_any s₁
  | closure k => exact ensuresBy_closure hev hv₁ hvs₁ s₁
  | _ => exact (ensures_unknownForm .notProcedure).by_any s₁

/-- The operands are found in the store that the operator has left. -/
lemma ensuresBy_parts {c : CellId} (hev : D.Obeys Allowed Runs ev)
    (hc : D.Good w (.form none) (.pair c)) (henv : D.Scope w env) :
    D.EnsuresBy Allowed Runs ev w (fun ev => Eval.parts limit ev c env) fun w' found =>
      D.IsData w' found.1 ∧ ∀ v ∈ found.2, D.IsData w' v := by
  unfold Eval.parts
  refine Ensures.bind_by ensures_get fun w₁ s hle₁ hs => ?_
  cases s.isList (.pair c) with
  | false =>
    refine Ensures.bind_by ensures_shown fun w₂ _ _ _ => ?_
    have hthrow {e : Error} (he : e.Ordinary) :
        D.Ensures w₂ (throw e : Effect PUnit) fun _ _ => False :=
      ensures_throw (D.fails_ordinary he)
    exact Ensures.bind_by (hthrow trivial) fun _ _ _ h => h.elim
  | true =>
    have hc₁ := D.good_mono hle₁ hc
    -- the cell is looked at twice, before and after the call for the operator
    refine Ensures.bind_by ensures_get fun w₂ s₂ hle₂ hs₂ => ?_
    have hc₂ := D.good_mono hle₂ hc₁
    have henv₂ := D.scope_mono (D.le_trans hle₁ hle₂) henv
    have hcar := D.good_car hs₂ hc₂ (by simp)
    refine (ensuresBy_call hev hcar henv₂).bind fun w₃ proc hle₃ hproc => ?_
    refine Ensures.bind_by ensures_get fun w₄ s₄ hle₄ hs₄ => ?_
    have hle := D.le_trans hle₃ hle₄
    have hcdr := D.good_cdr hs₄ (D.good_mono hle hc₂) (by simp)
    have hargs := goodMembers_listOf.mp (goodMembers_members hs₄ hcdr)
    refine (ensuresBy_operands hev hargs (D.scope_mono hle henv₂)).bind fun w₅ args hle₅ hvs => ?_
    exact (ensures_pure ⟨D.good_mono (D.le_trans hle₄ hle₅) hproc, hvs⟩).by_any

/-- What the application does depends on what its parts are. -/
lemma ensuresAt_application {c : CellId} {s : Store} (hev : D.Obeys Allowed Runs ev)
    (hc : D.Good w (.form none) (.pair c)) (henv : D.Scope w env)
    (hdeeds : ∀ {proc args s₁ s₂ d}, Eval.parts limit ev c env s = .ok (proc, args) s₁ →
      mode.reportApply limit proc args s₁ = .ok () s₂ → proc.deed? args = some d →
      D.Permits d) :
    D.EnsuresAt Allowed Runs ev w s (fun ev => Eval.application mode limit ev c env) D.IsData := by
  simp only [Eval.application_eq]
  refine (ensuresBy_parts hev hc henv s).bind fun w₁ found s₁ hrun hle hfound => ?_
  exact ensuresAt_apply hev hfound.1 hfound.2 fun _ _ => hdeeds hrun

end Application

/-! ## Special forms -/

section Forms

variable {Allowed : Call → Prop} {Runs : D.World → Call → D.World → Prop} {ev : Evaluator}
  {w : D.World} {limit : Nat} {env : FrameId} {v : Value} {vs : List Value}

lemma ensuresAt_assign {s : Store} (hev : D.Obeys Allowed Runs ev)
    (hvs : ∀ v ∈ vs, D.IsExpr w v) (henv : D.Scope w env)
    (hdeeds : ∀ d, Eval.FormPerforms limit ev vs env s .assign d → D.Permits d) :
    D.EnsuresAt Allowed Runs ev w s (fun ev => Eval.assign limit ev vs env) D.IsData := by
  unfold Eval.assign
  rcases vs with _ | ⟨target, _ | ⟨expr, _ | ⟨other, vs⟩⟩⟩
  · exact ensures_malformed.by_any s
  · rcases target with (_ | _ | _ | x | _) | _ | _ | _ | _
    all_goals exact ensures_malformed.by_any s
  · have hrefuse : D.Ensures w
        (do Effect.malformed (.assignTarget (← Effect.ask fun s => s.display limit target)))
        D.IsData := Ensures.bind ensures_display fun _ _ _ _ => ensures_malformed
    rcases target with (_ | _ | _ | x | _) | _ | _ | _ | _
    case atom.symbol =>
      refine (ensuresBy_call hev (hvs expr (by simp)) henv s).bind fun w₁ v s₁ hrun hle hv => ?_
      have hdeed (f : FrameId) (hf : s₁.find? env x = some f) : D.Permits (.bind f x v) :=
        hdeeds _ (.assign ⟨expr, s₁, rfl, hrun, hf⟩)
      have hassign : D.EnsuresAt Allowed Runs ev w₁ s₁ (fun _ => Eval.assignName x v env)
          fun _ _ => True :=
        ensuresAt_of_outcome fun hs => exists_assignName hs hv (D.scope_mono hle henv) hdeed
      exact hassign.bind fun _ _ s₂ _ _ _ => ensures_atom.by_any s₂
    all_goals exact hrefuse.by_any s
  · rcases target with (_ | _ | _ | x | _) | _ | _ | _ | _
    all_goals exact ensures_malformed.by_any s

lemma ensuresAt_define {s : Store} (hev : D.Obeys Allowed Runs ev)
    (hvs : D.GoodMembers w (.headed .exprs) vs) (henv : D.Scope w env)
    (hdeeds : ∀ d, Eval.FormPerforms limit ev vs env s .define d → D.Permits d) :
    D.EnsuresAt Allowed Runs ev w s (fun ev => Eval.define limit ev vs env) D.IsData := by
  unfold Eval.define
  refine ((ensures_definition hvs).by_any s).bind fun w₁ definition s₁ hrun₁ hle₁ hexpr => ?_
  obtain ⟨x, expr⟩ := definition
  have hcall := ensuresBy_call hev hexpr (D.scope_mono hle₁ henv) s₁
  refine hcall.bind fun w₂ v s₂ hrun₂ hle₂ hv => ?_
  have hdefines : Eval.Defines limit ev vs env s x v := ⟨expr, s₁, s₂, hrun₁, hrun₂⟩
  refine Ensures.by_any ?_ s₂
  have hbind {w₃ : D.World} (hle₃ : D.le w₂ w₃) :
      D.Ensures w₃ (do modify fun s => s.define env x v; return .nil) D.IsData := by
    have henv₃ := D.scope_mono (D.le_trans hle₁ (D.le_trans hle₂ hle₃)) henv
    have hdefine := ensures_modify fun s (hs : D.Holds w₃ s) =>
      D.define hs henv₃ (D.good_mono hle₃ hv) (hdeeds _ (.define hdefines))
    exact Ensures.bind hdefine fun _ _ _ _ => ensures_atom
  dsimp only
  split
  · rename_i k
    have hname := ensures_modify fun s (hs : D.Holds w₂ s) =>
      D.nameClosure hs hv (hdeeds _ (.name hdefines))
    exact Ensures.bind hname fun _ _ hle₃ _ => hbind hle₃
  · exact hbind (D.le_refl w₂)

lemma ensuresBy_choice (hev : D.Obeys Allowed Runs ev) (hvs : ∀ v ∈ vs, D.IsExpr w v)
    (henv : D.Scope w env) :
    D.EnsuresBy Allowed Runs ev w (fun ev => Eval.choice ev vs env) D.IsData := by
  unfold Eval.choice
  rcases vs with _ | ⟨test, _ | ⟨consequent, _ | ⟨alternative, _ | ⟨other, vs⟩⟩⟩⟩
  · exact ensures_malformed.by_any
  · exact ensures_malformed.by_any
  · refine (ensuresBy_call hev (hvs test (by simp)) henv).bind fun w₁ v hle _ => ?_
    cases v == .bool false with
    | true => exact ensures_atom.by_any
    | false =>
      exact ensuresBy_call hev (D.good_mono hle (hvs consequent (by simp))) (D.scope_mono hle henv)
  · refine (ensuresBy_call hev (hvs test (by simp)) henv).bind fun w₁ v hle _ => ?_
    cases v == .bool false with
    | true =>
      exact ensuresBy_call hev (D.good_mono hle (hvs alternative (by simp))) (D.scope_mono hle henv)
    | false =>
      exact ensuresBy_call hev (D.good_mono hle (hvs consequent (by simp))) (D.scope_mono hle henv)
  · exact ensures_malformed.by_any

lemma ensures_parameters : D.Ensures w (Eval.parameters limit vs) fun _ _ => True := by
  induction vs with
  | nil => exact ensures_pure trivial
  | cons v vs ih =>
    rcases v with (_ | _ | _ | x | _) | _ | _ | _ | _
    case atom.symbol => exact Ensures.bind ih fun _ _ _ _ => ensures_pure trivial
    all_goals exact ensures_malformedBy

lemma ensures_lambda (hvs : D.GoodMembers w (.headed .exprs) vs) (henv : D.Scope w env) :
    D.Ensures w (Eval.lambda limit vs env) D.IsData := by
  unfold Eval.lambda
  split
  · exact ensures_malformed
  · rename_i params body
    refine Ensures.bind ensures_get fun w₁ s hle₁ hs => ?_
    split
    · exact ensures_malformedBy
    · refine Ensures.bind ensures_parameters fun w₂ names hle₂ _ => ?_
      have hle := D.le_trans hle₁ hle₂
      dsimp only
      split
      · exact ensures_malformed_bind
      · rename_i hbody
        exact ensures_modifyGet fun s hs => D.addClosure hs (D.scope_mono hle henv)
          (isExpr_mono (goodMembers_listOf.mp hvs.2) hle) (by simpa using hbody) rfl

lemma ensuresAt_special {s : Store} {form : SpecialForm} (hev : D.Obeys Allowed Runs ev)
    (hvs : D.GoodMembers w (Role.operands (some form)) vs) (henv : D.Scope w env)
    (hdeeds : ∀ d, Eval.FormPerforms limit ev vs env s form d → D.Permits d) :
    D.EnsuresAt Allowed Runs ev w s (fun ev => Eval.special limit ev form vs env) D.IsData := by
  unfold Eval.special
  cases form with
  | quote =>
    rcases vs with _ | ⟨v, _ | ⟨v', vs⟩⟩
    · exact ensures_malformed.by_any s
    · exact (ensures_pure hvs.1).by_any s
    · exact ensures_malformed.by_any s
  | assign => exact ensuresAt_assign hev (goodMembers_listOf.mp hvs) henv hdeeds
  | define => exact ensuresAt_define hev hvs henv hdeeds
  | choice => exact ensuresBy_choice hev (goodMembers_listOf.mp hvs) henv s
  | cond =>
    have hcond : D.EnsuresBy Allowed Runs ev w
        (fun ev => Derived.cond limit vs >>= fun expr => ev expr env) D.IsData :=
      Ensures.bind_by (ensures_cond (goodMembers_listOf.mp hvs)) fun w₁ expr hle hexpr =>
        ensuresBy_call hev hexpr (D.scope_mono hle henv)
    exact hcond s
  | letIn =>
    cases vs with
    | nil => exact ensures_malformed.by_any s
    | cons bindings body =>
      have hlet : D.EnsuresBy Allowed Runs ev w
          (fun ev => Derived.letIn limit bindings body >>= fun expr => ev expr env) D.IsData :=
        Ensures.bind_by (ensures_letIn hvs.1 (goodMembers_listOf.mp hvs.2)) fun w₁ expr hle hexpr =>
          ensuresBy_call hev hexpr (D.scope_mono hle henv)
      exact hlet s
  | lambda => exact (ensures_lambda hvs henv).by_any s
  | sequence => exact ensuresBy_sequence hev (goodMembers_listOf.mp hvs) henv s

end Forms

/-! ## All expressions -/

section Expressions

variable {Allowed : Call → Prop} {Runs : D.World → Call → D.World → Prop} {ev : Evaluator}
  {w : D.World} {mode : Mode} {limit : Nat} {env : FrameId} {v : Value}

/-- The operands of a form are found together with its keyword. -/
lemma goodMembers_tail {s : Store} {c : CellId} {r : Role} {members : List Value}
    (hs : D.Holds w s) (hc : D.Good w r (.pair c)) (hr : r ≠ .expr)
    (h : s.list? (.pair c) = some members) : D.GoodMembers w r.rest members.tail := by
  have hmembers := goodMembers_of_list? hs hc h
  cases members with
  | nil => trivial
  | cons v vs =>
    have hrest := hmembers.2
    rwa [r.refine_of_ne hr] at hrest

lemma ensuresAt_combination {s : Store} {c : CellId} (hev : D.Obeys Allowed Runs ev)
    (hc : D.IsExpr w (.pair c)) (henv : D.Scope w env)
    (hdeeds : ∀ d, Eval.CellPerforms mode limit ev c env s d → D.Permits d) :
    D.EnsuresAt Allowed Runs ev w s (fun ev => Eval.combination mode limit ev c env) D.IsData := by
  unfold Eval.combination
  refine (ensures_get.by_any s).bind fun w₁ found s₁ hget hle hs => ?_
  obtain ⟨rfl, rfl⟩ : found = s ∧ s₁ = s := by
    cases hget
    exact ⟨rfl, rfl⟩
  -- what the first part is settles which role the cell has
  have hform := D.good_refine hs (D.good_mono hle hc)
  rw [Role.refine_expr] at hform
  have henv₁ := D.scope_mono hle henv
  cases hkeyword : Eval.keyword? (s₁.cell c).car with
  | none =>
    rw [hkeyword] at hform
    exact ensuresAt_application hev hform henv₁ fun hparts hreport hd =>
      hdeeds _ (.apply hkeyword hparts hreport hd)
  | some form =>
    rw [hkeyword] at hform
    cases hlist : s₁.list? (.pair c) with
    | none => exact ensures_malformedBy.by_any s₁
    | some members =>
      exact ensuresAt_special hev (goodMembers_tail hs hform (by simp) hlist) henv₁ fun d hd =>
        hdeeds d (.form hkeyword hlist hd)

/-- **One step of evaluation** keeps the discipline and calls the evaluator for expressions, if what
it does itself is permitted. -/
theorem ensuresAt_step {s : Store} (hev : D.Obeys Allowed Runs ev) (hv : D.IsExpr w v)
    (henv : D.Scope w env)
    (hdeeds : ∀ d, Eval.Performs mode limit ev ⟨v, env, s⟩ d → D.Permits d) :
    D.EnsuresAt Allowed Runs ev w s (fun ev => Eval.step mode limit ev v env) D.IsData := by
  unfold Eval.step
  refine (ensures_reportEval.by_any s).bind fun w₁ _ s₁ hreport hle _ => ?_
  have henv₁ := D.scope_mono hle henv
  rcases v with (_ | _ | _ | x | _) | c | _ | _ | _
  case atom.bool | atom.number | atom.text => exact ensures_atom.by_any s₁
  case atom.symbol => exact (ensures_readName henv₁).by_any s₁
  case pair =>
    exact ensuresAt_combination hev (D.good_mono hle hv) henv₁ fun d hd =>
      hdeeds d ⟨c, s₁, rfl, hreport, hd⟩
  all_goals exact (ensures_unknownForm .notExpression).by_any s₁

end Expressions

end Discipline

end SmallScheme
