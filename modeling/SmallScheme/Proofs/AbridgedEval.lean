import SmallScheme.Proofs.AbridgedPrimitives
import SmallScheme.Proofs.Deed

/-!
# Evaluation and its abridgements

Each rule of the language is abridged by itself, run in another way: the expansion of derived forms,
and the rules of evaluation, these for any evaluators of which the first one abridges the second one.
What differs between two runs shows in three places only: where a name is read that is not bound,
where a step is reported, and where something is nested too deeply.

The main result is `abridges_eval`.
-/

namespace SmallScheme

namespace RunPair

variable {P : RunPair} {limit limit' : Nat}

/-! ## Derived forms -/

section Derived

lemma abridges_newList (vs : List Value) :
    P.Abridges (Derived.newList vs) (Derived.newList vs) :=
  abridges_list vs

lemma abridges_sequenceForm (vs : List Value) :
    P.Abridges (Derived.sequence vs) (Derived.sequence vs) := by
  unfold Derived.sequence
  split
  · exact abridges_pure _
  · exact abridges_newList _

lemma abridges_lambdaForm (params : Value) (body : List Value) :
    P.Abridges (Derived.lambda params body) (Derived.lambda params body) := by
  refine (abridges_newList body).bind fun body => ?_
  exact (abridges_cons params body).bind fun operands => abridges_cons _ operands

lemma abridges_clause (hlimits : Limits P.Stops limit limit') (v : Value) :
    P.Abridges (Derived.clause limit v) (Derived.clause limit' v) := by
  refine abridges_get_bind fun s s' hsame => ?_
  rw [hsame.list?_eq]
  split
  · exact abridges_pure _
  · exact abridges_malformedBy hlimits _ v

lemma abridges_clauses (hlimits : Limits P.Stops limit limit') (vs : List Value) :
    P.Abridges (Derived.clauses limit vs) (Derived.clauses limit' vs) := by
  induction vs with
  | nil => exact abridges_pure []
  | cons v vs ih =>
    unfold Derived.clauses
    refine (abridges_clause hlimits v).bind fun clause => ?_
    obtain ⟨test, forms⟩ := clause
    have hrest : P.Abridges (do return (test, forms) :: (← Derived.clauses limit vs))
        (do return (test, forms) :: (← Derived.clauses limit' vs)) :=
      ih.bind fun _ => abridges_pure _
    have hbody : P.Abridges
        (do
          if forms.isEmpty then Effect.malformedBy limit .condBody v
          return (test, forms) :: (← Derived.clauses limit vs))
        (do
          if forms.isEmpty then Effect.malformedBy limit' .condBody v
          return (test, forms) :: (← Derived.clauses limit' vs)) := by
      dsimp only
      split
      · exact (abridges_malformedBy hlimits _ v).bind fun _ => hrest
      · exact hrest
    dsimp only
    split
    · refine (abridges_newList (v :: vs)).bind fun list => ?_
      exact (abridges_malformedBy hlimits _ list).bind fun _ => hbody
    · exact hbody

lemma abridges_choices (clauses : List (Value × List Value)) :
    P.Abridges (Derived.choices clauses) (Derived.choices clauses) := by
  induction clauses with
  | nil => exact abridges_pure _
  | cons clause clauses ih =>
    refine ih.bind fun otherwise => (abridges_sequenceForm clause.2).bind fun consequent => ?_
    split
    · exact abridges_pure consequent
    · exact abridges_newList _

lemma abridges_cond (hlimits : Limits P.Stops limit limit') (vs : List Value) :
    P.Abridges (Derived.cond limit vs) (Derived.cond limit' vs) :=
  (abridges_clauses hlimits vs).bind abridges_choices

lemma abridges_binding (hlimits : Limits P.Stops limit limit') (v : Value) :
    P.Abridges (Derived.binding limit v) (Derived.binding limit' v) := by
  refine abridges_get_bind fun s s' hsame => ?_
  rw [hsame.list?_eq]
  split
  · exact abridges_pure _
  · exact abridges_malformedBy hlimits _ v

lemma abridges_letIn (hlimits : Limits P.Stops limit limit') (bindings : Value)
    (body : List Value) :
    P.Abridges (Derived.letIn limit bindings body) (Derived.letIn limit' bindings body) := by
  refine abridges_get_bind fun s s' hsame => ?_
  rw [hsame.list?_eq]
  split
  · exact abridges_malformedBy hlimits _ bindings
  · rename_i members _
    have happlication : P.Abridges
        (do
          let bound ← members.mapM (Derived.binding limit)
          let params ← Derived.newList (bound.map fun binding => .symbol binding.1)
          Derived.newList ((← Derived.lambda params body) :: bound.map Prod.snd))
        (do
          let bound ← members.mapM (Derived.binding limit')
          let params ← Derived.newList (bound.map fun binding => .symbol binding.1)
          Derived.newList ((← Derived.lambda params body) :: bound.map Prod.snd)) := by
      refine (abridges_mapM fun v _ => abridges_binding hlimits v).bind fun bound => ?_
      refine (abridges_newList _).bind fun params => ?_
      exact (abridges_lambdaForm params body).bind fun proc => abridges_newList _
    dsimp only
    split
    · exact (abridges_malformed _).bind fun _ => happlication
    · exact happlication

lemma abridges_definition (hlimits : Limits P.Stops limit limit') (vs : List Value) :
    P.Abridges (Derived.definition limit vs) (Derived.definition limit' vs) := by
  unfold Derived.definition
  split
  · exact abridges_malformed _
  · split
    · exact abridges_pure _
    · exact abridges_malformed _
  · split
    · refine abridges_get_bind fun s s' hsame => ?_
      rw [hsame.cell_eq]
      dsimp only
      split
      · split
        · refine (abridges_malformed _).bind fun _ => ?_
          exact (abridges_lambdaForm _ _).bind fun _ => abridges_pure _
        · exact (abridges_lambdaForm _ _).bind fun _ => abridges_pure _
      · exact abridges_malformedBy hlimits _ _
    · exact abridges_malformedBy hlimits _ _

end Derived

/-! ## Evaluation -/

section Evaluation

variable {ev ev' : Evaluator} {env : FrameId}

/-- The first evaluator abridges the second one. -/
def AbridgesEach (P : RunPair) (ev ev' : Evaluator) : Prop :=
  ∀ expr env, P.Abridges (ev expr env) (ev' expr env)

/-- Where a name is not bound, a strict run may stop. -/
lemma abridges_readName (x : Symbol) (env : FrameId) :
    P.Abridges (Eval.readName P.mode x env) (Eval.readName P.mode' x env) := by
  refine abridges_get_bind fun s s' hsame => ?_
  rw [hsame.lookup?_eq]
  split
  · exact abridges_pure _
  · rcases P.strict with heq | ⟨hfalse, hstops⟩
    · rw [heq]
      split
      · exact abridges_throw _
      · exact abridges_pure _
    · rw [hfalse, if_neg Bool.false_ne_true]
      split
      · exact ⟨fun s => .inr ⟨_, s, rfl, hstops x.name, .refl _⟩, .refl⟩
      · exact abridges_pure _

lemma abridges_assignName (x : Symbol) (v : Value) (env : FrameId) :
    P.Abridges (Eval.assignName x v env) (Eval.assignName x v env) := by
  have hbound {s : Store} {f : FrameId} (h : s.find? env x = some f) :
      Eval.assignName x v env s = .ok () (s.define f x v) := by
    have hassign : s.assign? env x v = some (s.define f x v) := by simp [Store.assign?, h]
    rw [Eval.assignName, Effect.get_bind, hassign]
    rfl
  have hunbound {s : Store} (h : s.find? env x = none) :
      Eval.assignName x v env s = .error (.unbound x.name) s := by
    rw [Eval.assignName, Effect.get_bind, Store.assign?_eq_none_iff.mpr h]
    rfl
  refine ⟨fun s => .inl ?_, fun s => ?_⟩
  · have hfind : (P.view s).find? env x = s.find? env x := (P.sameNodes_view s).find?_eq env x
    cases h : s.find? env x with
    | some f =>
      rw [hbound h, hbound (hfind.trans h)]
      rfl
    | none =>
      rw [hunbound h, hunbound (hfind.trans h)]
      rfl
  · cases h : s.find? env x with
    | some f =>
      rw [hbound h]
      exact Store.precedes_of_printed_eq rfl
    | none =>
      rw [hunbound h]
      exact .refl s

lemma abridges_operands (hev : P.AbridgesEach ev ev') (vs : List Value) :
    P.Abridges (Eval.operands ev env vs) (Eval.operands ev' env vs) := by
  induction vs with
  | nil => exact abridges_pure []
  | cons v vs ih => exact (hev v env).bind fun _ => ih.bind fun _ => abridges_pure _

lemma abridges_sequence (hev : P.AbridgesEach ev ev') (vs : List Value) :
    P.Abridges (Eval.sequence ev env vs) (Eval.sequence ev' env vs) := by
  induction vs with
  | nil => exact abridges_malformed _
  | cons v vs ih =>
    cases vs with
    | nil => exact hev v env
    | cons v' vs => exact (hev v env).discard.bind fun _ => ih

lemma abridges_enter (closure : Closure) (args : List Value) :
    P.Abridges (Eval.enter closure args) (Eval.enter closure args) := by
  unfold Eval.enter
  split
  · exact abridges_throw _
  · exact abridges_modifyGet (fun _ => rfl) fun _ => Store.precedes_of_printed_eq rfl

lemma abridges_apply (hlimits : Limits P.Stops limit limit') (hev : P.AbridgesEach ev ev')
    (proc : Value) (args : List Value) :
    P.Abridges (Eval.apply P.mode limit ev proc args) (Eval.apply P.mode' limit' ev' proc args) := by
  refine (abridges_reportApply hlimits proc args).bind fun _ => ?_
  cases proc with
  | builtin b => exact abridges_builtin hlimits b args
  | closure k =>
    refine abridges_get_bind fun s s' hsame => ?_
    rw [hsame.closure_eq]
    exact (abridges_enter _ args).bind fun env => abridges_sequence hev _
  | _ => exact abridges_throw_shown hlimits _ fun text => .unknownForm (.notProcedure text)

lemma abridges_parts (hlimits : Limits P.Stops limit limit') (hev : P.AbridgesEach ev ev')
    (c : CellId) : P.Abridges (Eval.parts limit ev c env) (Eval.parts limit' ev' c env) := by
  have hparts : P.Abridges
      (do
        let proc ← ev ((← get).cell c).car env
        let s ← get
        let args ← Eval.operands ev env (s.members (s.cell c).cdr)
        return (proc, args))
      (do
        let proc ← ev' ((← get).cell c).car env
        let s ← get
        let args ← Eval.operands ev' env (s.members (s.cell c).cdr)
        return (proc, args)) := by
    refine abridges_get_bind fun s s' hsame => ?_
    rw [hsame.cell_eq]
    refine (hev _ env).bind fun proc => abridges_get_bind fun s s' hsame => ?_
    rw [hsame.cell_eq, hsame.members_eq]
    exact (abridges_operands hev _).bind fun args => abridges_pure _
  refine abridges_get_bind fun s s' hsame => ?_
  rw [hsame.isList_eq]
  cases s.isList (.pair c) with
  | true => exact hparts
  | false =>
    refine (abridges_shown hlimits _).bind fun text => Abridges.bind ?_ fun _ => hparts
    exact abridges_throw (.unknownForm (.improperApplication text))

lemma abridges_application (hlimits : Limits P.Stops limit limit') (hev : P.AbridgesEach ev ev')
    (c : CellId) :
    P.Abridges (Eval.application P.mode limit ev c env)
      (Eval.application P.mode' limit' ev' c env) := by
  rw [Eval.application_eq, Eval.application_eq]
  exact (abridges_parts hlimits hev c).bind fun found => abridges_apply hlimits hev found.1 found.2

lemma abridges_assign (hlimits : Limits P.Stops limit limit') (hev : P.AbridgesEach ev ev')
    (vs : List Value) :
    P.Abridges (Eval.assign limit ev vs env) (Eval.assign limit' ev' vs env) := by
  unfold Eval.assign
  split
  · refine (hev _ env).bind fun v => ?_
    exact (abridges_assignName _ v env).bind fun _ => abridges_pure _
  · exact (abridges_display hlimits _).bind fun _ => abridges_malformed _
  · exact abridges_malformed _

lemma abridges_define (hlimits : Limits P.Stops limit limit') (hev : P.AbridgesEach ev ev')
    (vs : List Value) :
    P.Abridges (Eval.define limit ev vs env) (Eval.define limit' ev' vs env) := by
  refine (abridges_definition hlimits vs).bind fun definition => ?_
  refine (hev definition.2 env).bind fun v => ?_
  have hbind : P.Abridges (modify fun s => s.define env definition.1 v)
      (modify fun s => s.define env definition.1 v) :=
    abridges_modify (fun _ => rfl) fun _ => Store.precedes_of_printed_eq rfl
  have hdefine : P.Abridges (do modify fun s => s.define env definition.1 v; return .nil)
      (do modify fun s => s.define env definition.1 v; return .nil : Effect Value) :=
    hbind.bind fun _ => abridges_pure _
  dsimp only
  split
  · refine Abridges.bind ?_ fun _ => hdefine
    exact abridges_modify (fun _ => rfl) fun _ => Store.precedes_of_printed_eq rfl
  · exact hdefine

lemma abridges_choice (hev : P.AbridgesEach ev ev') (vs : List Value) :
    P.Abridges (Eval.choice ev vs env) (Eval.choice ev' vs env) := by
  unfold Eval.choice
  split
  · refine (hev _ env).bind fun v => ?_
    split
    · exact abridges_pure _
    · exact hev _ env
  · refine (hev _ env).bind fun v => ?_
    split
    · exact hev _ env
    · exact hev _ env
  · exact abridges_malformed _

lemma abridges_parameters (hlimits : Limits P.Stops limit limit') (vs : List Value) :
    P.Abridges (Eval.parameters limit vs) (Eval.parameters limit' vs) := by
  induction vs with
  | nil => exact abridges_pure []
  | cons v vs ih =>
    unfold Eval.parameters
    split
    · exact abridges_pure []
    · rename_i heq
      cases heq
      exact ih.bind fun _ => abridges_pure _
    · exact abridges_malformedBy hlimits _ _

lemma abridges_lambda (hlimits : Limits P.Stops limit limit') (vs : List Value) (env : FrameId) :
    P.Abridges (Eval.lambda limit vs env) (Eval.lambda limit' vs env) := by
  unfold Eval.lambda
  split
  · exact abridges_malformed _
  · refine abridges_get_bind fun s s' hsame => ?_
    rw [hsame.list?_eq]
    split
    · exact abridges_malformedBy hlimits _ _
    · refine (abridges_parameters hlimits _).bind fun names => ?_
      have hclosure (closure : Closure) :
          P.Abridges (modifyGet fun s => s.addClosure closure)
            (modifyGet fun s => s.addClosure closure) :=
        abridges_modifyGet (fun _ => rfl) fun _ => Store.precedes_of_printed_eq rfl
      dsimp only
      split
      · exact (abridges_malformed _).bind fun _ => hclosure _
      · exact hclosure _

lemma abridges_special (hlimits : Limits P.Stops limit limit') (hev : P.AbridgesEach ev ev')
    (form : SpecialForm) (vs : List Value) :
    P.Abridges (Eval.special limit ev form vs env) (Eval.special limit' ev' form vs env) := by
  unfold Eval.special
  cases form with
  | quote =>
    dsimp only
    split
    · exact abridges_pure _
    · exact abridges_malformed _
  | assign => exact abridges_assign hlimits hev vs
  | define => exact abridges_define hlimits hev vs
  | choice => exact abridges_choice hev vs
  | cond => exact (abridges_cond hlimits vs).bind fun expr => hev expr env
  | letIn =>
    cases vs with
    | nil => exact abridges_malformed _
    | cons bindings body =>
      exact (abridges_letIn hlimits bindings body).bind fun expr => hev expr env
  | lambda => exact abridges_lambda hlimits vs env
  | sequence => exact abridges_sequence hev vs

lemma abridges_combination (hlimits : Limits P.Stops limit limit') (hev : P.AbridgesEach ev ev')
    (c : CellId) :
    P.Abridges (Eval.combination P.mode limit ev c env)
      (Eval.combination P.mode' limit' ev' c env) := by
  refine abridges_get_bind fun s s' hsame => ?_
  rw [hsame.cell_eq, hsame.list?_eq]
  split
  · split
    · exact abridges_special hlimits hev _ _
    · exact abridges_malformedBy hlimits _ _
  · exact abridges_application hlimits hev c

/-- **One step of evaluation** is abridged by the step with an evaluator that abridges the other
one. -/
theorem abridges_step (hlimits : Limits P.Stops limit limit') (hev : P.AbridgesEach ev ev') :
    P.AbridgesEach (Eval.step P.mode limit ev) (Eval.step P.mode' limit' ev') := by
  intro expr env
  refine (abridges_reportEval hlimits expr).bind fun _ => ?_
  split
  · exact abridges_pure _
  · exact abridges_pure _
  · exact abridges_pure _
  · exact abridges_readName _ env
  · exact abridges_combination hlimits hev _
  · exact abridges_throw_shown hlimits _ fun text => .unknownForm (.notExpression text)

/-- **Evaluation is abridged by evaluation** in the first of two modes, with the same limit or, if
too little of it counts as a stop, with a smaller one. -/
theorem abridges_eval (hlimits : Limits P.Stops limit limit') :
    P.AbridgesEach (eval P.mode limit) (eval P.mode' limit') := by
  -- first with the same limit, where nothing stops for lack of it
  have hsame (limit : Nat) : P.AbridgesEach (eval P.mode limit) (eval P.mode' limit) := by
    induction limit with
    | zero => exact fun _ _ => abridges_throw _
    | succ limit ih => exact abridges_step (.refl limit) ih
  induction limit generalizing limit' with
  | zero =>
    intro expr env
    rcases hlimits with rfl | ⟨-, hstops⟩
    · exact hsame 0 expr env
    · have hforward := (hsame limit' expr env).forward
      exact ⟨fun s => .inr ⟨_, s, rfl, hstops, hforward (P.view s)⟩, hforward⟩
  | succ limit ih =>
    obtain ⟨rest, rfl, hrest⟩ := hlimits.exists_succ
    exact abridges_step hrest (ih hrest)

end Evaluation

end RunPair

end SmallScheme
