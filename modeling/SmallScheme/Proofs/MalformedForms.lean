import SmallScheme.Proofs.Access
import SmallScheme.Proofs.Calls
import SmallScheme.Proofs.FormShapes

/-!
# Malformed forms fail before they do anything

A special form whose operands do not have their shape fails with an error that says so.  Nothing has
happened then but that cells were added, and none of its operands has been evaluated.  Conversely, a
form whose operands have their shape is never refused itself: if it fails because some form is
malformed, then one of the expressions in it does (`Store.FaultsFrom`).

Most malformed forms are refused at once, whatever evaluates their parts (`FailsWith`).  In the
definition of a procedure, it is a new expression that is refused, the one that makes the procedure;
its parameters are found in the larger store as they are found in the smaller one
(`Store.AddsFresh.list?_eq`).

The main result is `ends_malformed`.
-/

namespace SmallScheme

namespace Store

variable {s t : Store} {v params : Value} {body : List Value} {fault : String → FormFault}

/-- The expression in the cell is a list, and its operands have the shape for the special form. -/
def HasShape (s : Store) (form : SpecialForm) (c : CellId) : Prop :=
  ∃ v args, s.list? (.pair c) = some (v :: args) ∧ s.WellShaped form args

/-- What is wrong with the expression in the cell, and which value is shown in the message. -/
inductive Malformed (s t : Store) (form : SpecialForm) (c : CellId) :
    (String → FormFault) → Value → Prop
  | improper : s.list? (.pair c) = none →
      Malformed s t form c (.improper form.keyword.name) (.pair c)
  | operands {v shown : Value} {args : List Value} {fault : String → FormFault} :
      s.list? (.pair c) = some (v :: args) → s.Misshapen t form args fault shown →
      Malformed s t form c fault shown

/-- The expressions in a form that may be evaluated when it is. -/
inductive Part (s : Store) : SpecialForm → List Value → Value → Prop
  | assigned (x : Symbol) (expr : Value) : Part s .assign [.symbol x, expr] expr
  | defined (x : Symbol) (expr : Value) : Part s .define [.symbol x, expr] expr
  | choice {args : List Value} {expr : Value} : expr ∈ args → Part s .choice args expr
  | test {vs : List Value} {clauses : List (Value × List Value)} {clause : Value × List Value} :
      s.Clauses vs clauses → clause ∈ clauses → clause.1 ≠ .symbol ⟨"else"⟩ →
      Part s .cond vs clause.1
  | clause {vs : List Value} {clauses : List (Value × List Value)} {clause : Value × List Value}
      {expr : Value} : s.Clauses vs clauses → clause ∈ clauses → expr ∈ clause.2 →
      Part s .cond vs expr
  | bound {bindings : Value} {bound : List (Symbol × Value)} {body : List Value}
      {b : Symbol × Value} : s.BindingList bindings bound → b ∈ bound →
      Part s .letIn (bindings :: body) b.2
  | body {bindings expr : Value} {body : List Value} : expr ∈ body →
      Part s .letIn (bindings :: body) expr
  | sequence {forms : List Value} {expr : Value} : expr ∈ forms → Part s .sequence forms expr

lemma Clauses.forms_ne_nil {vs : List Value} {clauses : List (Value × List Value)}
    (h : s.Clauses vs clauses) : ∀ clause ∈ clauses, clause.2 ≠ [] := by
  have hshape := h.1
  clear h
  induction hshape with
  | nil => exact List.forall_mem_nil _
  | cons hclause _ ih => exact List.forall_mem_cons.mpr ⟨hclause.2, ih⟩

/-! ## Parameters in larger stores -/

/-- A list that was there is there when cells have been added. -/
lemma AddsFresh.list?_eq (h : s.AddsFresh t) (hs : s.WellFormed) (hv : s.Knows v) :
    t.list? v = s.list? v := by
  have hvalue := (holds_shifted hs h).list?_value (Value.within_of_node? fun c hc => hv (.cell c) hc)
  rw [shifted, shift_value t hv] at hvalue
  rw [hvalue]
  cases hlist : s.list? v with
  | none => rfl
  | some members =>
    rw [Option.map_some, map_shift_value t (hs.knows_of_list? hlist)]

/-- What is wrong with a procedure depends on its parameter list. -/
lemma Misshapen.lambda_congr (hlist : t.list? params = s.list? params)
    (h : t.Misshapen t .lambda (params :: body) fault v) :
    s.Misshapen t .lambda (params :: body) fault v := by
  cases h with
  | lambdaParameters hparams => exact .lambdaParameters (hlist ▸ hparams)
  | lambdaParameter hparams hmem hv => exact .lambdaParameter (hlist ▸ hparams) hmem hv
  | lambdaBody hparams => exact .lambdaBody (hlist ▸ hparams)

lemma WellShaped.lambda_congr (hlist : t.list? params = s.list? params)
    (h : t.WellShaped .lambda (params :: body)) : s.WellShaped .lambda (params :: body) := by
  cases h with
  | lambda hparams hbody => exact .lambda (hlist ▸ hparams) hbody

end Store

/-! ## Expressions that fail at once -/

section Failures

variable {mode : Mode} {expr : Value} {env : FrameId} {s t : Store} {fault : String → FormFault}
  {v : Value} {c : CellId} {form : SpecialForm} {args : List Value} {limit limit' : Nat}
  {call call' : Call}

/-- Whatever evaluates its parts, the expression fails with a fault in whose message a value is
shown. -/
def FailsWith (mode : Mode) (expr : Value) (env : FrameId) (s : Store) (fault : String → FormFault)
    (v : Value) (t : Store) : Prop :=
  ∀ limit ev, Eval.step mode limit ev expr env s = .error (t.faultError limit fault v) t

lemma FailsWith.exists_ends (h : FailsWith mode expr env s fault v t) :
    ∃ e, t.ShownFault fault v e ∧ Ends mode expr env s (.error e t) := by
  obtain ⟨e, hshown, he⟩ := t.exists_shownFault fault v
  refine ⟨e, hshown, fun u hu => ?_, t.cells.size + 2, ?_⟩
  · cases hu
    cases hshown
  · rw [eval_succ, h, he _ (Nat.lt_succ_self _)]

/-- With each limit, the expression fails in the store in which it does so with a large one. -/
lemma FailsWith.exists_error (h : FailsWith mode expr env s fault v t) (limit : Nat) :
    ∃ e u, eval mode limit expr env s = .error e u := by
  cases limit with
  | zero => exact ⟨.tooDeep, s, rfl⟩
  | succ limit => exact ⟨_, t, h limit _⟩

/-- It makes no calls. -/
lemma FailsWith.eq_of_reaches (h : FailsWith mode expr env s fault v t)
    (hreaches : Reaches mode limit ⟨expr, env, s⟩ limit' call') : call' = ⟨expr, env, s⟩ := by
  cases hreaches with
  | here => rfl
  | inner hconsults =>
    exact absurd (fun e => (h _ _).trans (h _ _).symm) hconsults.not_ignores

lemma failsWith_of_improper (huntraced : mode.traced = false)
    (hkeyword : Eval.keyword? (s.cell c).car = some form) (hlist : s.list? (.pair c) = none) :
    FailsWith mode (.pair c) env s (.improper form.keyword.name) (.pair c) s := by
  intro limit ev
  rw [step_pair huntraced, Eval.combination, Effect.get_bind, hkeyword, hlist]
  exact Store.malformedBy_eq limit _ (.pair c) s

lemma Store.Refuses.failsWith (h : s.Refuses t form args fault v) (huntraced : mode.traced = false)
    (hkeyword : Eval.keyword? (s.cell c).car = some form) {head : Value}
    (hlist : s.list? (.pair c) = some (head :: args)) :
    FailsWith mode (.pair c) env s fault v t := fun limit ev =>
  (step_special huntraced hkeyword hlist limit ev env).trans (h.special_eq limit ev env)

/-! ## Definitions of procedures -/

/-- What a definition does with its value. -/
def Eval.bindName (x : Symbol) (env : FrameId) (v : Value) : Effect Value := do
  if let .closure k := v then modify fun s => s.nameClosure k x
  modify fun s => s.define env x v
  return .nil

/-- A definition evaluates one expression and binds its name to the value. -/
lemma special_define_eq {x : Symbol} (hdefinition : ∀ limit, Derived.definition limit args s = .ok (x, expr) t)
    (limit : Nat) (ev : Evaluator) :
    Eval.special limit ev .define args env s = (ev expr env >>= Eval.bindName x env) t :=
  Effect.bind_ok (hdefinition limit)

/-- The definition of a procedure defines its name as a new expression that makes the procedure. -/
lemma exists_procedure {d : CellId} {x : Symbol} {body : List Value}
    (hcar : (s.cell d).car = .symbol x) (hbody : body ≠ []) :
    ∃ p t, (∀ limit, Derived.definition limit (.pair d :: body) s = .ok (x, .pair p) t) ∧
      s.AddsFresh t ∧
      t.ListIn (s.cells.size ≤ ·) (.pair p) (Derived.keyword .lambda :: (s.cell d).cdr :: body) := by
  obtain ⟨p, t, hlambda, hfresh, hlist⟩ := Store.exists_lambda (s.cell d).cdr body s
  refine ⟨p, t, fun limit => ?_, hfresh, hlist⟩
  rw [Derived.definition, Effect.get_bind, hcar]
  simp only [List.isEmpty_iff, hbody, if_false]
  exact Effect.bind_ok hlambda

/-- If the value of a definition fails without a call, the definition fails in the same way, and only
its value has been called for. -/
lemma reaches_of_define (huntraced : mode.traced = false)
    (hkeyword : Eval.keyword? (s.cell c).car = some .define) {head : Value}
    (hlist : s.list? (.pair c) = some (head :: args)) {x : Symbol} {u : Store}
    (hdefinition : ∀ limit, Derived.definition limit args s = .ok (x, expr) t)
    (hfails : FailsWith mode expr env t fault v u)
    (hreaches : Reaches mode limit ⟨.pair c, env, s⟩ limit' call') :
    call' = ⟨.pair c, env, s⟩ ∨ call' = ⟨expr, env, t⟩ := by
  cases hreaches with
  | here => exact .inl rfl
  | @inner limit _ _ part _ hconsults hinner =>
    have hstep (ev : Evaluator) : Eval.step mode limit ev (.pair c) env s =
        (ev expr env >>= Eval.bindName x env) t :=
      (step_special huntraced hkeyword hlist limit ev env).trans
        (special_define_eq hdefinition limit ev)
    rcases consults_or_ignores_call expr env (eval mode limit) t part with ⟨rfl, -⟩ | hignores
    · exact .inr (hfails.eq_of_reaches hinner)
    · -- the step would end in the same error, whatever the part did
      obtain ⟨e, w, herror⟩ := hfails.exists_error limit
      have hbind := hignores.bind_error (f := fun v _ => Eval.bindName x env v) herror
      refine absurd (fun e' => ?_) hconsults.not_ignores
      exact (hstep _).trans ((hbind e').trans (hstep _).symm)

/-- **A malformed form fails before it does anything**: in an error that says what is wrong with it, and
all that has happened is that cells were added.  No expression has been called for but the form itself
and expressions in new cells. -/
lemma exists_failure (huntraced : mode.traced = false) (hs : s.WellFormed)
    (hkeyword : Eval.keyword? (s.cell c).car = some form) (hshape : ¬s.HasShape form c)
    (env : FrameId) :
    ∃ fault v e t, s.Malformed t form c fault v ∧ t.ShownFault fault v e ∧ s.AddsFresh t ∧
      Ends mode (.pair c) env s (.error e t) ∧
      ∀ limit limit' call, Reaches mode limit ⟨.pair c, env, s⟩ limit' call →
        call = ⟨.pair c, env, s⟩ ∨ ∃ d, call.expr = .pair d ∧ s.cells.size ≤ d := by
  rcases ByAccess.list?_cases s (.pair c) with hlist | ⟨hnil, -⟩ | ⟨c', args, hpair, hargs, hlist⟩
  · have hfails : FailsWith mode (.pair c) env s (.improper form.keyword.name) (.pair c) s :=
      failsWith_of_improper huntraced hkeyword hlist
    obtain ⟨e, hshown, hends⟩ := hfails.exists_ends
    exact ⟨_, _, e, s, .improper hlist, hshown, .refl s, hends, fun _ _ _ hreaches =>
      .inl (hfails.eq_of_reaches hreaches)⟩
  · cases hnil
  · cases hpair
    have hargs : ¬s.WellShaped form args := fun hargs => hshape ⟨_, args, hlist, hargs⟩
    rcases Store.exists_refusal hargs with ⟨fault, v, t, hrefuses⟩ |
      ⟨rfl, d, x, body, rfl, hcar, hbody, hlambda⟩
    · have hfails : FailsWith mode (.pair c) env s fault v t :=
        hrefuses.failsWith huntraced hkeyword hlist
      obtain ⟨e, hshown, hends⟩ := hfails.exists_ends
      exact ⟨fault, v, e, t, .operands hlist hrefuses.misshapen, hshown, hrefuses.addsFresh, hends,
        fun _ _ _ hreaches => .inl (hfails.eq_of_reaches hreaches)⟩
    · -- the new expression that makes the procedure is refused in the store with that expression
      obtain ⟨p, t, hdefinition, hfresh, hprocedure⟩ := exists_procedure hcar hbody
      have hparams : t.list? (s.cell d).cdr = s.list? (s.cell d).cdr :=
        hfresh.list?_eq hs (hs.knows_cdr d)
      have hlambda' : ¬t.WellShaped .lambda ((s.cell d).cdr :: body) :=
        fun h => hlambda (h.lambda_congr hparams)
      obtain ⟨fault, v, hrefuses⟩ := Store.exists_refusal_lambda hlambda'
      have hfails : FailsWith mode (.pair p) env t fault v t :=
        hrefuses.failsWith huntraced (keyword?_car hprocedure.list?_eq) hprocedure.list?_eq
      obtain ⟨e, hshown, hends⟩ := hfails.exists_ends
      have hmisshapen : s.Misshapen t .define (.pair d :: body) fault v :=
        .defineProcedure hcar hbody (hrefuses.misshapen.lambda_congr hparams)
      refine ⟨fault, v, e, t, .operands hlist hmisshapen, hshown, hfresh, ?_, ?_⟩
      · refine (ends_special_iff huntraced hkeyword hlist (special_define_eq hdefinition)).mpr ?_
        exact EndsBy.bind_error (f := fun v _ => Eval.bindName x env v) hends
      · intro limit limit' call hreaches
        refine (reaches_of_define huntraced hkeyword hlist hdefinition hfails hreaches).imp_right ?_
        rintro rfl
        obtain ⟨cs, hspine, hcs, -⟩ := hprocedure
        obtain ⟨-, ds, rfl, -⟩ := hspine.pair_inv
        exact ⟨p, rfl, hcs p List.mem_cons_self⟩

end Failures

/-! ## Where faults come from -/

/-- If the procedure fails because a form is malformed, then so does one of the given expressions. -/
def FaultsFrom {α : Type} (mode : Mode) (P : Value → Prop) (x : Evaluator → Effect α) (s : Store) :
    Prop :=
  ∀ f t, EndsBy mode x s (.error (.ofForm f) t) →
    ∃ expr env s' t', P expr ∧ Ends mode expr env s' (.error (.ofForm f) t')

section Faults

variable {α β : Type} {mode : Mode} {P : Value → Prop} {s t : Store} {env : FrameId}
  {x : Evaluator → Effect α} {f : α → Evaluator → Effect β} {expr : Value} {forms exprs : List Value}

lemma faultsFrom_call (hexpr : P expr) (env : FrameId) (s : Store) :
    FaultsFrom mode P (fun ev => ev expr env) s :=
  fun _ t h => ⟨expr, env, s, t, hexpr, h⟩

lemma faultsFrom_const {y : Effect α} (hy : ∀ f t, y s ≠ .error (.ofForm f) t) :
    FaultsFrom mode P (fun _ => y) s := by
  rintro f t ⟨-, _, hlimit⟩
  exact absurd hlimit (hy f t)

lemma faultsFrom_pure (a : α) (s : Store) : FaultsFrom mode P (fun _ => pure a) s :=
  faultsFrom_const nofun

namespace FaultsFrom

lemma bind (hx : FaultsFrom mode P x s) (hf : ∀ a t, FaultsFrom mode P (f a) t) :
    FaultsFrom mode P (fun ev => x ev >>= (f · ev)) s := by
  intro fault t h
  rcases h.bind_cases with ⟨e, u, he, heq⟩ | ⟨a, u, -, hends⟩
  · cases heq
    exact hx fault t he
  · exact hf a u fault t hends

lemma discard (hx : FaultsFrom mode P x s) : FaultsFrom mode P (fun ev => discard (x ev)) s :=
  hx.bind fun _ t => faultsFrom_pure () t

end FaultsFrom

lemma faultsFrom_operands (hexprs : ∀ expr ∈ exprs, P expr) (env : FrameId) (s : Store) :
    FaultsFrom mode P (fun ev => Eval.operands ev env exprs) s := by
  induction exprs generalizing s with
  | nil => exact faultsFrom_pure [] s
  | cons expr exprs ih =>
    rw [List.forall_mem_cons] at hexprs
    refine (faultsFrom_call hexprs.1 env s).bind fun v t => ?_
    exact (ih hexprs.2 t).bind fun vs u => faultsFrom_pure (v :: vs) u

lemma faultsFrom_sequence (hforms : ∀ form ∈ forms, P form) (hne : forms ≠ []) (env : FrameId)
    (s : Store) : FaultsFrom mode P (fun ev => Eval.sequence ev env forms) s := by
  induction forms generalizing s with
  | nil => exact absurd rfl hne
  | cons form forms ih =>
    rw [List.forall_mem_cons] at hforms
    cases forms with
    | nil => exact faultsFrom_call hforms.1 env s
    | cons form' forms =>
      refine (faultsFrom_call hforms.1 env s).discard.bind fun _ t => ?_
      exact ih hforms.2 (List.cons_ne_nil _ _) t

lemma faultsFrom_assign (x : Symbol) (hexpr : P expr) (env : FrameId) (s : Store) :
    FaultsFrom mode P
      (fun ev => ev expr env >>= fun v => Eval.assignName x v env >>= fun _ => pure Value.nil) s := by
  refine (faultsFrom_call hexpr env s).bind fun v t => ?_
  refine FaultsFrom.bind (x := fun _ => Eval.assignName x v env) (faultsFrom_const fun f u => ?_)
    fun _ u => faultsFrom_pure _ u
  rw [Eval.assignName, Effect.get_bind]
  intro h
  cases hassign : t.assign? env x v with
  | none => rw [hassign] at h; cases h
  | some t' => rw [hassign] at h; cases h

lemma faultsFrom_bindName (x : Symbol) (env : FrameId) (v : Value) (s : Store) :
    FaultsFrom mode P (fun _ => Eval.bindName x env v) s :=
  faultsFrom_const (by cases v <;> exact nofun)

/-- Without an alternative the result is false. -/
lemma faultsFrom_choice {args : List Value} (h : s.WellShaped .choice args)
    (hargs : ∀ expr ∈ args, P expr) (env : FrameId) :
    FaultsFrom mode P (fun ev => Eval.choice ev args env) s := by
  have htest {test : Value} {y z : Evaluator → Effect Value} (htest : P test)
      (hy : ∀ t, FaultsFrom mode P y t) (hz : ∀ t, FaultsFrom mode P z t) :
      FaultsFrom mode P
        (fun ev => ev test env >>= fun v => if v == .bool false then y ev else z ev) s := by
    refine (faultsFrom_call htest env s).bind fun v t => ?_
    cases v == .bool false with
    | true => exact hy t
    | false => exact hz t
  cases h with
  | choice test consequent =>
    exact htest (hargs test (by simp)) (faultsFrom_pure _)
      (faultsFrom_call (hargs consequent (by simp)) env)
  | choiceElse test consequent alternative =>
    exact htest (hargs test (by simp)) (faultsFrom_call (hargs alternative (by simp)) env)
      (faultsFrom_call (hargs consequent (by simp)) env)

lemma faultsFrom_firstTrue {clauses : List (Value × List Value)}
    (htests : ∀ clause ∈ clauses, clause.1 ≠ .symbol ⟨"else"⟩ → P clause.1)
    (hforms : ∀ clause ∈ clauses, ∀ form ∈ clause.2, P form)
    (hne : ∀ clause ∈ clauses, clause.2 ≠ []) (env : FrameId) (s : Store) :
    FaultsFrom mode P (fun ev => Eval.firstTrue ev env clauses) s := by
  induction clauses generalizing s with
  | nil => exact faultsFrom_pure _ s
  | cons clause rest ih =>
    obtain ⟨test, forms⟩ := clause
    rw [List.forall_mem_cons] at htests hforms hne
    have hsequence (t : Store) : FaultsFrom mode P (fun ev => Eval.sequence ev env forms) t :=
      faultsFrom_sequence hforms.1 hne.1 env t
    by_cases helse : test = .symbol ⟨"else"⟩
    · simp only [Eval.firstTrue, if_pos helse]
      exact hsequence s
    · simp only [Eval.firstTrue, if_neg helse]
      refine (faultsFrom_call (htests.1 helse) env s).bind fun v t => ?_
      cases v == .bool false with
      | true => exact ih htests.2 hforms.2 hne.2 t
      | false => exact hsequence t

lemma faultsFrom_bindIn (names : List Symbol) (hexprs : ∀ expr ∈ exprs, P expr)
    (hforms : ∀ form ∈ forms, P form) (hne : forms ≠ []) (env : FrameId) (s : Store) :
    FaultsFrom mode P (fun ev => Eval.bindIn ev env names exprs forms) s := by
  simp only [Eval.bindIn_eq]
  refine (faultsFrom_operands hexprs env s).bind fun vs t => ?_
  refine FaultsFrom.bind (x := fun _ => Eval.enter ⟨names, forms, env, none⟩ vs)
    (faultsFrom_const ?_) fun inner u => faultsFrom_sequence hforms hne inner u
  intro f u
  unfold Eval.enter
  cases names[vs.length]? <;> exact nofun

/-- What an expression means tells where its faults come from. -/
lemma Means.faultsFrom {x : Evaluator → Effect Value} (h : Means mode x s expr env t)
    (hx : FaultsFrom mode P x s) :
    FaultsFrom mode P (fun ev => ev expr env) t := by
  intro fault u hu
  obtain ⟨r, hr, hfresh⟩ := h.procedure _ hu
  cases hfresh with
  | error => exact hx fault _ hr

end Faults

/-! ## Forms that have their shape -/

section Shapes

variable {mode : Mode} {s t : Store} {c : CellId} {form : SpecialForm} {head : Value}
  {args vs : List Value} {clauses : List (Value × List Value)} {env : FrameId}

/-- The expression that makes the procedure does not fail if its parameters are names. -/
lemma faultsFrom_procedure {p : CellId} {params : Value} {names : List Symbol} {body : List Value}
    {P : Value → Prop} (huntraced : mode.traced = false)
    (hlambda : t.list? (.pair p) = some (Derived.keyword .lambda :: params :: body))
    (hparams : t.list? params = some (names.map .symbol)) (hbody : body ≠ []) (x : Symbol)
    (env : FrameId) :
    FaultsFrom mode P (fun ev => ev (.pair p) env >>= Eval.bindName x env) t := by
  refine FaultsFrom.bind (x := fun ev => ev (.pair p) env) (fun f u hu => ?_) fun v u =>
    faultsFrom_bindName x env v u
  set made : Effect Value := fun _ =>
    .ok (.closure t.closures.size) (t.addClosure ⟨names, body, env, none⟩).2
  have hspecial (limit : Nat) (ev : Evaluator) :
      Eval.special limit ev .lambda (params :: body) env t = (fun _ => made) ev t :=
    lambda_eq limit hparams hbody
  have hmade : FaultsFrom mode P (fun _ => made) t := faultsFrom_const fun _ _ => nofun
  exact hmade f u ((ends_special_iff huntraced (keyword?_car hlambda) hlambda hspecial).mp hu)

lemma faultsFrom_cond (huntraced : mode.traced = false) (hs : s.WellFormed)
    (hclauses : s.Clauses vs clauses) (env : FrameId) :
    ∃ e t, (∀ limit ev, Eval.special limit ev .cond vs env s = ev e env t) ∧
      FaultsFrom mode (s.Part .cond vs) (fun ev => ev e env) t := by
  obtain ⟨e, t, he, hfresh, hchoices⟩ := Store.exists_choices clauses s
  have hhidden : t.ChoicesIn (s.shifted t).Hides clauses e :=
    hchoices.mono (.refl t) fun d hlt hle => Store.hides_of_fresh hle hlt
  have hmeans : Means mode (fun ev => Eval.firstTrue ev env clauses) s e env t :=
    .of_imitates hs hfresh (Replication.imitates_choices huntraced hhidden fun clause hclause =>
      hclauses.copies hs t clause hclause) fun _ => Iff.rfl
  refine ⟨e, t, fun limit ev => ?_, hmeans.faultsFrom ?_⟩
  · have hexpanded : Derived.cond limit vs s = .ok e t :=
      (Effect.bind_ok (hclauses.clauses_eq limit)).trans he
    exact Effect.bind_ok hexpanded
  · exact faultsFrom_firstTrue (fun clause hmem helse => .test hclauses hmem helse)
      (fun clause hmem form hform => .clause hclauses hmem hform) hclauses.forms_ne_nil env s

lemma faultsFrom_letIn {bindings : Value} {bound : List (Symbol × Value)} {body : List Value}
    (huntraced : mode.traced = false) (hs : s.WellFormed)
    (hlist : s.list? (.pair c) = some (head :: bindings :: body))
    (hbindings : s.BindingList bindings bound) (hbody : body ≠ []) (env : FrameId) :
    ∃ e t, (∀ limit ev, Eval.special limit ev .letIn (bindings :: body) env s = ev e env t) ∧
      FaultsFrom mode (s.Part .letIn (bindings :: body)) (fun ev => ev e env) t := by
  obtain ⟨d, p, params, t, hexpanded, hfresh, happlication, hlambda, hparams⟩ :=
    Store.exists_letIn hbindings hbody
  have hforms : ∀ form ∈ body, s.Knows form := fun form hform =>
    hs.knows_of_list? hlist form (by simp [hform])
  have hnames : t.list? params = some ((bound.map Prod.fst).map .symbol) := by
    rw [hparams.list?_eq, List.map_map]
    rfl
  have hmeans : Means mode
      (fun ev => Eval.bindIn ev env (bound.map Prod.fst) (bound.map Prod.snd) body) s (.pair d) env t :=
    means_application huntraced hs hfresh happlication.list?_eq hlambda.list?_eq hnames hbody
      (hbindings.knows hs) hforms
  refine ⟨.pair d, t, fun limit ev => Effect.bind_ok (hexpanded limit), hmeans.faultsFrom ?_⟩
  refine faultsFrom_bindIn _ (fun expr hexpr => ?_) (fun form hform => .body hform) hbody env s
  obtain ⟨b, hb, rfl⟩ := List.mem_map.mp hexpr
  exact .bound hbindings hb

/-- A form that has its shape fails because of malformed forms only if one of its parts does. -/
lemma exists_faulty_part (huntraced : mode.traced = false) (hs : s.WellFormed)
    (hkeyword : Eval.keyword? (s.cell c).car = some form)
    (hlist : s.list? (.pair c) = some (head :: args)) (hshape : s.WellShaped form args)
    {f : FormFault} {u : Store} (hends : Ends mode (.pair c) env s (.error (.ofForm f) u)) :
    ∃ expr env' s' t', s.Part form args expr ∧ Ends mode expr env' s' (.error (.ofForm f) t') := by
  have hfrom {x : Evaluator → Effect Value} {t : Store}
      (hspecial : ∀ limit ev, Eval.special limit ev form args env s = x ev t)
      (hx : FaultsFrom mode (s.Part form args) x t) :
      ∃ expr env' s' t', s.Part form args expr ∧ Ends mode expr env' s' (.error (.ofForm f) t') :=
    hx f u ((ends_special_iff huntraced hkeyword hlist hspecial).mp hends)
  cases hshape with
  | quote v => exact hfrom (fun _ _ => rfl) (faultsFrom_pure v s)
  | assign x expr => exact hfrom (fun _ _ => rfl) (faultsFrom_assign x (.assigned x expr) env s)
  | define x expr =>
    exact hfrom (special_define_eq fun _ => rfl) ((faultsFrom_call (.defined x expr) env s).bind
      fun v t => faultsFrom_bindName x env v t)
  | @defineProcedure target x params body htarget hbody =>
    rcases ByAccess.list?_cases s target with hnone | ⟨-, hnil⟩ | ⟨d, vs, rfl, -, -⟩
    · cases hnone.symm.trans htarget
    · cases hnil.symm.trans htarget
    · obtain ⟨hcar, hparams⟩ := Store.list?_pair_symbols_iff.mp htarget
      obtain ⟨p, t, hdefinition, hfresh, hprocedure⟩ := exists_procedure hcar hbody
      have hparams' : t.list? (s.cell d).cdr = some (params.map .symbol) :=
        (hfresh.list?_eq hs (hs.knows_cdr d)).trans hparams
      exact hfrom (special_define_eq hdefinition)
        (faultsFrom_procedure huntraced hprocedure.list?_eq hparams' hbody x env)
  | choice test consequent =>
    exact hfrom (fun _ _ => rfl) (faultsFrom_choice (.choice test consequent) (fun _ => .choice) env)
  | choiceElse test consequent alternative =>
    exact hfrom (fun _ _ => rfl)
      (faultsFrom_choice (.choiceElse test consequent alternative) (fun _ => .choice) env)
  | cond hclauses =>
    obtain ⟨e, t, hspecial, hfaults⟩ := faultsFrom_cond huntraced hs hclauses env
    exact hfrom hspecial hfaults
  | letIn hbindings hbody =>
    obtain ⟨e, t, hspecial, hfaults⟩ := faultsFrom_letIn huntraced hs hlist hbindings hbody env
    exact hfrom hspecial hfaults
  | @lambda params names body hparams hbody =>
    exact hfrom (x := fun _ _ => .ok (.closure s.closures.size)
      (s.addClosure ⟨names, body, env, none⟩).2) (t := s)
      (fun limit _ => lambda_eq limit hparams hbody) (faultsFrom_const fun _ _ => nofun)
  | sequence hne =>
    exact hfrom (fun _ _ => rfl) (faultsFrom_sequence (fun _ => .sequence) hne env s)

/-- **Malformed forms fail before they do anything**, in each well-formed store, each frame and with
strict and lenient reads.  If what stands after a keyword has not the shape for it, the expression ends
in an error that says what is wrong, or in the error that a number is too long to be shown in the
message.  All that has happened then is that cells were added, and besides the expression itself only
expressions in new cells have been called for, so no operand has been evaluated.  A form that has its
shape ends in an error about the shape of a form only if one of the expressions in it does. -/
theorem ends_malformed (strict : Bool) (hs : s.WellFormed)
    (hkeyword : Eval.keyword? (s.cell c).car = some form) (env : FrameId) :
    (¬s.HasShape form c →
      ∃ fault v e t, s.Malformed t form c fault v ∧ t.ShownFault fault v e ∧ s.AddsFresh t ∧
        Ends ⟨strict, false⟩ (.pair c) env s (.error e t) ∧
        ∀ limit limit' call, Reaches ⟨strict, false⟩ limit ⟨.pair c, env, s⟩ limit' call →
          call = ⟨.pair c, env, s⟩ ∨ ∃ d, call.expr = .pair d ∧ s.cells.size ≤ d) ∧
    ∀ head args, s.list? (.pair c) = some (head :: args) → s.WellShaped form args →
      ∀ f t, Ends ⟨strict, false⟩ (.pair c) env s (.error (.ofForm f) t) →
        ∃ expr env' s' t', s.Part form args expr ∧
          Ends ⟨strict, false⟩ expr env' s' (.error (.ofForm f) t') := by
  constructor
  · intro hshape
    exact exists_failure rfl hs hkeyword hshape env
  · intro head args hlist hshape f t hends
    exact exists_faulty_part rfl hs hkeyword hlist hshape hends

/-- The expression `(begin (define (f 1) (write 2)))`. -/
def numberedParameter : Datum :=
  .ofList [.symbol ⟨"begin"⟩, .ofList [.symbol ⟨"define"⟩,
    .ofList [.symbol ⟨"f"⟩, .atom (.number 1)] .nil,
    .ofList [.symbol ⟨"write"⟩, .atom (.number 2)] .nil] .nil] .nil

/-- The parameter is shown in the message, and nothing has been printed.  The sequence around the
definition is not malformed, but fails because of it. -/
theorem ends_malformed_numberedParameter : ∃ s t,
    s = (Interpreter.smallStart.load numberedParameter).2 ∧ s.WellFormed ∧
    (Eval.keyword? (s.cell 6).car = some .define ∧ ¬s.HasShape .define 6 ∧
      Ends .plain (.pair 6) 0 s (.error (.ofForm (.lambdaParameter "1")) t) ∧ s.AddsFresh t) ∧
    Eval.keyword? (s.cell 8).car = some .sequence ∧
    s.list? (.pair 8) = some [Derived.keyword .sequence, .pair 6] ∧
    s.WellShaped .sequence [.pair 6] ∧
    Ends .plain (.pair 8) 0 s (.error (.ofForm (.lambdaParameter "1")) t) ∧
    ∃ expr env s' t', s.Part .sequence [.pair 6] expr ∧
      Ends .plain expr env s' (.error (.ofForm (.lambdaParameter "1")) t') := by
  set s := (Interpreter.smallStart.load numberedParameter).2
  have hnew : Interpreter.new (.standard .standard) .plain false 30 .empty =
      .ok Interpreter.small Interpreter.smallStart := rfl
  have hwf : s.WellFormed := (Interpreter.wellFormed_of_new hnew).load _
  have hdefine : Eval.keyword? (s.cell 6).car = some .define := by decide +kernel
  have hshape : ¬s.HasShape .define 6 := by
    rintro ⟨v, args, hlist, hargs⟩
    have hfound : s.list? (.pair 6) = some [Derived.keyword .define, .pair 1, .pair 3] := by
      decide +kernel
    cases hfound.symm.trans hlist
    cases hargs with
    | @defineProcedure _ x params _ htarget _ =>
      have hnames : s.list? (.pair 1) = some [.symbol ⟨"f"⟩, .number 1] := by decide +kernel
      rw [hnames] at htarget
      cases params <;> cases htarget
  obtain ⟨fault, v, e, t, -, -, hfresh, hends, -⟩ := (ends_malformed false hwf hdefine 0).1 hshape
  have hdefinition : Effect.error? (eval .plain 20 (.pair 6) 0 s) =
      some (.ofForm (.lambdaParameter "1")) := by decide +kernel
  have hstops : Ends .plain (.pair 6) 0 s (.error (.ofForm (.lambdaParameter "1")) _) :=
    ⟨nofun, 20, Effect.eq_error_of_error? hdefinition⟩
  cases hends.unique hstops
  have hbegin : Eval.keyword? (s.cell 8).car = some .sequence := by decide +kernel
  have hlist : s.list? (.pair 8) = some [Derived.keyword .sequence, .pair 6] := by decide +kernel
  have hsequence : s.WellShaped .sequence [.pair 6] := .sequence (List.cons_ne_nil _ _)
  have houter : Ends .plain (.pair 8) 0 s (.error (.ofForm (.lambdaParameter "1")) _) :=
    (ends_special_iff rfl hbegin hlist fun _ _ => rfl).mpr hends
  exact ⟨s, _, rfl, hwf, ⟨hdefine, hshape, hends, hfresh⟩, hbegin, hlist, hsequence, houter,
    (ends_malformed false hwf hbegin 0).2 _ _ hlist hsequence _ _ houter⟩

end Shapes

end SmallScheme
