import SmallScheme.Proofs.CondMeaning
import SmallScheme.Proofs.LetMeaning

/-!
# The shapes of special forms

Each special form has its shape: how many operands it takes, and which of them are names or lists of
names (`Store.WellShaped`).  What else may stand after a keyword is wrong in one of twenty ways, and
for each there is a message, in which sometimes a value is shown (`Store.Misshapen`).

Operands of the wrong shape are refused before any of them is evaluated, with a message for what is
wrong (`Store.exists_refusal`).  There is one exception: the parameters of a procedure that is defined
are not checked before the definition is expanded, but by the expression that makes the procedure.
-/

namespace SmallScheme

/-- The fault of an assignment to something else than a symbol.  The message marks pairs. -/
def assignTargetFault : Value → String → FormFault
  | .pair _ => fun text => .assignTarget ("Pair<" ++ text ++ ">")
  | _ => .assignTarget

namespace Store

/-- The operands of a special form have the shape that is asked for. -/
inductive WellShaped (s : Store) : SpecialForm → List Value → Prop
  | quote (v : Value) : WellShaped s .quote [v]
  | assign (x : Symbol) (expr : Value) : WellShaped s .assign [.symbol x, expr]
  | define (x : Symbol) (expr : Value) : WellShaped s .define [.symbol x, expr]
  /-- The name of a procedure comes first, and then come its parameters. -/
  | defineProcedure {target : Value} {x : Symbol} {params : List Symbol} {body : List Value} :
      s.list? target = some (.symbol x :: params.map .symbol) → body ≠ [] →
      WellShaped s .define (target :: body)
  | choice (test consequent : Value) : WellShaped s .choice [test, consequent]
  | choiceElse (test consequent alternative : Value) :
      WellShaped s .choice [test, consequent, alternative]
  | cond {vs : List Value} {clauses : List (Value × List Value)} : s.Clauses vs clauses →
      WellShaped s .cond vs
  | letIn {bindings : Value} {bound : List (Symbol × Value)} {body : List Value} :
      s.BindingList bindings bound → body ≠ [] → WellShaped s .letIn (bindings :: body)
  | lambda {params : Value} {names : List Symbol} {body : List Value} :
      s.list? params = some (names.map .symbol) → body ≠ [] →
      WellShaped s .lambda (params :: body)
  | sequence {forms : List Value} : forms ≠ [] → WellShaped s .sequence forms

/-- What is wrong with the operands of a special form, and which value is shown in the message.  For a
message without a value, that is the empty list.  The value is found in the second store, where a list
of clauses may have been made for it. -/
inductive Misshapen (s t : Store) : SpecialForm → List Value → (String → FormFault) → Value → Prop
  | quoteOperands {args : List Value} : args.length ≠ 1 →
      Misshapen s t .quote args (fun _ => .quoteOperands) .nil
  | assignOperands {args : List Value} : args.length ≠ 2 →
      Misshapen s t .assign args (fun _ => .assignOperands) .nil
  | assignTarget {target expr : Value} : (∀ x, target ≠ .symbol x) →
      Misshapen s t .assign [target, expr] (assignTargetFault target) target
  | defineEmpty : Misshapen s t .define [] (fun _ => .defineEmpty) .nil
  | defineValue {x : Symbol} {exprs : List Value} : exprs.length ≠ 1 →
      Misshapen s t .define (.symbol x :: exprs) (fun _ => .defineValue x) .nil
  | defineTarget {target : Value} {body : List Value} : (∀ x, target ≠ .symbol x) →
      (∀ d, target = .pair d → ∀ x, (s.cell d).car ≠ .symbol x) →
      Misshapen s t .define (target :: body) .defineTarget target
  | defineBody {d : CellId} {x : Symbol} : (s.cell d).car = .symbol x →
      Misshapen s t .define [.pair d] (fun _ => .defineBody x) .nil
  /-- What is wrong with a procedure is wrong with its definition. -/
  | defineProcedure {d : CellId} {x : Symbol} {body : List Value} {fault : String → FormFault}
      {v : Value} : (s.cell d).car = .symbol x → body ≠ [] →
      Misshapen s t .lambda ((s.cell d).cdr :: body) fault v →
      Misshapen s t .define (.pair d :: body) fault v
  | ifOperands {args : List Value} : args.length ≠ 2 → args.length ≠ 3 →
      Misshapen s t .choice args (fun _ => .ifOperands) .nil
  | clauses {vs : List Value} {fault : String → FormFault} {v : Value} :
      s.MisshapenClauses t vs fault v → Misshapen s t .cond vs fault v
  | letEmpty : Misshapen s t .letIn [] (fun _ => .letEmpty) .nil
  | letBindings {bindings : Value} {body : List Value} : s.list? bindings = none →
      Misshapen s t .letIn (bindings :: body) .letBindings bindings
  | letBody {bindings : Value} {members : List Value} : s.list? bindings = some members →
      Misshapen s t .letIn [bindings] (fun _ => .letBody) .nil
  | letBinding {bindings v : Value} {members body : List Value} :
      s.list? bindings = some members → v ∈ members →
      (∀ x expr, s.list? v ≠ some [.symbol x, expr]) →
      Misshapen s t .letIn (bindings :: body) .letBinding v
  | lambdaEmpty : Misshapen s t .lambda [] (fun _ => .lambdaEmpty) .nil
  | lambdaParameters {params : Value} {body : List Value} : s.list? params = none →
      Misshapen s t .lambda (params :: body) .lambdaParameters params
  | lambdaParameter {params v : Value} {members body : List Value} :
      s.list? params = some members → v ∈ members → (∀ x, v ≠ .symbol x) →
      Misshapen s t .lambda (params :: body) .lambdaParameter v
  | lambdaBody {params : Value} {members : List Value} : s.list? params = some members →
      Misshapen s t .lambda [params] (fun _ => .lambdaBody) .nil
  | sequence : Misshapen s t .sequence [] (fun _ => .emptySequence) .nil

variable {s t : Store} {form : SpecialForm} {args body vs : List Value} {params v : Value}
  {fault : String → FormFault} {limit : Nat}

/-! ## Lists of names -/

/-- No name is missing in a chain of names, so all its cells are there. -/
lemma spine_of_symbols {names : List Symbol} {last : Value}
    (hchain : s.chainWithin? limit v = some (names.map .symbol, last)) :
    ∃ cs, s.Spine v cs last := by
  induction limit generalizing v names with
  | zero =>
    cases v with
    | pair c => simp at hchain
    | _ =>
      simp only [chainWithin?, Option.some.injEq, Prod.mk.injEq] at hchain
      obtain ⟨-, rfl⟩ := hchain
      exact ⟨[], .last (by simp)⟩
  | succ limit ih =>
    cases v with
    | pair c =>
      rw [chainWithin?_pair_succ] at hchain
      obtain ⟨⟨rest, last'⟩, hrest, heq⟩ := Option.map_eq_some_iff.mp hchain
      simp only [Prod.mk.injEq] at heq
      obtain ⟨heq, rfl⟩ := heq
      cases names with
      | nil => cases heq
      | cons x names =>
        obtain ⟨hcar, rfl⟩ := List.cons.inj heq
        have hc : c < s.cells.size := by
          by_contra hc
          rw [cell_of_size_le (not_lt.mp hc)] at hcar
          cases hcar
        obtain ⟨cs, hcs⟩ := ih hrest
        exact ⟨c :: cs, .pair hc hcs⟩
    | _ =>
      simp only [chainWithin?, Option.some.injEq, Prod.mk.injEq] at hchain
      obtain ⟨-, rfl⟩ := hchain
      exact ⟨[], .last (by simp)⟩

/-- A list of names is a spine whose cells hold the names. -/
lemma list?_symbols_iff {names : List Symbol} :
    s.list? v = some (names.map .symbol) ↔
      ∃ cs, s.Spine v cs .nil ∧ (cs.map fun c => (s.cell c).car) = names.map .symbol := by
  constructor
  · intro hlist
    unfold list? at hlist
    split at hlist
    · rename_i members hchain
      rw [Option.some.inj hlist] at hchain
      obtain ⟨cs, hcs⟩ := spine_of_symbols hchain
      rw [hcs.chain?_eq] at hchain
      exact ⟨cs, hcs, (Prod.mk.inj (Option.some.inj hchain)).1⟩
    · cases hlist
  · rintro ⟨cs, hcs, hmembers⟩
    rw [list?, hcs.chain?_eq, ← hmembers]

/-- A pair is a list of names if its first part is a name and its second part is a list of names. -/
lemma list?_pair_symbols_iff {d : CellId} {x : Symbol} {names : List Symbol} :
    s.list? (.pair d) = some (.symbol x :: names.map .symbol) ↔
      (s.cell d).car = .symbol x ∧ s.list? (s.cell d).cdr = some (names.map .symbol) := by
  have hpair : s.list? (.pair d) = some ((x :: names).map .symbol) ↔ _ := list?_symbols_iff
  rw [List.map_cons] at hpair
  rw [hpair, list?_symbols_iff]
  constructor
  · rintro ⟨cs, hcs, hmembers⟩
    obtain ⟨-, ds, rfl, hds⟩ := hcs.pair_inv
    obtain ⟨hcar, hrest⟩ := List.cons.inj hmembers
    exact ⟨hcar, ds, hds, hrest⟩
  · rintro ⟨hcar, ds, hds, hrest⟩
    have hd : d < s.cells.size := by
      by_contra hd
      rw [cell_of_size_le (not_lt.mp hd)] at hcar
      cases hcar
    exact ⟨d :: ds, .pair hd hds, by rw [List.map_cons, hcar, hrest]⟩

/-! ## Refusals -/

/-- Whatever evaluates its parts, the form fails because something is wrong with its operands, and
nothing has happened but that cells were added. -/
structure Refuses (s t : Store) (form : SpecialForm) (args : List Value)
    (fault : String → FormFault) (v : Value) : Prop where
  misshapen : s.Misshapen t form args fault v
  addsFresh : s.AddsFresh t
  special_eq : ∀ limit ev env,
    Eval.special limit ev form args env s = .error (t.faultError limit fault v) t

/-- A message in which nothing is shown is there with any limit. -/
lemma malformed_eq {α : Type} (limit : Nat) (fault : FormFault) (s : Store) :
    (Effect.malformed fault : Effect α) s =
      .error (s.faultError limit (fun _ => fault) .nil) s := by
  unfold faultError render renderWithin
  rfl

/-- Operands that are refused with a message in which nothing is shown. -/
lemma refuses_of_malformed {fault : FormFault}
    (h : s.Misshapen s form args (fun _ => fault) .nil)
    (hspecial : ∀ limit ev env,
      Eval.special limit ev form args env s = (Effect.malformed fault : Effect Value) s) :
    s.Refuses s form args (fun _ => fault) .nil :=
  ⟨h, .refl s, fun limit ev env => (hspecial limit ev env).trans (malformed_eq limit fault s)⟩

/-- Operands that are refused because of a value that is shown. -/
lemma refuses_of_malformedBy (h : s.Misshapen s form args fault v)
    (hspecial : ∀ limit ev env,
      Eval.special limit ev form args env s = .error (s.faultError limit fault v) s) :
    s.Refuses s form args fault v :=
  ⟨h, .refl s, hspecial⟩

/-! ### Assignments -/

lemma assignTarget_eq (limit : Nat) (ev : Evaluator) (target expr : Value) (env : FrameId)
    (htarget : ∀ x, target ≠ .symbol x) (s : Store) :
    Eval.special limit ev .assign [target, expr] env s =
      .error (s.faultError limit (assignTargetFault target) target) s := by
  have hassign : Eval.special limit ev .assign [target, expr] env s =
      (do Effect.malformed (.assignTarget (← Effect.ask fun s => s.display limit target)) :
        Effect Value) s := by
    rcases target with (_ | _ | _ | x | _) | _ | _ | _ | _
    case atom.symbol => exact absurd rfl (htarget x)
    all_goals rfl
  rw [hassign, faultError]
  cases target with
  | pair c =>
    -- the text of a pair is marked after it has been printed
    have hdisplay : s.display limit (.pair c) =
        s.render limit (.pair c) >>= fun text => .ok ("Pair<" ++ text ++ ">") := rfl
    cases hrender : s.render limit (.pair c) with
    | ok text => rw [Effect.bind_ok (Effect.ask_ok (hdisplay.trans (by rw [hrender]; rfl)))]; rfl
    | error e => rw [Effect.bind_error (Effect.ask_error (hdisplay.trans (by rw [hrender]; rfl)))]
  | _ =>
    cases hrender : s.render limit _ with
    | ok text => rw [Effect.bind_ok (Effect.ask_ok hrender)]; rfl
    | error e => rw [Effect.bind_error (Effect.ask_error hrender)]

lemma assignOperands_eq (limit : Nat) (ev : Evaluator) (env : FrameId) (hargs : args.length ≠ 2) :
    Eval.special limit ev .assign args env = Effect.malformed .assignOperands := by
  show Eval.assign limit ev args env = _
  unfold Eval.assign
  split
  · exact absurd rfl hargs
  · exact absurd rfl hargs
  · rfl

lemma exists_refusal_assign (h : ¬s.WellShaped .assign args) :
    ∃ fault v, s.Refuses s .assign args fault v := by
  by_cases hargs : args.length = 2
  · obtain ⟨target, expr, rfl⟩ := List.length_eq_two.mp hargs
    have htarget (x : Symbol) : target ≠ .symbol x := by
      rintro rfl
      exact h (.assign x expr)
    exact ⟨_, _, refuses_of_malformedBy (.assignTarget htarget) fun limit ev env =>
      assignTarget_eq limit ev target expr env htarget s⟩
  · refine ⟨_, _, refuses_of_malformed (.assignOperands hargs) fun limit ev env => ?_⟩
    rw [assignOperands_eq limit ev env hargs]

/-! ### Procedures -/

/-- The first parameter that is no name is found. -/
lemma exists_badParameter (h : ∀ names : List Symbol, vs ≠ names.map .symbol) (s : Store) :
    ∃ v ∈ vs, (∀ x, v ≠ .symbol x) ∧
      ∀ limit, Eval.parameters limit vs s = .error (s.faultError limit .lambdaParameter v) s := by
  induction vs with
  | nil => exact absurd rfl (h [])
  | cons v vs ih =>
    by_cases hv : ∃ x, v = .symbol x
    · obtain ⟨x, rfl⟩ := hv
      obtain ⟨v, hmem, hv, hvs⟩ := ih fun names hnames => h (x :: names) (by rw [hnames]; rfl)
      refine ⟨v, List.mem_cons_of_mem _ hmem, hv, fun limit => ?_⟩
      exact Effect.bind_error (hvs limit)
    · have hv (x : Symbol) : v ≠ .symbol x := fun hx => hv ⟨x, hx⟩
      refine ⟨v, List.mem_cons_self, hv, fun limit => ?_⟩
      rw [← malformedBy_eq]
      rcases v with (_ | _ | _ | x | _) | _ | _ | _ | _
      case atom.symbol => exact absurd rfl (hv x)
      all_goals rfl

lemma exists_refusal_lambda (h : ¬s.WellShaped .lambda args) :
    ∃ fault v, s.Refuses s .lambda args fault v := by
  rcases args with _ | ⟨params, body⟩
  · exact ⟨_, _, refuses_of_malformed .lambdaEmpty fun _ _ _ => rfl⟩
  · cases hlist : s.list? params with
    | none =>
      refine ⟨_, _, refuses_of_malformedBy (.lambdaParameters hlist) fun limit ev env => ?_⟩
      rw [← malformedBy_eq, Eval.special, Eval.lambda, Effect.get_bind, hlist]
    | some members =>
      have hrun (limit : Nat) (ev : Evaluator) (env : FrameId) :
          Eval.special limit ev .lambda (params :: body) env s =
            (do
              let names ← Eval.parameters limit members
              if body.isEmpty then Effect.malformed .lambdaBody
              modifyGet fun s => s.addClosure ⟨names, body, env, none⟩ : Effect Value) s := by
        rw [Eval.special, Eval.lambda, Effect.get_bind, hlist]
      by_cases hnames : ∃ names : List Symbol, members = names.map .symbol
      · obtain ⟨names, rfl⟩ := hnames
        have hbody : body = [] := by
          by_contra hbody
          exact h (.lambda hlist hbody)
        subst hbody
        refine ⟨_, _, refuses_of_malformed (.lambdaBody hlist) fun limit ev env => ?_⟩
        rw [hrun, Effect.bind_ok (parameters_symbols limit names s)]
        rfl
      · have hnames (names : List Symbol) : members ≠ names.map .symbol :=
          fun heq => hnames ⟨names, heq⟩
        obtain ⟨v, hmem, hv, hparameters⟩ := exists_badParameter hnames s
        refine ⟨_, _, refuses_of_malformedBy (.lambdaParameter hlist hmem hv) fun limit ev env => ?_⟩
        rw [hrun, Effect.bind_error (hparameters limit)]

/-! ### Local bindings -/

/-- The first binding of another shape is found. -/
lemma exists_badBinding
    (h : ∀ bound : List (Symbol × Value),
      ¬List.Forall₂ (fun v b => s.list? v = some [.symbol b.1, b.2]) vs bound) :
    ∃ v ∈ vs, (∀ x expr, s.list? v ≠ some [.symbol x, expr]) ∧
      ∀ limit, vs.mapM (Derived.binding limit) s =
        .error (s.faultError limit .letBinding v) s := by
  induction vs with
  | nil => exact absurd .nil (h [])
  | cons v vs ih =>
    by_cases hv : ∃ x expr, s.list? v = some [.symbol x, expr]
    · obtain ⟨x, expr, hlist⟩ := hv
      obtain ⟨w, hmem, hw, hvs⟩ := ih fun bound hbound => h ((x, expr) :: bound) (.cons hlist hbound)
      refine ⟨w, List.mem_cons_of_mem _ hmem, hw, fun limit => ?_⟩
      have hfound : Derived.binding limit v s = .ok (x, expr) s := by
        rw [Derived.binding, Effect.get_bind, hlist]
        rfl
      rw [List.mapM_cons, Effect.bind_ok hfound, Effect.bind_error (hvs limit)]
    · have hv (x : Symbol) (expr : Value) : s.list? v ≠ some [.symbol x, expr] :=
        fun hlist => hv ⟨x, expr, hlist⟩
      refine ⟨v, List.mem_cons_self, hv, fun limit => ?_⟩
      have hfails : Derived.binding limit v s = .error (s.faultError limit .letBinding v) s := by
        rw [← malformedBy_eq, Derived.binding, Effect.get_bind]
        refine congrFun ?_ s
        split
        · rename_i x expr hlist
          exact absurd hlist (hv x expr)
        · rfl
      rw [List.mapM_cons, Effect.bind_error hfails]

lemma exists_refusal_letIn (h : ¬s.WellShaped .letIn args) :
    ∃ fault v, s.Refuses s .letIn args fault v := by
  rcases args with _ | ⟨bindings, body⟩
  · exact ⟨_, _, refuses_of_malformed .letEmpty fun _ _ _ => rfl⟩
  · have hspecial {e : Error} {limit : Nat}
        (hexpanded : Derived.letIn limit bindings body s = .error e s) (ev : Evaluator)
        (env : FrameId) :
        Eval.special limit ev .letIn (bindings :: body) env s = .error e s :=
      Effect.bind_error hexpanded
    cases hlist : s.list? bindings with
    | none =>
      refine ⟨_, _, refuses_of_malformedBy (.letBindings hlist) fun limit => hspecial ?_⟩
      rw [← malformedBy_eq, Derived.letIn, Effect.get_bind, hlist]
    | some members =>
      by_cases hbody : body = []
      · subst hbody
        refine ⟨_, _, refuses_of_malformed (.letBody hlist) fun limit => hspecial ?_⟩
        rw [Derived.letIn, Effect.get_bind, hlist]
        rfl
      · have hbound (bound : List (Symbol × Value)) :
            ¬List.Forall₂ (fun v b => s.list? v = some [.symbol b.1, b.2]) members bound :=
          fun hbound => h (.letIn ⟨members, hlist, hbound⟩ hbody)
        obtain ⟨v, hmem, hv, hmembers⟩ := exists_badBinding hbound
        refine ⟨_, _, refuses_of_malformedBy (.letBinding hlist hmem hv) fun limit => hspecial ?_⟩
        rw [Derived.letIn, Effect.get_bind, hlist]
        simp only [List.isEmpty_iff, hbody, if_false]
        rw [Effect.bind_error (hmembers limit)]

/-! ### Definitions -/

/-- A definition is refused at once, or else it has a name and a body, but the parameters of its
procedure are refused. -/
lemma exists_refusal_define (h : ¬s.WellShaped .define args) :
    (∃ fault v, s.Refuses s .define args fault v) ∨
      ∃ d x body, args = .pair d :: body ∧ (s.cell d).car = .symbol x ∧ body ≠ [] ∧
        ¬s.WellShaped .lambda ((s.cell d).cdr :: body) := by
  have hspecial {args : List Value} {e : Error} {limit : Nat}
      (hdefinition : Derived.definition limit args s = .error e s) (ev : Evaluator) (env : FrameId) :
      Eval.special limit ev .define args env s = .error e s :=
    Effect.bind_error hdefinition
  rcases args with _ | ⟨target, body⟩
  · exact .inl ⟨_, _, refuses_of_malformed .defineEmpty fun _ _ _ => rfl⟩
  · by_cases hsymbol : ∃ x, target = .symbol x
    · obtain ⟨x, rfl⟩ := hsymbol
      have hbody : body.length ≠ 1 := by
        intro hlength
        obtain ⟨expr, rfl⟩ := List.length_eq_one_iff.mp hlength
        exact h (.define x expr)
      refine .inl ⟨_, _, refuses_of_malformed (.defineValue hbody) fun limit => hspecial ?_⟩
      rcases body with _ | ⟨expr, _ | ⟨expr', body⟩⟩
      · rfl
      · exact absurd rfl hbody
      · rfl
    · have hsymbol (x : Symbol) : target ≠ .symbol x := fun hx => hsymbol ⟨x, hx⟩
      by_cases hname : ∃ d x, target = .pair d ∧ (s.cell d).car = .symbol x
      · obtain ⟨d, x, rfl, hcar⟩ := hname
        by_cases hbody : body = []
        · subst hbody
          refine .inl ⟨_, _, refuses_of_malformed (.defineBody hcar) fun limit => hspecial ?_⟩
          rw [Derived.definition, Effect.get_bind, hcar]
          rfl
        · refine .inr ⟨d, x, body, rfl, hcar, hbody, fun hlambda => ?_⟩
          cases hlambda with
          | lambda hparams =>
            exact h (.defineProcedure (list?_pair_symbols_iff.mpr ⟨hcar, hparams⟩) hbody)
      · have hname (d : CellId) (hd : target = .pair d) (x : Symbol) : (s.cell d).car ≠ .symbol x :=
          fun hcar => hname ⟨d, x, hd, hcar⟩
        refine .inl ⟨_, _, refuses_of_malformedBy (.defineTarget hsymbol hname) fun limit =>
          hspecial ?_⟩
        rw [← malformedBy_eq]
        rcases target with (_ | _ | _ | x | _) | d | _ | _ | _
        case atom.symbol => exact absurd rfl (hsymbol x)
        case pair =>
          rw [Derived.definition, Effect.get_bind]
          rcases hcar : (s.cell d).car with (_ | _ | _ | x | _) | _ | _ | _ | _
          case atom.symbol => exact absurd hcar (hname d rfl x)
          all_goals rfl
        all_goals rfl

/-! ### All forms -/

lemma exists_refusal_quote (h : ¬s.WellShaped .quote args) :
    ∃ fault v, s.Refuses s .quote args fault v := by
  have hargs : args.length ≠ 1 := by
    intro hlength
    obtain ⟨v, rfl⟩ := List.length_eq_one_iff.mp hlength
    exact h (.quote v)
  refine ⟨_, _, refuses_of_malformed (.quoteOperands hargs) fun _ _ _ => ?_⟩
  rcases args with _ | ⟨v, _ | ⟨w, rest⟩⟩
  · rfl
  · exact absurd rfl hargs
  · rfl

lemma exists_refusal_choice (h : ¬s.WellShaped .choice args) :
    ∃ fault v, s.Refuses s .choice args fault v := by
  have htwo : args.length ≠ 2 := by
    intro hlength
    obtain ⟨test, consequent, rfl⟩ := List.length_eq_two.mp hlength
    exact h (.choice test consequent)
  have hthree : args.length ≠ 3 := by
    intro hlength
    obtain ⟨test, consequent, alternative, rfl⟩ := List.length_eq_three.mp hlength
    exact h (.choiceElse test consequent alternative)
  refine ⟨_, _, refuses_of_malformed (.ifOperands htwo hthree) fun _ ev env => ?_⟩
  show Eval.choice ev args env s = _
  rcases args with _ | ⟨v₁, _ | ⟨v₂, _ | ⟨v₃, _ | ⟨v₄, rest⟩⟩⟩⟩
  · rfl
  · rfl
  · exact absurd rfl htwo
  · exact absurd rfl hthree
  · rfl

lemma exists_refusal_cond (h : ¬s.WellShaped .cond args) :
    ∃ fault v t, s.Refuses t .cond args fault v := by
  obtain ⟨fault, v, t, hshape, hfresh, hclauses⟩ :=
    exists_misshapenClauses fun ⟨_, hclauses⟩ => h (.cond hclauses)
  refine ⟨fault, v, t, .clauses hshape, hfresh, fun limit ev env => ?_⟩
  have hexpanded : Derived.cond limit args s = .error (t.faultError limit fault v) t :=
    Effect.bind_error (hclauses limit)
  exact Effect.bind_error hexpanded

lemma exists_refusal_sequence (h : ¬s.WellShaped .sequence args) :
    ∃ fault v, s.Refuses s .sequence args fault v := by
  rcases args with _ | ⟨v, rest⟩
  · exact ⟨_, _, refuses_of_malformed .sequence fun _ _ _ => rfl⟩
  · exact absurd (.sequence (List.cons_ne_nil v rest)) h

/-- **Operands of another shape are refused** before any of them is evaluated, apart from the definition
of a procedure whose parameters are refused. -/
theorem exists_refusal (h : ¬s.WellShaped form args) :
    (∃ fault v t, s.Refuses t form args fault v) ∨
      form = .define ∧ ∃ d x body, args = .pair d :: body ∧ (s.cell d).car = .symbol x ∧
        body ≠ [] ∧ ¬s.WellShaped .lambda ((s.cell d).cdr :: body) := by
  have hsame (h : ∃ fault v, s.Refuses s form args fault v) :
      ∃ fault v t, s.Refuses t form args fault v :=
    h.imp fun _ => .imp fun _ hrefuses => ⟨s, hrefuses⟩
  cases form with
  | quote => exact .inl (hsame (exists_refusal_quote h))
  | assign => exact .inl (hsame (exists_refusal_assign h))
  | define => exact (exists_refusal_define h).imp hsame fun hlambda => ⟨rfl, hlambda⟩
  | choice => exact .inl (hsame (exists_refusal_choice h))
  | cond => exact .inl (exists_refusal_cond h)
  | letIn => exact .inl (hsame (exists_refusal_letIn h))
  | lambda => exact .inl (hsame (exists_refusal_lambda h))
  | sequence => exact .inl (hsame (exists_refusal_sequence h))

end Store

end SmallScheme
