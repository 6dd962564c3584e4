import SmallScheme.Proofs.Deed
import SmallScheme.Proofs.RepeatedPrimitives

/-!
# Evaluation that is repeated

Each rule of the language does the same to expressions with other numbers: the expansion of derived
forms, and the rules of evaluation, these for any evaluators of which the second one repeats the first
one.

The main result is `Replication.repeats_eval`: a program cannot find out which numbers its cells and
closures have, nor whether there are others that it cannot reach.
-/

namespace SmallScheme

namespace Replication

variable {R : Replication} {limit n : Nat} {v w : Value} {vs ws : List Value}

/-! ## Derived forms -/

section Derived

/-- The clause has the other numbers. -/
def CopiesClause (R : Replication) (n : Nat) (c d : Value × List Value) : Prop :=
  R.Copies n c.1 d.1 ∧ R.CopiesAll n c.2 d.2

/-- The definition has the other numbers. -/
def CopiesBinding (R : Replication) (n : Nat) (b b' : Symbol × Value) : Prop :=
  b'.1 = b.1 ∧ R.Copies n b.2 b'.2

lemma CopiesClause.mono {m : Nat} {c d : Value × List Value} (h : R.CopiesClause m c d)
    (hle : m ≤ n) : R.CopiesClause n c d :=
  ⟨h.1.mono hle, h.2.mono hle⟩

lemma CopiesBinding.mono {m : Nat} {b b' : Symbol × Value} (h : R.CopiesBinding m b b')
    (hle : m ≤ n) : R.CopiesBinding n b b' :=
  ⟨h.1, h.2.mono hle⟩

/-- What a list consists of, in both stores. -/
lemma list?_copies {s t : Store} (hs : R.Holds s t) (hv : R.Copies s.cells.size v w) :
    (s.list? v = none ∧ t.list? w = none) ∨
      ∃ vs ws, s.list? v = some vs ∧ t.list? w = some ws ∧ R.CopiesAll s.cells.size vs ws := by
  obtain ⟨rfl, hwithin⟩ := hv
  rw [hs.list?_value hwithin]
  cases hlist : s.list? v with
  | none => exact .inl ⟨rfl, rfl⟩
  | some vs => exact .inr ⟨vs, _, rfl, rfl, rfl, hs.closed.within_of_list? hlist⟩

lemma repeats_newList (hvs : R.CopiesAll n vs ws) :
    R.Repeats n R.Copies (Derived.newList vs) (Derived.newList ws) :=
  repeats_list hvs

lemma repeats_newPair (hv : R.Copies n v w) {v' w' : Value} (hv' : R.Copies n v' w') :
    R.Repeats n R.Copies (Derived.newPair v v') (Derived.newPair w w') :=
  repeats_cons hv hv'

lemma repeats_sequenceForm (hvs : R.CopiesAll n vs ws) :
    R.Repeats n R.Copies (Derived.sequence vs) (Derived.sequence ws) := by
  have hlist (vs ws : List Value) (h : R.CopiesAll n vs ws) :
      R.Repeats n R.Copies (Derived.newList (Derived.keyword .sequence :: vs))
        (Derived.newList (Derived.keyword .sequence :: ws)) :=
    repeats_newList (h.cons (copies_atom n _))
  rcases vs with _ | ⟨v, _ | ⟨v', vs⟩⟩
  · rw [hvs.of_nil]
    exact hlist [] [] (copiesAll_nil n)
  · obtain ⟨w, ws, rfl, hv, hnil⟩ := hvs.of_cons
    rw [hnil.of_nil]
    exact repeats_pure_value hv
  · obtain ⟨w, ws, rfl, hv, hrest⟩ := id hvs.of_cons
    obtain ⟨w', ws, rfl, hv', -⟩ := hrest.of_cons
    exact hlist _ _ hvs

lemma repeats_lambdaForm (hv : R.Copies n v w) (hvs : R.CopiesAll n vs ws) :
    R.Repeats n R.Copies (Derived.lambda v vs) (Derived.lambda w ws) := by
  refine (repeats_newList hvs).bind fun _ body body' hk hbody => ?_
  refine (repeats_newPair (hv.mono hk) hbody).bind fun _ operands operands' _ hoperands => ?_
  exact repeats_newPair (copies_atom _ _) hoperands

lemma repeats_clause (hv : R.Copies n v w) :
    R.Repeats n R.CopiesClause (Derived.clause limit v) (Derived.clause limit w) := by
  refine repeats_get_bind fun s t hs hn => ?_
  have hfault : R.Repeats s.cells.size R.CopiesClause (Effect.malformedBy limit .condClause v)
      (Effect.malformedBy limit .condClause w) :=
    repeats_malformedBy limit _ (hv.mono hn)
  rcases list?_copies hs (hv.mono hn) with ⟨h, h'⟩ | ⟨vs, ws, h, h', hvs⟩
  · rw [h, h']
    exact hfault
  · rw [h, h']
    cases vs with
    | nil =>
      rw [hvs.of_nil]
      exact hfault
    | cons test forms =>
      obtain ⟨test', forms', rfl, htest, hforms⟩ := hvs.of_cons
      exact repeats_pure fun _ hk => ⟨htest.mono hk, hforms.mono hk⟩

lemma isElse_copies (hv : R.Copies n v w) : Derived.isElse w = Derived.isElse v := by
  rw [hv.1]
  exact R.value_beq_atom v _

lemma repeats_clauses (hvs : R.CopiesAll n vs ws) :
    R.Repeats n (fun k => List.Forall₂ (R.CopiesClause k)) (Derived.clauses limit vs)
      (Derived.clauses limit ws) := by
  induction vs generalizing n ws with
  | nil =>
    rw [hvs.of_nil]
    exact repeats_pure fun _ _ => .nil
  | cons v vs ih =>
    obtain ⟨w, ws, rfl, hv, hrest⟩ := id hvs.of_cons
    unfold Derived.clauses
    refine (repeats_clause hv).bind fun k clause clause' hk hclause => ?_
    obtain ⟨test, forms⟩ := clause
    obtain ⟨test', forms'⟩ := clause'
    have helse : Derived.isElse test' = Derived.isElse test := isElse_copies hclause.1
    have hlast : ws.isEmpty = vs.isEmpty := by
      rw [hrest.1]
      exact List.isEmpty_map
    have hempty : forms'.isEmpty = forms.isEmpty := by
      rw [show forms' = forms.map R.value from hclause.2.1]
      exact List.isEmpty_map
    have hclauses {m : Nat} (hm : k ≤ m) : R.Repeats m (fun k => List.Forall₂ (R.CopiesClause k))
        (do return (test, forms) :: (← Derived.clauses limit vs))
        (do return (test', forms') :: (← Derived.clauses limit ws)) := by
      refine (ih (hrest.mono (hk.trans hm))).bind fun m' _ _ hm' hclauses => ?_
      refine repeats_pure fun _ hle => .cons (hclause.mono (hm.trans (hm'.trans hle))) ?_
      exact hclauses.imp fun _ _ h => h.mono hle
    have hbody {m : Nat} (hm : k ≤ m) : R.Repeats m (fun k => List.Forall₂ (R.CopiesClause k))
        (do
          if forms.isEmpty then Effect.malformedBy limit .condBody v
          return (test, forms) :: (← Derived.clauses limit vs))
        (do
          if forms'.isEmpty then Effect.malformedBy limit .condBody w
          return (test', forms') :: (← Derived.clauses limit ws)) := by
      rw [hempty]
      dsimp only
      split
      · refine Repeats.bind (Q := Same) ?_ fun _ _ _ hle _ => hclauses (hm.trans hle)
        exact repeats_malformedBy limit _ (hv.mono (hk.trans hm))
      · exact hclauses hm
    dsimp only
    rw [helse, hlast]
    split
    · refine (repeats_newList (hvs.mono hk)).bind fun m list list' hm hlist => ?_
      refine Repeats.bind (Q := Same) ?_ fun _ _ _ hle _ => hbody (hm.trans hle)
      exact repeats_malformedBy limit _ hlist
    · exact hbody le_rfl

lemma repeats_choices {clauses clauses' : List (Value × List Value)}
    (h : List.Forall₂ (R.CopiesClause n) clauses clauses') :
    R.Repeats n R.Copies (Derived.choices clauses) (Derived.choices clauses') := by
  induction h with
  | nil => exact repeats_pure_atom _
  | @cons clause clause' _ _ hclause _ ih =>
    refine ih.bind fun k otherwise otherwise' hk hotherwise => ?_
    refine (repeats_sequenceForm (hclause.2.mono hk)).bind
      fun m consequent consequent' hm hconsequent => ?_
    rw [isElse_copies hclause.1]
    split
    · exact repeats_pure_value hconsequent
    · refine repeats_newList ?_
      refine .cons (copies_atom _ _) (.cons (hclause.1.mono (hk.trans hm)) ?_)
      exact .cons hconsequent (.cons (hotherwise.mono hm) (copiesAll_nil _))

lemma repeats_cond (hvs : R.CopiesAll n vs ws) :
    R.Repeats n R.Copies (Derived.cond limit vs) (Derived.cond limit ws) :=
  (repeats_clauses hvs).bind fun _ _ _ _ hclauses => repeats_choices hclauses

lemma repeats_binding (hv : R.Copies n v w) :
    R.Repeats n R.CopiesBinding (Derived.binding limit v) (Derived.binding limit w) := by
  refine repeats_get_bind fun s t hs hn => ?_
  have hfault : R.Repeats s.cells.size R.CopiesBinding (Effect.malformedBy limit .letBinding v)
      (Effect.malformedBy limit .letBinding w) :=
    repeats_malformedBy limit _ (hv.mono hn)
  rcases list?_copies hs (hv.mono hn) with ⟨h, h'⟩ | ⟨vs, ws, h, h', hvs⟩
  · rw [h, h']
    exact hfault
  · obtain ⟨rfl, hwithin⟩ := hvs
    rw [h, h']
    rcases vs with _ | ⟨v₁, _ | ⟨v₂, _ | ⟨v₃, vs⟩⟩⟩
    · exact hfault
    · cases v₁ with
      | atom a => cases a <;> exact hfault
      | _ => exact hfault
    · have hform : R.Copies s.cells.size v₂ (R.value v₂) := ⟨rfl, hwithin v₂ (by simp)⟩
      cases v₁ with
      | atom a =>
        cases a with
        | symbol x => exact repeats_pure fun _ hk => ⟨rfl, hform.mono hk⟩
        | _ => exact hfault
      | _ => exact hfault
    · cases v₁ with
      | atom a => cases a <;> exact hfault
      | _ => exact hfault

lemma repeats_bindings (hvs : R.CopiesAll n vs ws) :
    R.Repeats n (fun k => List.Forall₂ (R.CopiesBinding k)) (vs.mapM (Derived.binding limit))
      (ws.mapM (Derived.binding limit)) := by
  induction vs generalizing n ws with
  | nil =>
    rw [hvs.of_nil]
    exact repeats_pure fun _ _ => .nil
  | cons v vs ih =>
    obtain ⟨w, ws, rfl, hv, hvs⟩ := hvs.of_cons
    rw [List.mapM_cons, List.mapM_cons]
    refine (repeats_binding hv).bind fun k b b' hk hb => ?_
    refine (ih (hvs.mono hk)).bind fun m bs bs' hm hbs => ?_
    refine repeats_pure fun _ hle => .cons (hb.mono (hm.trans hle)) ?_
    exact hbs.imp fun _ _ h => h.mono hle

/-- The same names are bound, to expressions with the other numbers. -/
lemma copies_bound {bound bound' : List (Symbol × Value)}
    (h : List.Forall₂ (R.CopiesBinding n) bound bound') :
    bound'.map Prod.fst = bound.map Prod.fst ∧
      R.CopiesAll n (bound.map Prod.snd) (bound'.map Prod.snd) := by
  induction h with
  | nil => exact ⟨rfl, copiesAll_nil n⟩
  | cons hb _ ih => exact ⟨congrArg₂ List.cons hb.1 ih.1, ih.2.cons hb.2⟩

/-- Names are the same in both stores. -/
lemma copiesAll_names {α : Type} (name : α → Symbol) (as : List α) :
    R.CopiesAll n (as.map fun a => .symbol (name a)) (as.map fun a => .symbol (name a)) := by
  induction as with
  | nil => exact copiesAll_nil n
  | cons a as ih => exact ih.cons (copies_atom n _)

lemma repeats_letIn (hv : R.Copies n v w) (hvs : R.CopiesAll n vs ws) :
    R.Repeats n R.Copies (Derived.letIn limit v vs) (Derived.letIn limit w ws) := by
  refine repeats_get_bind fun s t hs hn => ?_
  rcases list?_copies hs (hv.mono hn) with ⟨h, h'⟩ | ⟨members, members', h, h', hmembers⟩
  · rw [h, h']
    exact repeats_malformedBy limit _ (hv.mono hn)
  · rw [h, h']
    have hempty : ws.isEmpty = vs.isEmpty := by
      rw [hvs.1]
      exact List.isEmpty_map
    have happlication {k : Nat} (hk : s.cells.size ≤ k) : R.Repeats k R.Copies
        (do
          let bound ← members.mapM (Derived.binding limit)
          let params ← Derived.newList (bound.map fun binding => .symbol binding.1)
          Derived.newList ((← Derived.lambda params vs) :: bound.map Prod.snd))
        (do
          let bound ← members'.mapM (Derived.binding limit)
          let params ← Derived.newList (bound.map fun binding => .symbol binding.1)
          Derived.newList ((← Derived.lambda params ws) :: bound.map Prod.snd)) := by
      refine (repeats_bindings (hmembers.mono hk)).bind fun k₁ bound bound' hk₁ hbound => ?_
      obtain ⟨hnames, hexprs⟩ := copies_bound hbound
      have hparams : bound'.map (fun binding => Value.symbol binding.1) =
          bound.map fun binding => Value.symbol binding.1 := by
        have hsymbols := congrArg (List.map Value.symbol) hnames
        rw [List.map_map, List.map_map] at hsymbols
        exact hsymbols
      rw [hparams]
      refine (repeats_newList (copiesAll_names Prod.fst bound)).bind
        fun k₂ params params' hk₂ hparams => ?_
      have hbody := hvs.mono (hn.trans (hk.trans (hk₁.trans hk₂)))
      refine (repeats_lambdaForm hparams hbody).bind fun k₃ proc proc' hk₃ hproc => ?_
      exact repeats_newList (.cons hproc (hexprs.mono (hk₂.trans hk₃)))
    dsimp only
    rw [hempty]
    split
    · refine Repeats.bind (Q := Same) (repeats_malformed _) fun _ _ _ hk _ => happlication hk
    · exact happlication le_rfl

lemma repeats_definition (hvs : R.CopiesAll n vs ws) :
    R.Repeats n R.CopiesBinding (Derived.definition limit vs) (Derived.definition limit ws) := by
  cases vs with
  | nil =>
    rw [hvs.of_nil]
    exact repeats_malformed _
  | cons target body =>
    obtain ⟨target', body', rfl, htarget, hbody⟩ := hvs.of_cons
    have hfault {k : Nat} (hk : n ≤ k) : R.Repeats k R.CopiesBinding
        (Effect.malformedBy limit .defineTarget target)
        (Effect.malformedBy limit .defineTarget target') :=
      repeats_malformedBy limit _ (htarget.mono hk)
    obtain ⟨rfl, -⟩ := htarget
    cases target with
    | atom a =>
      cases a with
      | symbol x =>
        rcases body with _ | ⟨form, _ | ⟨form', body⟩⟩
        · rw [hbody.of_nil]
          exact repeats_malformed _
        · obtain ⟨w, ws, rfl, hform, hnil⟩ := hbody.of_cons
          rw [hnil.of_nil]
          exact repeats_pure fun _ hk => ⟨rfl, hform.mono hk⟩
        · obtain ⟨w, ws, rfl, -, hrest⟩ := hbody.of_cons
          obtain ⟨w', ws, rfl, -, -⟩ := hrest.of_cons
          exact repeats_malformed _
      | _ => exact hfault le_rfl
    | pair c =>
      refine repeats_get_bind fun s t hs hn => ?_
      have hcdr : R.Copies s.cells.size (s.cell c).cdr (R.onCell (s.cell c)).cdr :=
        ⟨rfl, hs.closed.cdr c⟩
      have hempty : body'.isEmpty = body.isEmpty := by
        rw [hbody.1]
        exact List.isEmpty_map
      have hlambda (x : Symbol) {k : Nat} (hk : s.cells.size ≤ k) : R.Repeats k R.CopiesBinding
          (do return (x, ← Derived.lambda (s.cell c).cdr body))
          (do return (x, ← Derived.lambda (R.onCell (s.cell c)).cdr body')) := by
        refine (repeats_lambdaForm (hcdr.mono hk) (hbody.mono (hn.trans hk))).bind
          fun _ form form' _ hform => ?_
        exact repeats_pure fun _ hle => ⟨rfl, hform.mono hle⟩
      dsimp only
      rw [hs.cell, hempty]
      simp only [Renaming.onCell]
      cases (s.cell c).car with
      | atom a =>
        cases a with
        | symbol x =>
          dsimp only [Renaming.value_atom]
          split
          · exact Repeats.bind (Q := Same) (repeats_malformed _) fun _ _ _ hk _ => hlambda x hk
          · exact hlambda x le_rfl
        | _ => exact hfault hn
      | _ => exact hfault hn
    | _ => exact hfault le_rfl

end Derived

/-! ## Evaluation -/

section Evaluation

variable {mode : Mode} {ev ev' : Evaluator} {env : FrameId}

/-- The second evaluator repeats the first one. -/
def RepeatsEach (R : Replication) (ev ev' : Evaluator) : Prop :=
  ∀ {n v w} env, R.Copies n v w → R.Repeats n R.Copies (ev v env) (ev' w env)

lemma repeats_readName (x : Symbol) (env : FrameId) :
    R.Repeats n R.Copies (Eval.readName mode x env) (Eval.readName mode x env) := by
  refine repeats_get_bind fun s t hs _ => ?_
  rw [hs.lookup?_eq]
  cases h : s.lookup? env x with
  | some v => exact repeats_pure_value ⟨rfl, hs.closed.within_of_lookup? h⟩
  | none =>
    dsimp only [Option.map_none]
    split
    · exact repeats_throw _
    · exact repeats_pure_atom _

lemma repeats_assignName (x : Symbol) (hv : R.Copies n v w) (env : FrameId) :
    R.Repeats n Same (Eval.assignName x v env) (Eval.assignName x w env) := by
  intro s t hs hn
  rw [Eval.assignName, Eval.assignName, Effect.get_bind, Effect.get_bind]
  simp only [Store.assign?, hs.find?_eq]
  cases s.find? env x with
  | some f =>
    obtain ⟨rfl, hwithin⟩ := hv
    exact .ok (hs.define (hwithin.mono hn) f x) hn rfl
  | none => exact .error hs hn

lemma repeats_operands (hev : R.RepeatsEach ev ev') (hvs : R.CopiesAll n vs ws) :
    R.Repeats n R.CopiesAll (Eval.operands ev env vs) (Eval.operands ev' env ws) := by
  induction vs generalizing n ws with
  | nil =>
    rw [hvs.of_nil]
    exact repeats_pure fun _ _ => copiesAll_nil _
  | cons v vs ih =>
    obtain ⟨w, ws, rfl, hv, hvs⟩ := hvs.of_cons
    refine (hev env hv).bind fun k a b hk hab => ?_
    refine (ih (hvs.mono hk)).bind fun m as bs hm habs => ?_
    exact repeats_pure fun _ hle => .cons (hab.mono (hm.trans hle)) (habs.mono hle)

lemma repeats_sequence (hev : R.RepeatsEach ev ev') (hvs : R.CopiesAll n vs ws) :
    R.Repeats n R.Copies (Eval.sequence ev env vs) (Eval.sequence ev' env ws) := by
  induction vs generalizing n ws with
  | nil =>
    rw [hvs.of_nil]
    exact repeats_malformed _
  | cons v vs ih =>
    obtain ⟨w, ws, rfl, hv, hvs⟩ := hvs.of_cons
    cases vs with
    | nil =>
      rw [hvs.of_nil]
      exact hev env hv
    | cons v' vs =>
      obtain ⟨w', ws, rfl, -, -⟩ := id hvs.of_cons
      exact (hev env hv).discard.bind fun k _ _ hk _ => ih (hvs.mono hk)

lemma repeats_enter {closure : Closure} (hvs : R.CopiesAll n vs ws) :
    R.Repeats n Same (Eval.enter closure vs) (Eval.enter (R.onClosure closure) ws) := by
  unfold Eval.enter
  rw [hvs.length_eq]
  simp only [Renaming.onClosure]
  split
  · exact repeats_throw _
  · refine repeats_modifyGet fun s t hs hn => ?_
    obtain ⟨rfl, hwithin⟩ := hvs
    have hbindings : ∀ b ∈ closure.params.zip vs, b.2.Within s.cells.size := fun b hb =>
      (hwithin b.2 (List.of_mem_zip hb).2).mono hn
    have hframe := hs.addFrame hbindings (some closure.env)
    rw [R.onBindings_zip] at hframe
    exact ⟨hframe, hn, hs.framesSize⟩

lemma copies_body {s t : Store} (hs : R.Holds s t) (k : ClosureId) :
    R.CopiesAll s.cells.size (s.closure k).body (R.onClosure (s.closure k)).body :=
  ⟨rfl, hs.closed.body k⟩

lemma repeats_apply (hev : R.RepeatsEach ev ev') (hv : R.Copies n v w)
    (hvs : R.CopiesAll n vs ws) :
    R.Repeats n R.Copies (Eval.apply mode limit ev v vs) (Eval.apply mode limit ev' w ws) := by
  refine (repeats_reportApply mode limit hv hvs).bind fun k _ _ hk _ => ?_
  have hfault : R.Repeats k R.Copies
      (do throw (.unknownForm (.notProcedure (← Effect.shown limit v))))
      (do throw (.unknownForm (.notProcedure (← Effect.shown limit w)))) :=
    repeats_throw_shown limit (hv.mono hk) fun text => .unknownForm (.notProcedure text)
  obtain ⟨rfl, -⟩ := hv
  cases v with
  | builtin b => exact repeats_builtin b (hvs.mono hk)
  | closure j =>
    refine repeats_get_bind fun s t hs hn => ?_
    dsimp only
    rw [hs.closure]
    refine (repeats_enter (hvs.mono (hk.trans hn))).bind fun m env env' hm heq => ?_
    obtain rfl := heq
    exact repeats_sequence hev ((copies_body hs j).mono hm)
  | _ => exact hfault

lemma repeats_parts (hev : R.RepeatsEach ev ev') {c d : CellId} (hc : R.CopiesCell n c d) :
    R.Repeats n (fun k p q => R.Copies k p.1 q.1 ∧ R.CopiesAll k p.2 q.2)
      (Eval.parts limit ev c env) (Eval.parts limit ev' d env) := by
  obtain ⟨rfl, hlt⟩ := hc
  have hparts {k : Nat} : R.Repeats k (fun k p q => R.Copies k p.1 q.1 ∧ R.CopiesAll k p.2 q.2)
      (do
        let proc ← ev ((← get).cell c).car env
        let s ← get
        let args ← Eval.operands ev env (s.members (s.cell c).cdr)
        return (proc, args))
      (do
        let proc ← ev' ((← get).cell (R.cell c)).car env
        let s ← get
        let args ← Eval.operands ev' env (s.members (s.cell (R.cell c)).cdr)
        return (proc, args)) := by
    refine repeats_get_bind fun s t hs _ => ?_
    refine (hev env (copies_car hs c)).bind fun k proc proc' _ hproc => ?_
    refine repeats_get_bind fun s t hs hk => ?_
    have hcdr := hs.closed.cdr c
    have hmembers : R.CopiesAll s.cells.size (s.members (s.cell c).cdr)
        (t.members (t.cell (R.cell c)).cdr) := by
      rw [hs.cell]
      exact ⟨hs.members_value hcdr, hs.closed.within_of_members _⟩
    refine (repeats_operands hev hmembers).bind fun m args args' hm hargs => ?_
    exact repeats_pure fun _ hle => ⟨hproc.mono (hk.trans (hm.trans hle)), hargs.mono hle⟩
  refine repeats_get_bind fun s t hs hn => ?_
  have hlist : t.isList (.pair (R.cell c)) = s.isList (.pair c) :=
    hs.isList_value (v := .pair c) (hlt.trans_le hn)
  rw [hlist]
  cases s.isList (.pair c) with
  | true => exact hparts
  | false =>
    have hpair : R.Copies s.cells.size (.pair c) (.pair (R.cell c)) := ⟨rfl, hlt.trans_le hn⟩
    refine (repeats_shown limit hpair).bind fun _ text _ _ heq => ?_
    obtain rfl := heq
    refine Repeats.bind (Q := Same) ?_ fun _ _ _ _ _ => hparts
    exact repeats_throw _

lemma repeats_application (hev : R.RepeatsEach ev ev') {c d : CellId} (hc : R.CopiesCell n c d) :
    R.Repeats n R.Copies (Eval.application mode limit ev c env)
      (Eval.application mode limit ev' d env) := by
  rw [Eval.application_eq, Eval.application_eq]
  exact (repeats_parts hev hc).bind fun _ found found' _ h => repeats_apply hev h.1 h.2

lemma repeats_assign (hev : R.RepeatsEach ev ev') (hvs : R.CopiesAll n vs ws) :
    R.Repeats n R.Copies (Eval.assign limit ev vs env) (Eval.assign limit ev' ws env) := by
  have hfault {k : Nat} : R.Repeats k R.Copies (Effect.malformed .assignOperands)
      (Effect.malformed .assignOperands) :=
    repeats_malformed _
  rcases vs with _ | ⟨target, _ | ⟨expr, _ | ⟨extra, vs⟩⟩⟩
  · rw [hvs.of_nil]
    exact hfault
  · obtain ⟨rfl, -⟩ := hvs
    cases target with
    | atom a => cases a <;> exact hfault
    | _ => exact hfault
  · obtain ⟨target', ws, rfl, htarget, hrest⟩ := hvs.of_cons
    obtain ⟨expr', ws, rfl, hexpr, hnil⟩ := hrest.of_cons
    rw [hnil.of_nil]
    have hbad : R.Repeats n R.Copies
        (do Effect.malformed (.assignTarget (← Effect.ask fun s => s.display limit target)))
        (do Effect.malformed (.assignTarget (← Effect.ask fun s => s.display limit target'))) := by
      refine (repeats_display limit htarget).bind fun _ text _ _ heq => ?_
      obtain rfl := heq
      exact repeats_malformed _
    obtain ⟨rfl, -⟩ := htarget
    cases target with
    | atom a =>
      cases a with
      | symbol x =>
        refine (hev env hexpr).bind fun k v w _ hv => ?_
        exact (repeats_assignName x hv env).bind fun _ _ _ _ _ => repeats_pure_atom .nil
      | _ => exact hbad
    | _ => exact hbad
  · obtain ⟨rfl, -⟩ := hvs
    cases target with
    | atom a => cases a <;> exact hfault
    | _ => exact hfault

lemma repeats_define (hev : R.RepeatsEach ev ev') (hvs : R.CopiesAll n vs ws) :
    R.Repeats n R.Copies (Eval.define limit ev vs env) (Eval.define limit ev' ws env) := by
  refine (repeats_definition hvs).bind fun k b b' hk hb => ?_
  obtain ⟨x, expr⟩ := b
  obtain ⟨x', expr'⟩ := b'
  obtain ⟨rfl, hexpr⟩ : x' = x ∧ R.Copies k expr expr' := hb
  refine (hev env hexpr).bind fun m v w hm hv => ?_
  have hdefine {m' : Nat} (hle : m ≤ m') : R.Repeats m' R.Copies
      (do modify fun s => s.define env x' v; return .nil)
      (do modify fun s => s.define env x' w; return .nil) := by
    refine Repeats.bind (Q := Same) ?_ fun _ _ _ _ _ => repeats_pure_atom .nil
    obtain ⟨rfl, hwithin⟩ := hv
    exact repeats_modify fun s t hs hn => ⟨hs.define (hwithin.mono (hle.trans hn)) env x', hn⟩
  have hplain := hdefine le_rfl
  obtain ⟨rfl, -⟩ := id hv
  cases v with
  | closure j =>
    refine Repeats.bind (Q := Same) ?_ fun _ _ _ hle _ => hdefine hle
    exact repeats_modify fun s t hs hn => ⟨hs.nameClosure j x', hn⟩
  | _ => exact hplain

/-- Only false is false, in both stores. -/
lemma beq_false_copies (hv : R.Copies n v w) : (w == .bool false) = (v == .bool false) := by
  rw [hv.1]
  exact R.value_beq_atom v _

lemma repeats_choice (hev : R.RepeatsEach ev ev') (hvs : R.CopiesAll n vs ws) :
    R.Repeats n R.Copies (Eval.choice ev vs env) (Eval.choice ev' ws env) := by
  rcases vs with _ | ⟨test, _ | ⟨consequent, _ | ⟨alternative, _ | ⟨extra, vs⟩⟩⟩⟩
  · rw [hvs.of_nil]
    exact repeats_malformed _
  · obtain ⟨rfl, -⟩ := hvs
    exact repeats_malformed _
  · obtain ⟨test', ws, rfl, htest, hrest⟩ := hvs.of_cons
    obtain ⟨consequent', ws, rfl, hconsequent, hnil⟩ := hrest.of_cons
    rw [hnil.of_nil]
    refine (hev env htest).bind fun k v w hk hv => ?_
    rw [beq_false_copies hv]
    split
    · exact repeats_pure_atom _
    · exact hev env (hconsequent.mono hk)
  · obtain ⟨test', ws, rfl, htest, hrest⟩ := hvs.of_cons
    obtain ⟨consequent', ws, rfl, hconsequent, hrest⟩ := hrest.of_cons
    obtain ⟨alternative', ws, rfl, halternative, hnil⟩ := hrest.of_cons
    rw [hnil.of_nil]
    refine (hev env htest).bind fun k v w hk hv => ?_
    rw [beq_false_copies hv]
    split
    · exact hev env (halternative.mono hk)
    · exact hev env (hconsequent.mono hk)
  · obtain ⟨rfl, -⟩ := hvs
    exact repeats_malformed _

lemma repeats_parameters (hvs : R.CopiesAll n vs ws) :
    R.Repeats n Same (Eval.parameters limit vs) (Eval.parameters limit ws) := by
  induction vs generalizing n ws with
  | nil =>
    rw [hvs.of_nil]
    exact repeats_pure fun _ _ => rfl
  | cons v vs ih =>
    obtain ⟨w, ws, rfl, hv, hrest⟩ := hvs.of_cons
    have hfault : R.Repeats n (@Same (List Symbol))
        (Effect.malformedBy limit .lambdaParameter v)
        (Effect.malformedBy limit .lambdaParameter w) :=
      repeats_malformedBy limit _ hv
    obtain ⟨rfl, -⟩ := hv
    cases v with
    | atom a =>
      cases a with
      | symbol x =>
        refine (ih hrest).bind fun _ names _ _ heq => ?_
        obtain rfl := heq
        exact repeats_pure fun _ _ => rfl
      | _ => exact hfault
    | _ => exact hfault

lemma repeats_addClosure {closure : Closure}
    (hbody : ∀ form ∈ closure.body, form.Within n) :
    R.Repeats n R.Copies (modifyGet fun s => s.addClosure closure)
      (modifyGet fun s => s.addClosure (R.onClosure closure)) := by
  refine repeats_modifyGet fun s t hs hn => ⟨?_, hn, ?_⟩
  · exact hs.addClosure fun form hform => (hbody form hform).mono hn
  · exact ⟨congrArg Value.closure (hs.nextClosure 0).symm, trivial⟩

lemma repeats_lambda (hvs : R.CopiesAll n vs ws) (env : FrameId) :
    R.Repeats n R.Copies (Eval.lambda limit vs env) (Eval.lambda limit ws env) := by
  cases vs with
  | nil =>
    rw [hvs.of_nil]
    exact repeats_malformed _
  | cons params body =>
    obtain ⟨params', body', rfl, hparams, hbody⟩ := hvs.of_cons
    refine repeats_get_bind fun s t hs hn => ?_
    rcases list?_copies hs (hparams.mono hn) with ⟨h, h'⟩ | ⟨formals, formals', h, h', hformals⟩
    · rw [h, h']
      exact repeats_malformedBy limit _ (hparams.mono hn)
    · rw [h, h']
      refine (repeats_parameters hformals).bind fun k _ names hk heq => ?_
      obtain rfl := heq
      have hempty : body'.isEmpty = body.isEmpty := by
        rw [hbody.1]
        exact List.isEmpty_map
      have hclosure {m : Nat} (hm : n ≤ m) : R.Repeats m R.Copies
          (modifyGet fun s => s.addClosure ⟨names, body, env, none⟩)
          (modifyGet fun s => s.addClosure ⟨names, body', env, none⟩) := by
        obtain ⟨rfl, hwithin⟩ := hbody
        exact repeats_addClosure fun form hform => (hwithin form hform).mono hm
      dsimp only
      rw [hempty]
      split
      · refine Repeats.bind (Q := Same) (repeats_malformed _) fun _ _ _ hm _ => ?_
        exact hclosure (hn.trans (hk.trans hm))
      · exact hclosure (hn.trans hk)

lemma repeats_special (hev : R.RepeatsEach ev ev') (form : SpecialForm)
    (hvs : R.CopiesAll n vs ws) :
    R.Repeats n R.Copies (Eval.special limit ev form vs env)
      (Eval.special limit ev' form ws env) := by
  cases form with
  | quote =>
    rcases vs with _ | ⟨v, _ | ⟨v', vs⟩⟩
    · rw [hvs.of_nil]
      exact repeats_malformed _
    · obtain ⟨w, ws, rfl, hv, hnil⟩ := hvs.of_cons
      rw [hnil.of_nil]
      exact repeats_pure_value hv
    · obtain ⟨rfl, -⟩ := hvs
      exact repeats_malformed _
  | assign => exact repeats_assign hev hvs
  | define => exact repeats_define hev hvs
  | choice => exact repeats_choice hev hvs
  | cond => exact (repeats_cond hvs).bind fun _ _ _ _ h => hev env h
  | letIn =>
    cases vs with
    | nil =>
      rw [hvs.of_nil]
      exact repeats_malformed _
    | cons bindings body =>
      obtain ⟨bindings', body', rfl, hbindings, hbody⟩ := hvs.of_cons
      exact (repeats_letIn hbindings hbody).bind fun _ _ _ _ h => hev env h
  | lambda => exact repeats_lambda hvs env
  | sequence => exact repeats_sequence hev hvs

lemma keyword?_value (v : Value) : Eval.keyword? (R.value v) = Eval.keyword? v := by
  cases v <;> rfl

lemma repeats_combination (hev : R.RepeatsEach ev ev') {c d : CellId}
    (hc : R.CopiesCell n c d) :
    R.Repeats n R.Copies (Eval.combination mode limit ev c env)
      (Eval.combination mode limit ev' d env) := by
  obtain ⟨rfl, hlt⟩ := hc
  refine repeats_get_bind fun s t hs hn => ?_
  have hpair : R.Copies s.cells.size (.pair c) (.pair (R.cell c)) := ⟨rfl, hlt.trans_le hn⟩
  have hkeyword : Eval.keyword? (t.cell (R.cell c)).car = Eval.keyword? (s.cell c).car := by
    rw [hs.cell]
    exact keyword?_value _
  rw [hkeyword]
  cases Eval.keyword? (s.cell c).car with
  | none => exact repeats_application hev ⟨rfl, hlt.trans_le hn⟩
  | some form =>
    rcases list?_copies hs hpair with ⟨h, h'⟩ | ⟨vs, ws, h, h', hvs⟩
    · rw [h, h']
      exact repeats_malformedBy limit _ hpair
    · rw [h, h']
      refine repeats_special hev form ?_
      obtain ⟨rfl, hwithin⟩ := hvs
      exact ⟨List.map_tail.symm, fun v hv => hwithin v (List.mem_of_mem_tail hv)⟩

lemma repeats_step (hev : R.RepeatsEach ev ev') (hv : R.Copies n v w) (env : FrameId) :
    R.Repeats n R.Copies (Eval.step mode limit ev v env) (Eval.step mode limit ev' w env) := by
  refine (repeats_reportEval mode limit hv).bind fun k _ _ hk _ => ?_
  have hfault : R.Repeats k R.Copies
      (do throw (.unknownForm (.notExpression (← Effect.shown limit v))))
      (do throw (.unknownForm (.notExpression (← Effect.shown limit w)))) :=
    repeats_throw_shown limit (hv.mono hk) fun text => .unknownForm (.notExpression text)
  obtain ⟨rfl, hwithin⟩ := hv
  cases v with
  | atom a =>
    cases a with
    | symbol x => exact repeats_readName x env
    | nil => exact hfault
    | _ => exact repeats_pure_atom _
  | pair c => exact repeats_combination hev ⟨rfl, hwithin.trans_le hk⟩
  | _ => exact hfault

/-- **A program does the same in both stores.**  If its expression has the other numbers in the second
store, it ends there with the same error, or with the value that has the other number, and whatever it
does to one store it does to the other. -/
theorem repeats_eval (R : Replication) (mode : Mode) (limit : Nat) :
    R.RepeatsEach (eval mode limit) (eval mode limit) := by
  induction limit with
  | zero => exact fun _ _ => repeats_throw _
  | succ limit ih => exact fun env hv => repeats_step ih hv env

end Evaluation

end Replication

end SmallScheme
