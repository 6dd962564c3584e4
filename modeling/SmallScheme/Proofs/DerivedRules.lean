import SmallScheme.Proofs.PrimitiveRules

/-!
# Derived forms keep every discipline

The expansion of a form whose parts have their roles is an expression: `ensures_cond`,
`ensures_letIn` and `ensures_definition`.
-/

namespace SmallScheme

lemma Eval.keyword?_keyword (form : SpecialForm) :
    Eval.keyword? (Derived.keyword form) = some form :=
  SpecialForm.ofSymbol?_keyword form

namespace Discipline

variable {D : Discipline} {w : D.World} {limit : Nat} {r : Role} {v : Value} {vs : List Value}

/-- The value may be used as an expression. -/
abbrev IsExpr (D : Discipline) (w : D.World) (v : Value) : Prop :=
  D.Good w .expr v

lemma isExpr_mono {w' : D.World} (h : ∀ v ∈ vs, D.IsExpr w v) (hle : D.le w w') :
    ∀ v ∈ vs, D.IsExpr w' v :=
  fun v hv => D.good_mono hle (h v hv)

/-! ## Refusals -/

lemma ensures_malformed_bind {α β : Type} {fault : FormFault} {f : α → Effect β}
    {Q : D.World → β → Prop} : D.Ensures w (Effect.malformed fault >>= f) Q :=
  Ensures.bind (P := fun _ _ => False) ensures_malformed fun _ _ _ h => h.elim

lemma ensures_malformedBy_bind {α β : Type} {fault : String → FormFault} {f : α → Effect β}
    {Q : D.World → β → Prop} : D.Ensures w (Effect.malformedBy limit fault v >>= f) Q :=
  Ensures.bind (P := fun _ _ => False) ensures_malformedBy fun _ _ _ h => h.elim

/-! ## New cells -/

lemma ensures_newList (h : D.GoodMembers w r vs) :
    D.Ensures w (Derived.newList vs) fun w' v => D.Good w' r v :=
  ensures_modifyGet fun _ hs => exists_list hs h

lemma ensures_newPair {car cdr : Value} (hcar : D.Good w (r.refine car).first car)
    (hcdr : D.Good w (r.refine car).rest cdr) :
    D.Ensures w (Derived.newPair car cdr) fun w' v => D.Good w' r v ∧ ∃ c, v = .pair c :=
  ensures_modifyGet fun s hs =>
    have ⟨w', hle, hs', hgood⟩ := D.cons hs hcar hcdr
    ⟨w', hle, hs', hgood, s.cells.size, rfl⟩

/-- A keyword and its operands. -/
lemma goodMembers_form {form : SpecialForm}
    (h : D.GoodMembers w (Role.operands (some form)) vs) :
    D.GoodMembers w .expr (Derived.keyword form :: vs) := by
  refine ⟨D.good_atom w _ _, ?_⟩
  rw [Role.refine_expr, Eval.keyword?_keyword]
  exact h

/-- An operator that is a pair, and its operands. -/
lemma goodMembers_application {c : CellId} (hc : D.IsExpr w (.pair c))
    (h : ∀ v ∈ vs, D.IsExpr w v) : D.GoodMembers w .expr (.pair c :: vs) :=
  ⟨hc, goodMembers_listOf.mpr h⟩

lemma ensures_sequenceForm (h : ∀ v ∈ vs, D.IsExpr w v) :
    D.Ensures w (Derived.sequence vs) D.IsExpr := by
  unfold Derived.sequence
  split
  · exact ensures_pure (h _ (by simp))
  · exact ensures_newList (goodMembers_form (goodMembers_listOf.mpr h))

lemma ensures_lambdaForm {params : Value} (hparams : D.Good w .exprs params)
    (h : ∀ v ∈ vs, D.IsExpr w v) :
    D.Ensures w (Derived.lambda params vs) fun w' v => D.IsExpr w' v ∧ ∃ c, v = .pair c := by
  have hbody := ensures_newList (r := .exprs) (goodMembers_listOf.mpr h)
  refine Ensures.bind hbody fun w₁ body hle₁ hbody => ?_
  have hoperands := ensures_newPair (r := .headed .exprs) (D.good_mono hle₁ hparams) hbody
  refine Ensures.bind hoperands fun w₂ operands _ hoperands => ?_
  refine ensures_newPair (D.good_atom w₂ _ _) ?_
  rw [Role.refine_expr, Eval.keyword?_keyword]
  exact hoperands.1

/-! ## Clauses -/

/-- The test and the forms of a clause are expressions. -/
def GoodClause (D : Discipline) (w : D.World) (clause : Value × List Value) : Prop :=
  D.IsExpr w clause.1 ∧ ∀ form ∈ clause.2, D.IsExpr w form

lemma GoodClause.mono {w' : D.World} {clause : Value × List Value} (h : D.GoodClause w clause)
    (hle : D.le w w') : D.GoodClause w' clause :=
  ⟨D.good_mono hle h.1, isExpr_mono h.2 hle⟩

lemma ensures_clause (h : D.Good w .exprs v) :
    D.Ensures w (Derived.clause limit v) D.GoodClause := by
  refine Ensures.bind ensures_get fun w₁ s hle hs => ?_
  split
  · rename_i test forms hlist
    have hmembers := goodMembers_of_list? hs (D.good_mono hle h) hlist
    exact ensures_pure ⟨hmembers.1, goodMembers_listOf.mp hmembers.2⟩
  · exact ensures_malformedBy

lemma ensures_clauses (h : ∀ v ∈ vs, D.Good w .exprs v) :
    D.Ensures w (Derived.clauses limit vs) fun w' clauses =>
      ∀ clause ∈ clauses, D.GoodClause w' clause := by
  induction vs generalizing w with
  | nil => exact ensures_pure (by simp)
  | cons v vs ih =>
    unfold Derived.clauses
    refine Ensures.bind (ensures_clause (h v (by simp))) fun w₁ clause hle₁ hclause => ?_
    obtain ⟨test, forms⟩ := clause
    dsimp only
    split
    · -- the message shows the clauses from here on as a new list
      have hclauses : D.GoodMembers w₁ (.listOf .exprs) (v :: vs) :=
        goodMembers_listOf.mpr fun v hv => D.good_mono hle₁ (h v hv)
      exact Ensures.bind (ensures_newList hclauses) fun _ _ _ _ => ensures_malformedBy_bind
    · split
      · exact ensures_malformedBy_bind
      · have hrest := ih fun v hv => D.good_mono hle₁ (h v (by simp [hv]))
        refine Ensures.bind hrest fun w₂ clauses hle₂ hclauses => ensures_pure ?_
        exact List.forall_mem_cons.mpr ⟨hclause.mono hle₂, hclauses⟩

/-- The nest of choices between good clauses is an expression. -/
lemma ensures_choices {clauses : List (Value × List Value)}
    (h : ∀ clause ∈ clauses, D.GoodClause w clause) :
    D.Ensures w (Derived.choices clauses) D.IsExpr := by
  induction clauses generalizing w with
  | nil => exact ensures_pure (D.good_atom w _ _)
  | cons clause clauses ih =>
    obtain ⟨test, forms⟩ := clause
    -- the nest is built from its end, so what is for later clauses is there first
    refine Ensures.bind (ih fun c hc => h c (by simp [hc])) fun w₁ otherwise hle₁ hotherwise => ?_
    have hclause := (h (test, forms) (by simp)).mono hle₁
    refine Ensures.bind (ensures_sequenceForm hclause.2) fun w₂ consequent hle₂ hconsequent => ?_
    split
    · exact ensures_pure hconsequent
    · refine ensures_newList (goodMembers_form (goodMembers_listOf.mpr ?_))
      simp only [List.forall_mem_cons, List.not_mem_nil, false_implies, implies_true, and_true]
      exact ⟨D.good_mono hle₂ hclause.1, hconsequent, D.good_mono hle₂ hotherwise⟩

/-- **A `cond` with good clauses becomes an expression.** -/
theorem ensures_cond (h : ∀ v ∈ vs, D.Good w .exprs v) :
    D.Ensures w (Derived.cond limit vs) D.IsExpr :=
  Ensures.bind (ensures_clauses h) fun _ _ _ hclauses => ensures_choices hclauses

/-! ## Local bindings -/

lemma ensures_binding (h : D.Good w .exprs v) :
    D.Ensures w (Derived.binding limit v) fun w' binding => D.IsExpr w' binding.2 := by
  refine Ensures.bind ensures_get fun w₁ s hle hs => ?_
  split
  · rename_i x form hlist
    have hmembers := goodMembers_of_list? hs (D.good_mono hle h) hlist
    exact ensures_pure hmembers.2.1
  · exact ensures_malformedBy

/-- **A `let` with good bindings becomes an expression.** -/
theorem ensures_letIn (hbindings : D.Good w (.listOf .exprs) v) (h : ∀ v ∈ vs, D.IsExpr w v) :
    D.Ensures w (Derived.letIn limit v vs) D.IsExpr := by
  refine Ensures.bind ensures_get fun w₁ s hle₁ hs => ?_
  split
  · exact ensures_malformedBy
  · rename_i members hlist
    have hmembers := goodMembers_listOf.mp
      (goodMembers_of_list? hs (D.good_mono hle₁ hbindings) hlist)
    dsimp only
    split
    · exact ensures_malformed_bind
    · have hbound : D.Ensures w₁ (members.mapM (Derived.binding limit)) fun w' bound =>
          ∀ b ∈ bound, D.IsExpr w' b.2 :=
        ensures_mapM D.good_mono fun v hv w' hle =>
          ensures_binding (D.good_mono hle (hmembers v hv))
      refine Ensures.bind hbound fun w₂ bound hle₂ hbound => ?_
      have hparams : D.GoodMembers w₂ .exprs (bound.map fun b => .symbol b.1) := by
        refine goodMembers_listOf.mpr fun v hv => ?_
        obtain ⟨b, -, rfl⟩ := List.mem_map.mp hv
        exact D.good_atom w₂ .expr _
      refine Ensures.bind (ensures_newList hparams) fun w₃ params hle₃ hparams => ?_
      have hle := D.le_trans hle₁ (D.le_trans hle₂ hle₃)
      refine Ensures.bind (ensures_lambdaForm hparams (isExpr_mono h hle)) fun w₄ proc hle₄ hproc => ?_
      -- the operator is a pair and no keyword, so the new list is an application
      obtain ⟨hproc, c, rfl⟩ := hproc
      refine ensures_newList (goodMembers_application hproc fun v hv => ?_)
      obtain ⟨b, hb, rfl⟩ := List.mem_map.mp hv
      exact D.good_mono (D.le_trans hle₃ hle₄) (hbound b hb)

/-! ## Definitions -/

/-- **The value of a definition is an expression.** -/
theorem ensures_definition (h : D.GoodMembers w (.headed .exprs) vs) :
    D.Ensures w (Derived.definition limit vs) fun w' definition => D.IsExpr w' definition.2 := by
  unfold Derived.definition
  split
  · exact ensures_malformed
  · split
    · exact ensures_pure h.2.1
    · exact ensures_malformed
  · split
    · refine Ensures.bind ensures_get fun w₁ s hle hs => ?_
      -- the cell of the name goes on with the parameters
      have hparams := D.good_cdr (r := .exprs) hs (D.good_mono hle h.1) (by simp)
      dsimp only
      split
      · split
        · exact ensures_malformed_bind
        · have hbody := isExpr_mono (goodMembers_listOf.mp h.2) hle
          exact Ensures.bind (ensures_lambdaForm hparams hbody) fun _ _ _ hproc =>
            ensures_pure hproc.1
      · exact ensures_malformedBy
    · exact ensures_malformedBy

end Discipline

end SmallScheme
