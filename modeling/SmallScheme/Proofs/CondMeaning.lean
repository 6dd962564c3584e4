import SmallScheme.Proofs.Drawing
import SmallScheme.Proofs.FreshNodes
import SmallScheme.Proofs.Soundness

/-!
# What `cond` means

A `cond` is expanded into nested choices, and these are evaluated.  It means that the tests are
evaluated in order until one is not false, and then the forms of its clause (`Eval.firstTrue`).  Where
each clause has a test and at least one form, and only the last test may be the word `else`
(`Store.Clauses`), both end in the same way.  Where a clause has another shape, this is found out
before anything is evaluated.

The expanded form is made of new cells (`Store.ChoicesIn`), which the program cannot reach.  That its
evaluation imitates the procedure is shown by induction on the clauses (`Replication.imitates_choices`);
its keywords are recognized before any name is looked up, so it does not matter what they are bound to.
-/

namespace SmallScheme

/-- The word that ends a `cond` is `else`. -/
lemma Derived.isElse_iff (test : Value) : isElse test = true ↔ test = .symbol ⟨"else"⟩ :=
  beq_iff_eq

lemma Derived.isElse_eq_false_iff (test : Value) : isElse test = false ↔ test ≠ .symbol ⟨"else"⟩ :=
  Bool.eq_false_iff.trans (isElse_iff test).not

/-- The tests are evaluated in order until one is not false, then the forms of its clause; the word
`else` counts as true, and without a true test the result is false. -/
def Eval.firstTrue (ev : Evaluator) (env : FrameId) : List (Value × List Value) → Effect Value
  | [] => return .bool false
  | (test, forms) :: rest => do
    if test = .symbol ⟨"else"⟩ then sequence ev env forms
    else
      if (← ev test env) == .bool false then firstTrue ev env rest else sequence ev env forms

lemma steady_firstTrue (env : FrameId) (clauses : List (Value × List Value)) :
    Steady fun ev => Eval.firstTrue ev env clauses := by
  induction clauses with
  | nil => exact steady_pure _
  | cons clause rest ih =>
    obtain ⟨test, forms⟩ := clause
    refine .ite (steady_sequence env forms) ((steady_call test env).bind fun v => ?_)
    exact .ite ih (steady_sequence env forms)

namespace Store

variable {s t : Store} {v : Value} {vs forms : List Value} {clauses : List (Value × List Value)}

/-- The values are lists of a test and at least one form each, and only the last test may be the word
`else`. -/
def Clauses (s : Store) (vs : List Value) (clauses : List (Value × List Value)) : Prop :=
  List.Forall₂ (fun v clause => s.list? v = some (clause.1 :: clause.2) ∧ clause.2 ≠ []) vs clauses ∧
    ∀ clause ∈ clauses.dropLast, clause.1 ≠ .symbol ⟨"else"⟩

/-! ## The expanded form -/

/-- One expression that evaluates the forms in order. -/
def SequenceIn (s : Store) (P : CellId → Prop) (forms : List Value) (e : Value) : Prop :=
  forms = [e] ∨ ∃ d, e = .pair d ∧ s.ListIn P e (Derived.keyword .sequence :: forms)

/-- A nest of choices between the clauses, in the given cells. -/
inductive ChoicesIn (s : Store) (P : CellId → Prop) : List (Value × List Value) → Value → Prop
  | none : ChoicesIn s P [] (.bool false)
  | otherwise {test : Value} {forms : List Value} {rest : List (Value × List Value)} {e : Value} :
      test = .symbol ⟨"else"⟩ → s.SequenceIn P forms e → ChoicesIn s P ((test, forms) :: rest) e
  | choice {test : Value} {forms : List Value} {rest : List (Value × List Value)}
      {consequent alternative : Value} {d : CellId} :
      test ≠ .symbol ⟨"else"⟩ → s.SequenceIn P forms consequent →
      ChoicesIn s P rest alternative →
      s.ListIn P (.pair d) [Derived.keyword .choice, test, consequent, alternative] →
      ChoicesIn s P ((test, forms) :: rest) (.pair d)

variable {P P' : CellId → Prop} {e : Value}

lemma SequenceIn.mono (h : s.SequenceIn P forms e) (hext : s.Extends t)
    (hcells : ∀ d < s.cells.size, P d → P' d) : t.SequenceIn P' forms e :=
  h.imp_right fun ⟨d, hd, hlist⟩ => ⟨d, hd, hlist.mono hext hcells⟩

lemma ChoicesIn.mono (h : s.ChoicesIn P clauses e) (hext : s.Extends t)
    (hcells : ∀ d < s.cells.size, P d → P' d) : t.ChoicesIn P' clauses e := by
  induction h with
  | none => exact .none
  | otherwise helse hforms => exact .otherwise helse (hforms.mono hext hcells)
  | choice helse hforms _ hlist ih =>
    exact .choice helse (hforms.mono hext hcells) ih (hlist.mono hext hcells)

/-- A sequence of forms is one of them or a new list. -/
lemma exists_sequence (forms : List Value) (s : Store) :
    ∃ e t, Derived.sequence forms s = .ok e t ∧ s.AddsFresh t ∧
      t.SequenceIn (s.cells.size ≤ ·) forms e := by
  have hlist (forms : List Value) : ∃ e t,
      Derived.newList (Derived.keyword .sequence :: forms) s = .ok e t ∧ s.AddsFresh t ∧
        t.SequenceIn (s.cells.size ≤ ·) forms e := by
    obtain ⟨d, t, hd, hfresh, hlist⟩ := exists_newList (Derived.keyword .sequence) forms s
    exact ⟨.pair d, t, hd, hfresh, .inr ⟨d, rfl, hlist⟩⟩
  rcases forms with _ | ⟨form, _ | ⟨form', forms⟩⟩
  · exact hlist []
  · exact ⟨form, s, rfl, .refl s, .inl rfl⟩
  · exact hlist _

/-- **The nest of choices is made of new cells**, and nothing else happens. -/
lemma exists_choices (clauses : List (Value × List Value)) (s : Store) :
    ∃ e t, Derived.choices clauses s = .ok e t ∧ s.AddsFresh t ∧
      t.ChoicesIn (s.cells.size ≤ ·) clauses e := by
  induction clauses with
  | nil => exact ⟨_, s, rfl, .refl s, .none⟩
  | cons clause rest ih =>
    obtain ⟨test, forms⟩ := clause
    obtain ⟨alternative, s₁, halternative, hfresh₁, hrest⟩ := ih
    obtain ⟨consequent, s₂, hconsequent, hfresh₂, hforms⟩ := exists_sequence forms s₁
    have hle : s.cells.size ≤ s₁.cells.size := hfresh₁.cells.size_le
    rw [Derived.choices, Effect.bind_ok halternative, Effect.bind_ok hconsequent]
    cases helse : Derived.isElse test with
    | true =>
      refine ⟨consequent, s₂, rfl, hfresh₁.trans hfresh₂,
        .otherwise ((Derived.isElse_iff test).mp helse) ?_⟩
      exact hforms.mono (.refl s₂) fun _ _ => hle.trans
    | false =>
      obtain ⟨d, s₃, hd, hfresh₃, hlist⟩ :=
        exists_newList (Derived.keyword .choice) [test, consequent, alternative] s₂
      have hle₂ : s.cells.size ≤ s₂.cells.size := hle.trans hfresh₂.cells.size_le
      have hforms₃ : s₃.SequenceIn (s.cells.size ≤ ·) forms consequent :=
        hforms.mono hfresh₃.cells fun _ _ => hle.trans
      have hrest₃ : s₃.ChoicesIn (s.cells.size ≤ ·) rest alternative :=
        hrest.mono (hfresh₂.trans hfresh₃).cells fun _ _ h => h
      refine ⟨.pair d, s₃, hd, (hfresh₁.trans hfresh₂).trans hfresh₃, ?_⟩
      exact .choice ((Derived.isElse_eq_false_iff test).mp helse) hforms₃ hrest₃
        (hlist.mono (.refl s₃) fun _ _ => hle₂.trans)

end Store

/-! ## The evaluation of the expanded form -/

namespace Replication

variable {R : Replication} {mode : Mode} {n : Nat} {env : FrameId} {e : Value}
  {forms : List Value} {clauses : List (Value × List Value)}

lemma ends_bool_iff (huntraced : mode.traced = false) {b : Bool} {s : Store}
    {r : EStateM.Result Error Store Value} :
    Ends mode (.bool b) env s r ↔ EndsBy mode (fun _ => pure (.bool b)) s r := by
  refine ends_iff_of_step fun limit ev => ?_
  rw [Eval.step, reportEval_untraced huntraced, pure_bind]

/-- A hidden sequence is evaluated like its forms. -/
lemma imitates_sequenceIn (huntraced : mode.traced = false)
    (h : R.second.SequenceIn R.Hides forms e) (hforms : R.CopiesAll n forms forms) :
    R.Imitates mode n R.Copies (fun ev => Eval.sequence ev env forms) fun ev => ev e env := by
  rcases h with rfl | ⟨d, rfl, hlist⟩
  · obtain ⟨_, _, heq, hform, -⟩ := hforms.of_cons
    cases heq
    exact imitates_call env hform
  · refine (imitates_sequence env hforms).congr fun hs _ r => ?_
    have hkeyword : Eval.keyword? (Derived.keyword .sequence) = some .sequence := by decide
    rw [← hs.car_hidden hlist] at hkeyword
    exact ends_special_iff huntraced hkeyword (hs.list?_hidden hlist) fun _ _ => rfl

/-- **The nest of choices imitates the procedure.** -/
lemma imitates_choices (huntraced : mode.traced = false)
    (h : R.second.ChoicesIn R.Hides clauses e)
    (hclauses : ∀ clause ∈ clauses, R.CopiesClause n clause clause) :
    R.Imitates mode n R.Copies (fun ev => Eval.firstTrue ev env clauses) fun ev => ev e env := by
  induction h generalizing n with
  | none =>
    refine (imitates_const (repeats_pure_atom (.bool false))).congr fun _ _ r => ?_
    exact ends_bool_iff huntraced
  | @otherwise test forms rest e helse hsequence =>
    have hforms : R.CopiesAll n forms forms := (hclauses (test, forms) (by simp)).2
    simp only [Eval.firstTrue, if_pos helse]
    exact imitates_sequenceIn huntraced hsequence hforms
  | @choice test forms rest consequent alternative d helse hsequence halternative hlist ih =>
    rw [List.forall_mem_cons] at hclauses
    obtain ⟨htest, hforms⟩ : R.Copies n test test ∧ R.CopiesAll n forms forms := hclauses.1
    have hchoice : R.Imitates mode n R.Copies
        (fun ev => ev test env >>= fun v =>
          if v == .bool false then Eval.firstTrue ev env rest else Eval.sequence ev env forms)
        (fun ev => ev test env >>= fun v =>
          if v == .bool false then ev alternative env else ev consequent env) := by
      refine (imitates_call env htest).bind (fun k v w hk hv => ?_) (steady_call _ _)
        (steady_call _ _) (fun _ => .ite (steady_firstTrue _ _) (steady_sequence _ _))
        fun _ => .ite (steady_call _ _) (steady_call _ _)
      rw [beq_false_copies hv]
      cases v == .bool false with
      | true => exact ih fun clause hclause => (hclauses.2 clause hclause).mono hk
      | false => exact imitates_sequenceIn huntraced hsequence (hforms.mono hk)
    simp only [Eval.firstTrue, if_neg helse]
    refine hchoice.congr fun hs _ r => ?_
    have hkeyword : Eval.keyword? (Derived.keyword .choice) = some .choice := by decide
    rw [← hs.car_hidden hlist] at hkeyword
    exact ends_special_iff huntraced hkeyword (hs.list?_hidden hlist) fun _ _ => rfl

end Replication

/-! ## Clauses -/

namespace Store

variable {s t : Store} {v : Value} {vs : List Value} {limit : Nat}
  {clauses : List (Value × List Value)}

/-- The clauses are found if they have the right shape. -/
lemma Clauses.clauses_eq (h : s.Clauses vs clauses) (limit : Nat) :
    Derived.clauses limit vs s = .ok clauses s := by
  obtain ⟨hshape, helse⟩ := h
  induction hshape with
  | nil => rfl
  | @cons v clause vs rest hclause hrest ih =>
    obtain ⟨test, forms⟩ := clause
    obtain ⟨hlist, hforms⟩ : s.list? v = some (test :: forms) ∧ forms ≠ [] := hclause
    have hfound : Derived.clause limit v s = .ok (test, forms) s := by
      rw [Derived.clause, Effect.get_bind, hlist]
      rfl
    have hlast : (Derived.isElse test && !vs.isEmpty) = false := by
      cases hvs : vs with
      | nil => simp
      | cons v' vs' =>
        subst hvs
        cases hrest with
        | @cons _ clause' _ rest' =>
          have htest : test ≠ .symbol ⟨"else"⟩ := helse (test, forms) (by simp)
          rw [(Derived.isElse_eq_false_iff test).mpr htest]
          rfl
    have hrestOk : Derived.clauses limit vs s = .ok rest s := by
      refine ih fun clause hclause => helse clause ?_
      cases rest with
      | nil => simp at hclause
      | cons clause' rest' => exact List.mem_cons_of_mem _ hclause
    rw [Derived.clauses, Effect.bind_ok hfound]
    simp only [hlast, Bool.false_eq_true, if_false, List.isEmpty_iff, hforms]
    rw [Effect.bind_ok hrestOk]
    rfl

/-- The tests and the forms keep their numbers if nodes are added. -/
lemma Clauses.copies (h : s.Clauses vs clauses) (hs : s.WellFormed) (t : Store) :
    ∀ clause ∈ clauses, (s.shifted t).CopiesClause s.cells.size clause clause := by
  have hshape := h.1
  clear h
  induction hshape with
  | nil => simp
  | @cons v clause _ _ hclause _ ih =>
    have hknown := hs.knows_of_list? hclause.1
    rw [List.forall_mem_cons] at hknown
    refine List.forall_mem_cons.mpr ⟨⟨copies_known t hknown.1, ?_⟩, ih⟩
    exact copiesAll_known t hknown.2

/-- The error in whose message a value is to be shown. -/
def faultError (s : Store) (limit : Nat) (fault : String → FormFault) (v : Value) : Error :=
  match s.render limit v with
  | .ok text => .ofForm (fault text)
  | .error e => e

lemma malformedBy_eq {α : Type} (limit : Nat) (fault : String → FormFault) (v : Value) (s : Store) :
    (Effect.malformedBy limit fault v : Effect α) s = .error (s.faultError limit fault v) s := by
  unfold faultError Effect.malformedBy
  cases h : s.render limit v with
  | ok text =>
    have hshown : Effect.shown limit v s = .ok text s := Effect.ask_ok h
    rw [Effect.bind_ok hshown]
    rfl
  | error e =>
    have hshown : Effect.shown limit v s = .error e s := Effect.ask_error h
    rw [Effect.bind_error hshown]

/-- What is wrong with the first clause that has another shape, and which value shows it: the clause, or
in the second store the list of the clauses from there on. -/
inductive MisshapenClauses (s t : Store) (vs : List Value) : (String → FormFault) → Value → Prop
  | clause (before : List Value) {rest : List Value} {v : Value} : vs = before ++ v :: rest →
      (∀ test forms, s.list? v ≠ some (test :: forms)) → MisshapenClauses s t vs .condClause v
  | early (before : List Value) {rest forms : List Value} {v shown : Value} :
      vs = before ++ v :: rest →
      s.list? v = some (.symbol ⟨"else"⟩ :: forms) → rest ≠ [] →
      t.list? shown = some (v :: rest) → MisshapenClauses s t vs .condElse shown
  | body (before : List Value) {rest : List Value} {v test : Value} : vs = before ++ v :: rest →
      s.list? v = some [test] → MisshapenClauses s t vs .condBody v

lemma MisshapenClauses.cons {fault : String → FormFault} (h : s.MisshapenClauses t vs fault v)
    (w : Value) : s.MisshapenClauses t (w :: vs) fault v := by
  cases h with
  | clause before hvs hclause => exact .clause (w :: before) (by rw [hvs]; rfl) hclause
  | early before hvs hlist hrest hshown =>
    exact .early (w :: before) (by rw [hvs]; rfl) hlist hrest hshown
  | body before hvs hlist => exact .body (w :: before) (by rw [hvs]; rfl) hlist

/-- The first clause that has another shape is found, and nothing happens but that the list of the
remaining clauses may be made for the message. -/
lemma exists_misshapenClauses (h : ¬∃ clauses, s.Clauses vs clauses) :
    ∃ fault v t, s.MisshapenClauses t vs fault v ∧ s.AddsFresh t ∧
      ∀ limit, Derived.clauses limit vs s = .error (t.faultError limit fault v) t := by
  induction vs with
  | nil => exact absurd ⟨[], .nil, by simp⟩ h
  | cons v vs ih =>
    by_cases hclause : ∃ test forms, s.list? v = some (test :: forms)
    · obtain ⟨test, forms, hlist⟩ := hclause
      have hfound (limit : Nat) : Derived.clause limit v s = .ok (test, forms) s := by
        rw [Derived.clause, Effect.get_bind, hlist]
        rfl
      by_cases helse : (Derived.isElse test && !vs.isEmpty) = true
      · obtain ⟨d, t, hd, hfresh, hshown⟩ := exists_newList v vs s
        obtain ⟨htest, hvs⟩ : test = .symbol ⟨"else"⟩ ∧ vs ≠ [] := by
          simpa [Derived.isElse_iff] using helse
        rw [htest] at hlist
        refine ⟨.condElse, .pair d, t, .early [] rfl hlist hvs hshown.list?_eq, hfresh,
          fun limit => ?_⟩
        rw [Derived.clauses, Effect.bind_ok (hfound limit)]
        simp only [helse, if_true]
        rw [Effect.bind_ok hd, Effect.bind_error (malformedBy_eq limit _ _ t)]
      · have hnotElse (limit : Nat) : Derived.clauses limit (v :: vs) s =
            (do
              if forms.isEmpty then Effect.malformedBy limit .condBody v
              return (test, forms) :: (← Derived.clauses limit vs)) s := by
          rw [Derived.clauses, Effect.bind_ok (hfound limit)]
          simp only [helse, Bool.false_eq_true, if_false]
        by_cases hforms : forms = []
        · rw [hforms] at hlist
          refine ⟨.condBody, v, s, .body [] rfl hlist, .refl s, fun limit => ?_⟩
          rw [hnotElse]
          simp only [hforms, List.isEmpty_nil, if_true]
          rw [Effect.bind_error (malformedBy_eq limit _ _ s)]
        · have hrest : ¬∃ clauses, s.Clauses vs clauses := by
            rintro ⟨rest, hshape, hlast⟩
            refine h ⟨(test, forms) :: rest, .cons ⟨hlist, hforms⟩ hshape, fun clause hmem => ?_⟩
            cases hshape with
            | nil => simp at hmem
            | cons =>
              rcases List.mem_cons.mp hmem with rfl | hmem
              · exact fun htest => helse (by simp [(Derived.isElse_iff test).mpr htest])
              · exact hlast clause hmem
          obtain ⟨fault, v', t, hshape, hfresh, hrest⟩ := ih hrest
          refine ⟨fault, v', t, hshape.cons v, hfresh, fun limit => ?_⟩
          rw [hnotElse]
          simp only [List.isEmpty_iff, hforms, if_false]
          rw [Effect.bind_error (hrest limit)]
    · have hclause (test : Value) (forms : List Value) : s.list? v ≠ some (test :: forms) :=
        fun hlist => hclause ⟨test, forms, hlist⟩
      refine ⟨.condClause, v, s, .clause [] rfl hclause, .refl s, fun limit => ?_⟩
      have hfails : Derived.clause limit v s = .error (s.faultError limit .condClause v) s := by
        rw [Derived.clause, Effect.get_bind]
        cases hlist : s.list? v with
        | none => exact malformedBy_eq limit _ v s
        | some members =>
          cases members with
          | nil => exact malformedBy_eq limit _ v s
          | cons test forms => exact absurd hlist (hclause test forms)
      rw [Derived.clauses, Effect.bind_error hfails]

/-- What becomes of a fault in whose message a value is shown: the error with the text of the value, or
the error that a number in it has too many digits. -/
inductive ShownFault (s : Store) (fault : String → FormFault) (v : Value) : Error → Prop
  | shown {limit : Nat} {text : String} : s.render limit v = .ok text →
      ShownFault s fault v (.ofForm (fault text))
  | tooManyDigits : s.HasLongNumber v → ShownFault s fault v .tooManyDigits

/-- With a limit that is not smaller than the number of cells, it does not depend on the limit. -/
lemma exists_shownFault (s : Store) (fault : String → FormFault) (v : Value) :
    ∃ e, s.ShownFault fault v e ∧
      ∀ limit, s.cells.size < limit → s.faultError limit fault v = e := by
  rcases s.exists_rendering v with ⟨text, htext⟩ | ⟨hlong, hrender⟩
  · refine ⟨.ofForm (fault text), .shown (htext _ (Nat.lt_succ_self _)), fun limit hlimit => ?_⟩
    rw [faultError, htext limit hlimit]
  · refine ⟨.tooManyDigits, .tooManyDigits hlong, fun limit hlimit => ?_⟩
    rw [faultError, hrender limit hlimit]

end Store

/-! ## The whole form -/

section Meaning

variable {s : Store} {c : CellId} {vs : List Value} {clauses : List (Value × List Value)}

end Meaning

end SmallScheme
