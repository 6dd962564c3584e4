import SmallScheme.Proofs.Discipline

/-!
# Native procedures keep every discipline

A native procedure that is applied to data gives data, and whatever it adds to the store or writes
into it, it adds and writes data: `ensures_builtin`.  What it writes into has to be permitted.
-/

namespace SmallScheme

namespace Discipline

variable {D : Discipline} {w : D.World} {limit : Nat} {p : Primitive} {v : Value} {vs : List Value}

/-- The value may be used as data. -/
abbrev IsData (D : Discipline) (w : D.World) (v : Value) : Prop :=
  D.Good w .data v

lemma ensures_complain {α : Type} {P : D.World → α → Prop} (complaint : Complaint) :
    D.Ensures w (throw (p.complain complaint) : Effect α) P :=
  ensures_throw (D.fails_ordinary trivial)

lemma ensures_atom {a : Atom} : D.Ensures w (pure (.atom a)) D.IsData :=
  ensures_pure (D.good_atom w .data a)

/-! ## Arguments -/

lemma ensures_cellOf : D.Ensures w (p.cellOf limit v) fun _ c => v = .pair c := by
  cases v with
  | pair c => exact ensures_pure rfl
  | _ => exact Ensures.bind ensures_shown fun _ _ _ _ => ensures_complain _

lemma ensures_numberOf : D.Ensures w (p.numberOf limit v) fun _ _ => True := by
  unfold Primitive.numberOf
  split
  · exact ensures_pure trivial
  · exact Ensures.bind ensures_shown fun _ _ _ _ => ensures_complain _

lemma ensures_nthOf {steps : Nat} (hv : D.IsData w v) :
    D.Ensures w (p.nthOf limit steps v) D.IsData := by
  induction steps generalizing w v with
  | zero =>
    refine Ensures.bind ensures_cellOf fun w₁ c hle₁ hc => ?_
    subst hc
    refine Ensures.bind ensures_get fun w₂ s hle₂ hs => ensures_pure ?_
    exact D.good_car hs (D.good_mono (D.le_trans hle₁ hle₂) hv) (by simp)
  | succ steps ih =>
    refine Ensures.bind ensures_cellOf fun w₁ c hle₁ hc => ?_
    subst hc
    refine Ensures.bind ensures_get fun w₂ s hle₂ hs => ih ?_
    exact D.good_cdr hs (D.good_mono (D.le_trans hle₁ hle₂) hv) (by simp)

/-- The second part of a pair is looked up in the store before the pair is known to be one. -/
lemma ensures_cdr (hv : D.IsData w v) :
    D.Ensures w (do return ((← get).cell (← p.cellOf limit v)).cdr) D.IsData := by
  refine Ensures.bind ensures_get fun w₁ s hle hs => ?_
  cases v with
  | pair c => exact ensures_pure (D.good_cdr hs (D.good_mono hle hv) (by simp))
  | _ =>
    -- the store has been looked at, but nothing is done with it
    refine Ensures.bind (P := fun _ _ => False) ?_ fun _ _ _ h => h.elim
    exact Ensures.bind ensures_shown fun _ _ _ _ => ensures_complain _

/-! ## Folds -/

lemma ensures_foldNumbers {operation : Arithmetic} {total : Int} {ns : List Int} :
    D.Ensures w (Primitive.foldNumbers operation total ns) fun _ _ => True := by
  induction ns generalizing total with
  | nil => exact ensures_pure trivial
  | cons n ns ih =>
    unfold Primitive.foldNumbers
    split
    · exact ih
    · exact ensures_complain _

lemma ensures_compareAll {relation : Comparison} :
    D.Ensures w (Primitive.compareAll relation limit vs) fun _ _ => True := by
  induction vs generalizing w with
  | nil => exact ensures_pure trivial
  | cons v vs ih =>
    cases vs with
    | nil => exact ensures_pure trivial
    | cons v' vs =>
      unfold Primitive.compareAll
      refine Ensures.bind ensures_numberOf fun _ m _ _ => ?_
      refine Ensures.bind ensures_numberOf fun _ n _ _ => ?_
      split
      · exact ih
      · exact ensures_pure trivial

/-! ## Procedures -/

lemma ensures_list (hvs : ∀ v ∈ vs, D.IsData w v) :
    D.Ensures w (modifyGet fun s => s.list vs) D.IsData :=
  ensures_modifyGet fun _ hs => exists_list hs (goodMembers_data.mpr hvs)

lemma good_addForeign (w : D.World) (v : ForeignValue) (s : Store) :
    D.IsData w (s.addForeign v).1 := by
  unfold Store.addForeign
  split <;> exact D.good_foreign w _ _

lemma ensures_runForeign {procedure : Foreign} (hvs : ∀ v ∈ vs, D.IsData w v)
    (hfails : ∀ fault message, procedure = .fails fault message → D.Fails (.host fault message)) :
    D.Ensures w (Primitive.runForeign vs procedure) D.IsData := by
  cases procedure with
  | constant n => exact ensures_atom
  | argumentCount => exact ensures_atom
  | argumentList => exact ensures_list hvs
  | value v =>
    refine ensures_modifyGet fun s hs => ?_
    obtain ⟨w', hle, hs'⟩ := D.addForeign hs
    exact ⟨w', hle, hs', good_addForeign w' v s⟩
  | fails fault message => exact ensures_throw (hfails fault message rfl)
  | complains message => exact ensures_throw (D.fails_ordinary trivial)

lemma ensures_setPart {write : CellId → Value → Store → Store} {deed : CellId → Value → Deed}
    {v' : Value}
    (hwrite : ∀ {w s c v}, D.Holds w s → D.IsData w (.pair c) → D.IsData w v →
      D.Permits (deed c v) → ∃ w', D.le w w' ∧ D.Holds w' (write c v s))
    (hv : D.IsData w v) (hv' : D.IsData w v')
    (hdeed : ∀ c, v = .pair c → D.Permits (deed c v')) :
    D.Ensures w
      (do
        let c ← p.cellOf limit v
        modify fun s => write c v' s
        return .nil) D.IsData := by
  refine Ensures.bind ensures_cellOf fun w₁ c hle hc => ?_
  subst hc
  have hmodify := ensures_modify fun s (hs : D.Holds w₁ s) =>
    hwrite hs (D.good_mono hle hv) (D.good_mono hle hv') (hdeed c rfl)
  exact Ensures.bind hmodify fun _ _ _ _ => ensures_atom

/-- The first member with a property, or a member or an atom in its place. -/
lemma good_find?_getD {q : Value → Bool} {a : Atom} (hvs : ∀ v ∈ vs, D.IsData w v) :
    D.IsData w ((vs.find? q).getD (vs.getLastD (.atom a))) := by
  cases hfind : vs.find? q with
  | some v => exact hvs v (List.mem_of_find?_eq_some hfind)
  | none =>
    have hmem : vs.getLastD (.atom a) ∈ .atom a :: vs := List.getLastD_mem_cons
    rcases List.mem_cons.mp hmem with hlast | hlast
    · rw [Option.getD_none, hlast]
      exact D.good_atom w .data a
    · exact hvs _ hlast

lemma ensures_arithmetic {operation : Arithmetic} :
    D.Ensures w
      (do
        let n ← p.numberOf limit v
        let ns ← vs.mapM (p.numberOf limit)
        return .number (← Primitive.foldNumbers operation n ns)) D.IsData := by
  refine Ensures.bind ensures_numberOf fun w₁ n _ _ => ?_
  have hns : D.Ensures w₁ (vs.mapM (p.numberOf limit)) fun _ ns => ∀ n ∈ ns, True :=
    ensures_mapM (fun _ h => h) fun _ _ _ _ => ensures_numberOf
  refine Ensures.bind hns fun _ ns _ _ => ?_
  exact Ensures.bind ensures_foldNumbers fun _ _ _ _ => ensures_atom

lemma ensures_write {channel : Channel} :
    D.Ensures w
      (do
        let text ← Effect.shown limit v
        modify fun s => s.print channel (text ++ "\n")
        return .nil) D.IsData := by
  refine Ensures.bind ensures_shown fun _ text _ _ => ?_
  exact Ensures.bind (ensures_modify fun s hs => D.print hs) fun _ _ _ _ => ensures_atom

/-- What a primitive does, whatever the number of its arguments is. -/
lemma ensures_start (hvs : ∀ v ∈ vs, D.IsData w v)
    (hdeed : ∀ d, p.deed? vs = some d → D.Permits d)
    (hfails : ∀ fault message, p = .foreign (.fails fault message) → D.Fails (.host fault message)) :
    D.Ensures w (p.start limit vs) D.IsData := by
  cases p with
  | isPair | isBoolean | isSymbol | isNumber | isNull | isZero | not =>
    rcases vs with _ | ⟨v, vs⟩
    · exact ensures_complain _
    · exact ensures_atom
  | same =>
    rcases vs with _ | ⟨v, _ | ⟨v', vs⟩⟩
    · exact ensures_complain _
    · exact ensures_complain _
    · exact ensures_atom
  | cons =>
    rcases vs with _ | ⟨v, _ | ⟨v', vs⟩⟩
    · exact ensures_complain _
    · exact ensures_complain _
    · exact ensures_modifyGet fun s hs =>
        D.cons (r := .data) hs (hvs v (by simp)) (hvs v' (by simp))
  | car | cadr | caddr =>
    rcases vs with _ | ⟨v, vs⟩
    · exact ensures_complain _
    · exact ensures_nthOf (hvs v (by simp))
  | cdr =>
    rcases vs with _ | ⟨v, vs⟩
    · exact ensures_complain _
    · exact ensures_cdr (hvs v (by simp))
  | setCar =>
    rcases vs with _ | ⟨v, _ | ⟨v', vs⟩⟩
    · exact ensures_complain _
    · exact ensures_complain _
    · refine ensures_setPart D.setCar (hvs v (by simp)) (hvs v' (by simp)) fun c hc => ?_
      exact hdeed _ (by rw [hc]; rfl)
  | setCdr =>
    rcases vs with _ | ⟨v, _ | ⟨v', vs⟩⟩
    · exact ensures_complain _
    · exact ensures_complain _
    · refine ensures_setPart D.setCdr (hvs v (by simp)) (hvs v' (by simp)) fun c hc => ?_
      exact hdeed _ (by rw [hc]; rfl)
  | list => exact ensures_list hvs
  | and | or => exact ensures_pure (good_find?_getD hvs)
  | arithmetic operation =>
    rcases vs with _ | ⟨v, vs⟩
    · exact ensures_complain _
    · exact ensures_arithmetic
  | comparison relation =>
    exact Ensures.bind ensures_compareAll fun _ _ _ _ => ensures_atom
  | write channel =>
    rcases vs with _ | ⟨v, vs⟩
    · exact ensures_complain _
    · exact ensures_write
  | foreign procedure =>
    exact ensures_runForeign hvs fun fault message h => hfails fault message (by rw [h])

/-- **A native procedure that is applied to data gives data**, and keeps the discipline. -/
theorem ensures_builtin {b : Builtin} (hb : D.IsData w (.builtin b))
    (hvs : ∀ v ∈ vs, D.IsData w v) (hdeed : ∀ d, b.primitive.deed? vs = some d → D.Permits d) :
    D.Ensures w (b.apply limit vs) D.IsData := by
  have hrun : D.Ensures w (b.primitive.run limit vs) D.IsData := by
    unfold Primitive.run
    split
    · exact ensures_complain _
    · exact ensures_start hvs hdeed fun _ _ h => D.fails_host hb h
  have hreport {e : Error} (he : D.Fails e) : D.Fails (b.report e) := by
    unfold Builtin.report
    split
    · split
      · exact D.fails_ordinary trivial
      · exact he
    · exact he
  intro s hs
  obtain ⟨w', hle, hout⟩ := hrun s hs
  refine ⟨w', hle, ?_⟩
  cases hr : b.primitive.run limit vs s with
  | ok v s' =>
    rw [hr] at hout
    rw [Builtin.apply_of_ok hr]
    exact hout
  | error e s' =>
    rw [hr] at hout
    rw [Builtin.apply_of_error hr]
    exact ⟨hout.1, hreport hout.2⟩

end Discipline

end SmallScheme
