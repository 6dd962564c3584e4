import SmallScheme.Proofs.Abridgement

/-!
# Native procedures and their abridgements

A native procedure is abridged by itself with a smaller limit: what it does depends on the limit only
where a complaint or an output shows a value (`RunPair.abridges_builtin`).
-/

namespace SmallScheme

namespace RunPair

variable {P : RunPair} {limit limit' : Nat} {p : Primitive} {v : Value} {vs : List Value}

/-! ## Arguments and folds -/

lemma abridges_complain {α : Type} (complaint : Complaint) :
    P.Abridges (throw (p.complain complaint) : Effect α) (throw (p.complain complaint)) :=
  abridges_throw _

lemma abridges_cellOf (hlimits : Limits P.Stops limit limit') (v : Value) :
    P.Abridges (p.cellOf limit v) (p.cellOf limit' v) := by
  cases v with
  | pair c => exact abridges_pure c
  | _ => exact abridges_throw_shown hlimits _ fun text => p.complain (.notPair text)

lemma abridges_numberOf (hlimits : Limits P.Stops limit limit') (v : Value) :
    P.Abridges (p.numberOf limit v) (p.numberOf limit' v) := by
  unfold Primitive.numberOf
  split
  · exact abridges_pure _
  · exact abridges_throw_shown hlimits _ fun text => p.complain (.notNumber text)

lemma abridges_nthOf (hlimits : Limits P.Stops limit limit') (steps : Nat) (v : Value) :
    P.Abridges (p.nthOf limit steps v) (p.nthOf limit' steps v) := by
  induction steps generalizing v with
  | zero =>
    refine (abridges_cellOf hlimits v).bind fun c => abridges_get_bind fun s s' hsame => ?_
    rw [hsame.cell_eq]
    exact abridges_pure _
  | succ steps ih =>
    refine (abridges_cellOf hlimits v).bind fun c => abridges_get_bind fun s s' hsame => ?_
    rw [hsame.cell_eq]
    exact ih _

lemma abridges_cdr (hlimits : Limits P.Stops limit limit') (v : Value) :
    P.Abridges (do return ((← get).cell (← p.cellOf limit v)).cdr)
      (do return ((← get).cell (← p.cellOf limit' v)).cdr) := by
  refine abridges_get_bind fun s s' hsame => (abridges_cellOf hlimits v).bind fun c => ?_
  rw [hsame.cell_eq]
  exact abridges_pure _

lemma abridges_foldNumbers (operation : Arithmetic) (total : Int) (ns : List Int) :
    P.Abridges (Primitive.foldNumbers operation total ns)
      (Primitive.foldNumbers operation total ns) := by
  induction ns generalizing total with
  | nil => exact abridges_pure total
  | cons n ns ih =>
    unfold Primitive.foldNumbers
    split
    · exact ih _
    · exact abridges_complain _

lemma abridges_compareAll (hlimits : Limits P.Stops limit limit') (relation : Comparison)
    (vs : List Value) :
    P.Abridges (Primitive.compareAll relation limit vs)
      (Primitive.compareAll relation limit' vs) := by
  induction vs with
  | nil => exact abridges_pure true
  | cons v vs ih =>
    cases vs with
    | nil => exact abridges_pure true
    | cons v' vs =>
      unfold Primitive.compareAll
      refine (abridges_numberOf hlimits v).bind fun m => ?_
      refine (abridges_numberOf hlimits v').bind fun n => ?_
      split
      · exact ih
      · exact abridges_pure false

/-! ## What is added to a store -/

lemma view_chain (P : RunPair) (vs : List Value) (last : Value) (s : Store) :
    (P.view s).chain vs last = ((s.chain vs last).1, P.view (s.chain vs last).2) := by
  induction vs with
  | nil => rfl
  | cons v vs ih =>
    rw [Store.chain_cons, Store.chain_cons, ih]
    rfl

lemma printed_chain (vs : List Value) (last : Value) (s : Store) :
    (s.chain vs last).2.printed = s.printed := by
  induction vs with
  | nil => rfl
  | cons v vs ih =>
    rw [Store.chain_cons]
    exact ih

lemma abridges_list (vs : List Value) :
    P.Abridges (modifyGet fun s => s.list vs) (modifyGet fun s => s.list vs) :=
  abridges_modifyGet (P.view_chain vs .nil) fun s =>
    Store.precedes_of_printed_eq (printed_chain vs .nil s)

lemma abridges_cons (car cdr : Value) :
    P.Abridges (modifyGet fun s => s.cons car cdr) (modifyGet fun s => s.cons car cdr) :=
  abridges_modifyGet (fun _ => rfl) fun _ => Store.precedes_of_printed_eq rfl

lemma abridges_addForeign (w : ForeignValue) :
    P.Abridges (modifyGet fun s => s.addForeign w) (modifyGet fun s => s.addForeign w) := by
  refine abridges_modifyGet (fun s => ?_) fun s => Store.precedes_of_printed_eq ?_
  · unfold Store.addForeign
    split <;> rfl
  · unfold Store.addForeign
    split <;> rfl

/-- A part of a pair is replaced. -/
lemma abridges_setPart (hlimits : Limits P.Stops limit limit')
    (write : CellId → Value → Store → Store)
    (hview : ∀ c v s, write c v (P.view s) = P.view (write c v s))
    (hprinted : ∀ c v s, (write c v s).printed = s.printed) (v v' : Value) :
    P.Abridges
      (do
        let c ← p.cellOf limit v
        modify fun s => write c v' s
        return .nil)
      (do
        let c ← p.cellOf limit' v
        modify fun s => write c v' s
        return .nil : Effect Value) := by
  refine (abridges_cellOf hlimits v).bind fun c => ?_
  have hwrite : P.Abridges (modify fun s => write c v' s) (modify fun s => write c v' s) :=
    abridges_modify (hview c v') fun s => Store.precedes_of_printed_eq (hprinted c v' s)
  exact hwrite.bind fun _ => abridges_pure _

/-! ## Procedures -/

lemma abridges_arithmetic (hlimits : Limits P.Stops limit limit') (operation : Arithmetic)
    (v : Value) (vs : List Value) :
    P.Abridges
      (do
        let n ← p.numberOf limit v
        let ns ← vs.mapM (p.numberOf limit)
        return .number (← Primitive.foldNumbers operation n ns))
      (do
        let n ← p.numberOf limit' v
        let ns ← vs.mapM (p.numberOf limit')
        return .number (← Primitive.foldNumbers operation n ns) : Effect Value) := by
  refine (abridges_numberOf hlimits v).bind fun n => ?_
  refine (abridges_mapM fun v _ => abridges_numberOf hlimits v).bind fun ns => ?_
  exact (abridges_foldNumbers operation n ns).bind fun _ => abridges_pure _

lemma abridges_write (hlimits : Limits P.Stops limit limit') (channel : Channel) (v : Value) :
    P.Abridges
      (do
        let text ← Effect.shown limit v
        modify fun s => s.print channel (text ++ "\n")
        return .nil)
      (do
        let text ← Effect.shown limit' v
        modify fun s => s.print channel (text ++ "\n")
        return .nil : Effect Value) := by
  refine (abridges_shown hlimits v).bind fun text => ?_
  have hprint : P.Abridges (modify fun s => s.print channel (text ++ "\n"))
      (modify fun s => s.print channel (text ++ "\n")) :=
    abridges_modify (fun _ => rfl) fun s => Store.precedes_print channel (text ++ "\n") s
  exact hprint.bind fun _ => abridges_pure _

lemma abridges_runForeign (procedure : Foreign) (vs : List Value) :
    P.Abridges (Primitive.runForeign vs procedure) (Primitive.runForeign vs procedure) := by
  cases procedure with
  | constant n => exact abridges_pure _
  | argumentCount => exact abridges_pure _
  | argumentList => exact abridges_list vs
  | value w => exact abridges_addForeign w
  | fails fault message => exact abridges_throw _
  | complains message => exact abridges_throw _

lemma abridges_start (hlimits : Limits P.Stops limit limit') (p : Primitive) (vs : List Value) :
    P.Abridges (p.start limit vs) (p.start limit' vs) := by
  cases p with
  | isPair | isBoolean | isSymbol | isNumber | isNull | isZero | not =>
    rcases vs with _ | ⟨v, vs⟩
    · exact abridges_complain _
    · exact abridges_pure _
  | same =>
    rcases vs with _ | ⟨v, _ | ⟨v', vs⟩⟩
    · exact abridges_complain _
    · exact abridges_complain _
    · exact abridges_pure _
  | cons =>
    rcases vs with _ | ⟨v, _ | ⟨v', vs⟩⟩
    · exact abridges_complain _
    · exact abridges_complain _
    · exact abridges_cons v v'
  | car | cadr | caddr =>
    rcases vs with _ | ⟨v, vs⟩
    · exact abridges_complain _
    · exact abridges_nthOf hlimits _ v
  | cdr =>
    rcases vs with _ | ⟨v, vs⟩
    · exact abridges_complain _
    · exact abridges_cdr hlimits v
  | setCar =>
    rcases vs with _ | ⟨v, _ | ⟨v', vs⟩⟩
    · exact abridges_complain _
    · exact abridges_complain _
    · exact abridges_setPart hlimits Store.setCar (fun _ _ _ => rfl) (fun _ _ _ => rfl) v v'
  | setCdr =>
    rcases vs with _ | ⟨v, _ | ⟨v', vs⟩⟩
    · exact abridges_complain _
    · exact abridges_complain _
    · exact abridges_setPart hlimits Store.setCdr (fun _ _ _ => rfl) (fun _ _ _ => rfl) v v'
  | list => exact abridges_list vs
  | and | or => exact abridges_pure _
  | arithmetic operation =>
    rcases vs with _ | ⟨v, vs⟩
    · exact abridges_complain _
    · exact abridges_arithmetic hlimits operation v vs
  | comparison relation =>
    exact (abridges_compareAll hlimits relation vs).bind fun _ => abridges_pure _
  | write channel =>
    rcases vs with _ | ⟨v, vs⟩
    · exact abridges_complain _
    · exact abridges_write hlimits channel v
  | foreign procedure => exact abridges_runForeign procedure vs

lemma abridges_builtin (hlimits : Limits P.Stops limit limit') (b : Builtin) (vs : List Value) :
    P.Abridges (b.apply limit vs) (b.apply limit' vs) := by
  have hrun : P.Abridges (b.primitive.run limit vs) (b.primitive.run limit' vs) := by
    unfold Primitive.run
    split
    · exact abridges_complain _
    · exact abridges_start hlimits b.primitive vs
  have hfinal (s : Store) :
      Effect.final (b.apply limit' vs s) = Effect.final (b.primitive.run limit' vs s) := by
    cases h : b.primitive.run limit' vs s with
    | ok v t => rw [Builtin.apply_of_ok h]
    | error e t =>
      rw [Builtin.apply_of_error h]
      rfl
  refine ⟨fun s => ?_, fun s => hfinal s ▸ hrun.forward s⟩
  rcases hrun.run s with heq | ⟨e, t, hstop, he, hle⟩
  · cases h : b.primitive.run limit vs s with
    | ok v t =>
      rw [h] at heq
      rw [Builtin.apply_of_ok h, Builtin.apply_of_ok heq]
      exact .inl rfl
    | error e t =>
      rw [h] at heq
      rw [Builtin.apply_of_error h, Builtin.apply_of_error heq]
      exact .inl rfl
  · refine .inr ⟨e, t, ?_, he, hfinal (P.view s) ▸ hle⟩
    rw [Builtin.apply_of_error hstop, b.report_of_ordinary (P.stops_ordinary he)]

end RunPair

end SmallScheme
