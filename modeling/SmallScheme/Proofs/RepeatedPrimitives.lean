import SmallScheme.Proofs.Repetition

/-!
# Native procedures that are repeated

A native procedure does the same to values with other numbers, and it gives the value with the other
number (`Replication.repeats_builtin`).  It cannot do otherwise: it compares values only with each
other and with atoms, and whatever it prints does not show numbers.
-/

namespace SmallScheme

namespace Replication

variable {R : Replication} {limit n : Nat} {p : Primitive} {v w : Value} {vs ws : List Value}

/-! ## Arguments and folds -/

lemma repeats_complain {α β : Type} {Q : Nat → α → β → Prop} (complaint : Complaint) :
    R.Repeats n Q (throw (p.complain complaint)) (throw (p.complain complaint)) :=
  repeats_throw _

lemma repeats_pure_value (hv : R.Copies n v w) : R.Repeats n R.Copies (pure v) (pure w) :=
  repeats_pure fun _ hk => hv.mono hk

lemma repeats_pure_atom (a : Atom) : R.Repeats n R.Copies (pure (.atom a)) (pure (.atom a)) :=
  repeats_pure_value (copies_atom n a)

lemma repeats_cellOf (hv : R.Copies n v w) :
    R.Repeats n R.CopiesCell (p.cellOf limit v) (p.cellOf limit w) := by
  have hcomplain : R.Repeats n R.CopiesCell
      (do throw (p.complain (.notPair (← Effect.shown limit v))))
      (do throw (p.complain (.notPair (← Effect.shown limit w)))) :=
    repeats_throw_shown limit hv fun text => p.complain (.notPair text)
  obtain ⟨rfl, hwithin⟩ := hv
  cases v with
  | pair c => exact repeats_pure fun _ hk => ⟨rfl, hwithin.trans_le hk⟩
  | _ => exact hcomplain

lemma repeats_numberOf (hv : R.Copies n v w) :
    R.Repeats n Same (p.numberOf limit v) (p.numberOf limit w) := by
  have hcomplain : R.Repeats n (@Same Int)
      (do throw (p.complain (.notNumber (← Effect.shown limit v))))
      (do throw (p.complain (.notNumber (← Effect.shown limit w)))) :=
    repeats_throw_shown limit hv fun text => p.complain (.notNumber text)
  obtain ⟨rfl, -⟩ := hv
  cases v with
  | atom a =>
    cases a with
    | number m => exact repeats_pure fun _ _ => rfl
    | _ => exact hcomplain
  | _ => exact hcomplain

lemma copies_car {s t : Store} (hs : R.Holds s t) (c : CellId) :
    R.Copies s.cells.size (s.cell c).car (t.cell (R.cell c)).car := by
  rw [hs.cell]
  exact ⟨rfl, hs.closed.car c⟩

lemma copies_cdr {s t : Store} (hs : R.Holds s t) (c : CellId) :
    R.Copies s.cells.size (s.cell c).cdr (t.cell (R.cell c)).cdr := by
  rw [hs.cell]
  exact ⟨rfl, hs.closed.cdr c⟩

lemma repeats_nthOf (steps : Nat) (hv : R.Copies n v w) :
    R.Repeats n R.Copies (p.nthOf limit steps v) (p.nthOf limit steps w) := by
  induction steps generalizing n v w with
  | zero =>
    refine (repeats_cellOf hv).bind fun _ c d _ hc => repeats_get_bind fun s t hs _ => ?_
    rw [hc.1]
    exact repeats_pure_value (copies_car hs c)
  | succ steps ih =>
    refine (repeats_cellOf hv).bind fun _ c d _ hc => repeats_get_bind fun s t hs _ => ?_
    rw [hc.1]
    exact ih (copies_cdr hs c)

lemma repeats_cdr (hv : R.Copies n v w) :
    R.Repeats n R.Copies (do return ((← get).cell (← p.cellOf limit v)).cdr)
      (do return ((← get).cell (← p.cellOf limit w)).cdr) := by
  refine repeats_get_bind fun s t hs hn => ?_
  refine (repeats_cellOf (hv.mono hn)).bind fun _ c d hk hc => ?_
  rw [hc.1]
  exact repeats_pure_value ((copies_cdr hs c).mono hk)

lemma repeats_foldNumbers (operation : Arithmetic) (total : Int) (ns : List Int) :
    R.Repeats n Same (Primitive.foldNumbers operation total ns)
      (Primitive.foldNumbers operation total ns) := by
  induction ns generalizing total with
  | nil => exact repeats_pure fun _ _ => rfl
  | cons m ns ih =>
    unfold Primitive.foldNumbers
    split
    · exact ih _
    · exact repeats_complain _

lemma repeats_compareAll (relation : Comparison) (hvs : R.CopiesAll n vs ws) :
    R.Repeats n Same (Primitive.compareAll relation limit vs)
      (Primitive.compareAll relation limit ws) := by
  induction vs generalizing n ws with
  | nil =>
    rw [hvs.of_nil]
    exact repeats_pure fun _ _ => rfl
  | cons v vs ih =>
    obtain ⟨w, ws, rfl, hv, hvs⟩ := hvs.of_cons
    cases vs with
    | nil =>
      rw [hvs.of_nil]
      exact repeats_pure fun _ _ => rfl
    | cons v' vs =>
      obtain ⟨w', ws', rfl, hv', -⟩ := id hvs.of_cons
      unfold Primitive.compareAll
      refine (repeats_numberOf hv).bind fun _ a _ hk heq => ?_
      obtain rfl := heq
      refine (repeats_numberOf (hv'.mono hk)).bind fun _ b _ hk' heq => ?_
      obtain rfl := heq
      split
      · exact ih (hvs.mono (hk.trans hk'))
      · exact repeats_pure fun _ _ => rfl

/-- The first argument that is a certain atom is found in the same place. -/
lemma copies_findD (hvs : R.CopiesAll n vs ws) (a b : Atom) :
    R.Copies n ((vs.find? (· == .atom a)).getD (vs.getLastD (.atom b)))
      ((ws.find? (· == .atom a)).getD (ws.getLastD (.atom b))) := by
  obtain ⟨rfl, hwithin⟩ := hvs
  have hlast : (vs.map R.value).getLastD (.atom b) = R.value (vs.getLastD (.atom b)) := by
    rw [List.getLastD_eq_getLast?, List.getLastD_eq_getLast?, List.getLast?_map]
    cases vs.getLast? <;> rfl
  have hfind : (vs.map R.value).find? (· == .atom a) =
      (vs.find? (· == .atom a)).map R.value := by
    rw [List.find?_map]
    congr 2
    funext v
    exact R.value_beq_atom v a
  rw [hlast, hfind]
  cases h : vs.find? (· == .atom a) with
  | some v => exact ⟨rfl, hwithin v (List.mem_of_find?_eq_some h)⟩
  | none =>
    refine ⟨rfl, ?_⟩
    cases hvs : vs.getLast? with
    | none => simp [List.getLastD_eq_getLast?, hvs]
    | some v =>
      simpa [List.getLastD_eq_getLast?, hvs] using hwithin v (List.mem_of_getLast? hvs)

/-! ## What is added to a store -/

/-- A new pair has the next number in both stores. -/
lemma holds_cons {s t : Store} (hs : R.Holds s t) (hv : R.Copies s.cells.size v w)
    {v' w' : Value} (hv' : R.Copies s.cells.size v' w') :
    R.Holds (s.cons v v').2 (t.cons w w').2 ∧
      R.Copies (s.cons v v').2.cells.size (s.cons v v').1 (t.cons w w').1 := by
  obtain ⟨rfl, hwithin⟩ := hv
  obtain ⟨rfl, hwithin'⟩ := hv'
  have hsize : (s.cons v v').2.cells.size = s.cells.size + 1 := by simp [Store.cons]
  refine ⟨hs.cons hwithin hwithin', congrArg Value.pair (hs.nextCell 0).symm, ?_⟩
  rw [hsize]
  exact Nat.lt_succ_self _

lemma holds_chain {s t : Store} (hs : R.Holds s t) (hvs : R.CopiesAll s.cells.size vs ws)
    {last last' : Value} (hlast : R.Copies s.cells.size last last') :
    R.Holds (s.chain vs last).2 (t.chain ws last').2 ∧
      R.Copies (s.chain vs last).2.cells.size (s.chain vs last).1 (t.chain ws last').1 ∧
      s.cells.size ≤ (s.chain vs last).2.cells.size := by
  induction vs generalizing ws with
  | nil =>
    rw [hvs.of_nil]
    exact ⟨hs, hlast, le_rfl⟩
  | cons v vs ih =>
    obtain ⟨w, ws, rfl, hv, hvs⟩ := hvs.of_cons
    obtain ⟨hs', hrest, hle⟩ := ih hvs
    obtain ⟨hs'', hpair⟩ := holds_cons hs' (hv.mono hle) hrest
    rw [Store.chain_cons, Store.chain_cons]
    exact ⟨hs'', hpair, hle.trans (Store.extends_cons _ _ _).size_le⟩

lemma repeats_list (hvs : R.CopiesAll n vs ws) :
    R.Repeats n R.Copies (modifyGet fun s => s.list vs) (modifyGet fun s => s.list ws) := by
  refine repeats_modifyGet fun s t hs hn => ?_
  obtain ⟨hs', hcopies, hle⟩ := holds_chain hs (hvs.mono hn) (copies_atom _ .nil)
  exact ⟨hs', hn.trans hle, hcopies⟩

lemma repeats_cons (hv : R.Copies n v w) {v' w' : Value} (hv' : R.Copies n v' w') :
    R.Repeats n R.Copies (modifyGet fun s => s.cons v v') (modifyGet fun s => s.cons w w') := by
  refine repeats_modifyGet fun s t hs hn => ?_
  obtain ⟨hs', hcopies⟩ := holds_cons hs (hv.mono hn) (hv'.mono hn)
  exact ⟨hs', hn.trans (Store.extends_cons _ _ _).size_le, hcopies⟩

lemma repeats_addForeign (f : ForeignValue) :
    R.Repeats n R.Copies (modifyGet fun s => s.addForeign f)
      (modifyGet fun s => s.addForeign f) := by
  refine repeats_modifyGet fun s t hs hn => ?_
  obtain ⟨heq, hs'⟩ := hs.addForeign f
  have hsize : (s.addForeign f).2.cells = s.cells := by
    unfold Store.addForeign
    split <;> rfl
  have hvalue : ∃ id, (s.addForeign f).1 = .foreign f id := by
    unfold Store.addForeign
    split <;> exact ⟨_, rfl⟩
  obtain ⟨id, hid⟩ := hvalue
  refine ⟨hs', by rwa [hsize], ?_⟩
  rw [heq, hid]
  exact ⟨rfl, trivial⟩

/-- A part of a pair is replaced. -/
lemma repeats_setPart (write : CellId → Value → Store → Store)
    (hholds : ∀ {s t c v}, R.Holds s t → c < s.cells.size → v.Within s.cells.size →
      R.Holds (write c v s) (write (R.cell c) (R.value v) t))
    (hsize : ∀ c v s, (write c v s).cells.size = s.cells.size) (hv : R.Copies n v w)
    {v' w' : Value} (hv' : R.Copies n v' w') :
    R.Repeats n R.Copies
      (do
        let c ← p.cellOf limit v
        modify fun s => write c v' s
        return .nil)
      (do
        let c ← p.cellOf limit w
        modify fun s => write c w' s
        return .nil) := by
  refine (repeats_cellOf hv).bind fun k c d hk hc => ?_
  obtain ⟨rfl, hlt⟩ := hc
  obtain ⟨rfl, hwithin⟩ := hv'
  refine Repeats.bind (Q := Same) ?_ fun _ _ _ _ _ => repeats_pure_atom .nil
  refine repeats_modify fun s t hs hn => ⟨?_, by rwa [hsize]⟩
  exact hholds hs (hlt.trans_le hn) (hwithin.mono (hk.trans hn))

/-! ## Procedures -/

lemma repeats_arithmetic (operation : Arithmetic) (hv : R.Copies n v w)
    (hvs : R.CopiesAll n vs ws) :
    R.Repeats n R.Copies
      (do
        let m ← p.numberOf limit v
        let ms ← vs.mapM (p.numberOf limit)
        return .number (← Primitive.foldNumbers operation m ms))
      (do
        let m ← p.numberOf limit w
        let ms ← ws.mapM (p.numberOf limit)
        return .number (← Primitive.foldNumbers operation m ms)) := by
  refine (repeats_numberOf hv).bind fun _ m _ hk heq => ?_
  obtain rfl := heq
  have hnumber {n : Nat} {v w : Value} (hv : R.Copies n v w) :
      R.Repeats n Same (p.numberOf limit v) (p.numberOf limit w) := repeats_numberOf hv
  have hnumbers := repeats_mapM (hvs.mono hk) fun _ _ _ _ hv => hnumber hv
  refine hnumbers.bind fun _ ms _ _ heq => ?_
  obtain rfl := heq
  refine (repeats_foldNumbers operation _ _).bind fun _ total _ _ heq => ?_
  obtain rfl := heq
  exact repeats_pure_atom _

lemma repeats_write (channel : Channel) (hv : R.Copies n v w) :
    R.Repeats n R.Copies
      (do
        let text ← Effect.shown limit v
        modify fun s => s.print channel (text ++ "\n")
        return .nil)
      (do
        let text ← Effect.shown limit w
        modify fun s => s.print channel (text ++ "\n")
        return .nil) := by
  refine (repeats_shown limit hv).bind fun _ text _ _ heq => ?_
  obtain rfl := heq
  refine Repeats.bind (Q := Same) ?_ fun _ _ _ _ _ => repeats_pure_atom .nil
  exact repeats_modify fun s t hs hn => ⟨hs.print channel _, hn⟩

lemma repeats_runForeign (procedure : Foreign) (hvs : R.CopiesAll n vs ws) :
    R.Repeats n R.Copies (Primitive.runForeign vs procedure)
      (Primitive.runForeign ws procedure) := by
  cases procedure with
  | constant m => exact repeats_pure_atom _
  | argumentCount =>
    simp only [Primitive.runForeign, hvs.length_eq]
    exact repeats_pure_atom _
  | argumentList => exact repeats_list hvs
  | value f => exact repeats_addForeign f
  | fails fault message => exact repeats_throw _
  | complains message => exact repeats_throw _

/-- A procedure that uses its first argument. -/
lemma repeats_of_one {F : List Value → Effect Value} (hvs : R.CopiesAll n vs ws)
    (hnone : F [] = throw (p.complain (.tooFew p.needed 0)))
    (hone : ∀ {v w vs ws}, R.Copies n v w → R.Repeats n R.Copies (F (v :: vs)) (F (w :: ws))) :
    R.Repeats n R.Copies (F vs) (F ws) := by
  cases vs with
  | nil =>
    rw [hvs.of_nil, hnone]
    exact repeats_complain _
  | cons v vs =>
    obtain ⟨w, ws, rfl, hv, -⟩ := hvs.of_cons
    exact hone hv

/-- A procedure that uses its first two arguments. -/
lemma repeats_of_two {F : List Value → Effect Value} (hvs : R.CopiesAll n vs ws)
    (hnone : F [] = throw (p.complain (.tooFew p.needed 0)))
    (hone : ∀ v, F [v] = throw (p.complain (.tooFew p.needed 1)))
    (htwo : ∀ {v w v' w' vs ws}, R.Copies n v w → R.Copies n v' w' →
      R.Repeats n R.Copies (F (v :: v' :: vs)) (F (w :: w' :: ws))) :
    R.Repeats n R.Copies (F vs) (F ws) := by
  rcases vs with _ | ⟨v, _ | ⟨v', vs⟩⟩
  · rw [hvs.of_nil, hnone]
    exact repeats_complain _
  · obtain ⟨w, ws, rfl, -, hnil⟩ := hvs.of_cons
    rw [hnil.of_nil, hone, hone]
    exact repeats_complain _
  · obtain ⟨w, ws, rfl, hv, hrest⟩ := hvs.of_cons
    obtain ⟨w', ws, rfl, hv', -⟩ := hrest.of_cons
    exact htwo hv hv'

lemma repeats_start (p : Primitive) (hvs : R.CopiesAll n vs ws) :
    R.Repeats n R.Copies (p.start limit vs) (p.start limit ws) := by
  cases p with
  | isPair | isBoolean | isSymbol | isNumber | isNull | isZero =>
    refine repeats_of_one hvs rfl fun {v w vs ws} hv => ?_
    obtain ⟨rfl, -⟩ := hv
    cases v <;> exact repeats_pure_atom _
  | not =>
    refine repeats_of_one hvs rfl fun {v w vs ws} hv => ?_
    simp only [Primitive.start, hv.1, R.value_beq_atom]
    exact repeats_pure_atom _
  | same =>
    refine repeats_of_two hvs rfl (fun _ => rfl) fun {v w v' w' vs ws} hv hv' => ?_
    simp only [Primitive.start, hv.1, hv'.1, R.value_beq]
    exact repeats_pure_atom _
  | cons => exact repeats_of_two hvs rfl (fun _ => rfl) fun hv hv' => repeats_cons hv hv'
  | car | cadr | caddr => exact repeats_of_one hvs rfl (repeats_nthOf _)
  | cdr => exact repeats_of_one hvs rfl repeats_cdr
  | setCar =>
    exact repeats_of_two hvs rfl (fun _ => rfl) fun hv hv' =>
      repeats_setPart Store.setCar (fun hs => hs.setCar) (fun _ _ _ => Array.size_modify) hv hv'
  | setCdr =>
    exact repeats_of_two hvs rfl (fun _ => rfl) fun hv hv' =>
      repeats_setPart Store.setCdr (fun hs => hs.setCdr) (fun _ _ _ => Array.size_modify) hv hv'
  | list => exact repeats_list hvs
  | and | or => exact repeats_pure_value (copies_findD hvs _ _)
  | arithmetic operation =>
    cases vs with
    | nil =>
      rw [hvs.of_nil]
      exact repeats_complain _
    | cons v vs =>
      obtain ⟨w, ws, rfl, hv, hvs⟩ := hvs.of_cons
      exact repeats_arithmetic operation hv hvs
  | comparison relation =>
    refine (repeats_compareAll relation hvs).bind fun _ b _ _ heq => ?_
    obtain rfl := heq
    exact repeats_pure_atom _
  | write channel => exact repeats_of_one hvs rfl (repeats_write channel)
  | foreign procedure => exact repeats_runForeign procedure hvs

lemma repeats_builtin (b : Builtin) (hvs : R.CopiesAll n vs ws) :
    R.Repeats n R.Copies (b.apply limit vs) (b.apply limit ws) := by
  have hrun : R.Repeats n R.Copies (b.primitive.run limit vs) (b.primitive.run limit ws) := by
    unfold Primitive.run
    rw [hvs.length_eq]
    split
    · exact repeats_complain _
    · exact repeats_start b.primitive hvs
  intro s t hs hn
  have hout := hrun s t hs hn
  generalize hr : b.primitive.run limit vs s = r at hout
  generalize hr' : b.primitive.run limit ws t = r' at hout
  cases hout with
  | ok hs' hn' hq =>
    rw [Builtin.apply_of_ok hr, Builtin.apply_of_ok hr']
    exact .ok hs' hn' hq
  | error hs' hn' =>
    rw [Builtin.apply_of_error hr, Builtin.apply_of_error hr']
    exact .error hs' hn'

end Replication

end SmallScheme
