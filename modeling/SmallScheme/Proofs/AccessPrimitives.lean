import SmallScheme.Primitive.Run
import SmallScheme.Proofs.Access
import SmallScheme.Proofs.PrintingError

/-!
# Native procedures ask only for arguments that are there

The native procedures, written with explicit accesses: the arguments are asked for by their index,
the parts of a pair and the integer of a number by themselves, and a sum is folded only over a list
that is not empty.  What checks there are comes first.  The only access that fails on purpose is the
division by zero: it is caught where it arises, and becomes a complaint.

The main result is `ByAccess.run_eq`: whatever the host answers for missing parts, each primitive
does what it did.
-/

namespace SmallScheme

namespace ByAccess

open Access Effect

section Definitions

variable (h : Host) (limit : Nat) (p : Primitive)

/-- There have to be enough arguments. -/
def expectArgs (count : Nat) (args : List Value) : Effect Unit := do
  if args.length < count then throw (p.complain (.tooFew count args.length))

/-- A value that has to be a pair. -/
def expectPair (v : Value) : Effect Value := do
  match v with
  | .pair _ => return v
  | v => throw (p.complain (.notPair (← h.print limit v)))

/-- A value that has to be a number. -/
def expectNumber (v : Value) : Effect Unit := do
  match v with
  | .number _ => return ()
  | v => throw (p.complain (.notNumber (← h.print limit v)))

/-- The integer of a value.  Only numbers have one. -/
def integer : Value → Effect Int
  | .number n => pure n
  | _ => throw (h.missing .missingAttribute)

/-- The integers of some values, all of which have to be numbers. -/
def expectNumbers (args : List Value) : Effect (List Int) := do
  forM args (expectNumber h limit p)
  args.mapM (integer h)

/-- Whether the first argument passes a test. -/
def predicate (test : Value → Effect Bool) (args : List Value) : Effect Value := do
  expectArgs p 1 args
  return .bool (← test (← item h.missing args 0))

/-- The value found from the first argument by going to the second part once for every unit of
`steps`, and then to another part. -/
def partOf (part : Value → Effect Value) : Nat → Value → Effect Value
  | 0, v => do part (← expectPair h limit p v)
  | steps + 1, v => do partOf part steps (← second h.missing (← expectPair h limit p v))

/-- A part of the first argument, which has to be a pair, is replaced by the second argument. -/
def replacePart (write : CellId → Value → Store → Store) (args : List Value) : Effect Value := do
  expectArgs p 2 args
  match ← expectPair h limit p (← item h.missing args 0) with
  | .pair c =>
    let v ← item h.missing args 1
    modify fun s => write c v s
    return .nil
  | _ => throw (h.missing .missingAttribute)

/-- The first argument of a kind, or else the last one, if there is any. -/
def search (sought other : Bool) (args : List Value) : Effect Value := do
  match args.find? (· == .bool sought) with
  | some v => return v
  | none => if args.isEmpty then return .bool other else last h.missing args

/-- An operation on two integers, which fails for a zero divisor. -/
def operate (operation : Arithmetic) (m n : Int) : Effect Int :=
  need (fun fault => .host fault "") .divisionByZero (operation.result? m n)

/-- An operation folded over integers, of which there has to be one at least. -/
def reduce (operation : Arithmetic) : List Int → Effect Int
  | [] => throw (h.missing .wrongType)
  | n :: ns => ns.foldlM (operate operation) n

/-- A division by zero becomes a complaint. -/
def complainOfZero (operation : Arithmetic) : Error → Error
  | .host .divisionByZero _ => (Primitive.arithmetic operation).complain .divisionByZero
  | e => e

/-- An operation folded over all arguments. -/
def fold (operation : Arithmetic) (args : List Value) : Effect Value := do
  let p := Primitive.arithmetic operation
  if args.isEmpty then throw (p.complain .noArguments)
  tryCatch (do return .number (← reduce h operation (← expectNumbers h limit p args)))
    fun e => throw (complainOfZero operation e)

/-- Whether a relation holds for all the pairs. -/
def compareAll (relation : Comparison) : List (Value × Value) → Effect Value
  | [] => return .bool true
  | (v, w) :: rest => do
    let ns ← expectNumbers h limit (.comparison relation) [v, w]
    if relation.holds (← item h.missing ns 0) (← item h.missing ns 1) then compareAll relation rest
    else return .bool false

/-- What a primitive does with its arguments. -/
def run (args : List Value) : Effect Value :=
  match p with
  | .isPair => predicate h p (fun v => return v matches .pair _) args
  | .isBoolean => predicate h p (fun v => return v matches .bool _) args
  | .isSymbol => predicate h p (fun v => return v matches .symbol _) args
  | .isNumber => predicate h p (fun v => return v matches .number _) args
  | .isNull => predicate h p (fun v => return v == .nil) args
  | .isZero =>
    predicate h p
      (fun v => do if v matches .number _ then return (← integer h v) == 0 else return false) args
  | .not => predicate h p (fun v => return v == .bool false) args
  | .cons => do
    expectArgs p 2 args
    let v ← item h.missing args 0
    let w ← item h.missing args 1
    modifyGet fun s => s.cons v w
  | .car => do
    expectArgs p 1 args
    partOf h limit p (first h.missing) 0 (← item h.missing args 0)
  | .cdr => do
    expectArgs p 1 args
    partOf h limit p (second h.missing) 0 (← item h.missing args 0)
  | .cadr => do
    expectArgs p 1 args
    partOf h limit p (first h.missing) 1 (← item h.missing args 0)
  | .caddr => do
    expectArgs p 1 args
    partOf h limit p (first h.missing) 2 (← item h.missing args 0)
  | .list => modifyGet fun s => s.list args
  | .setCar => replacePart h limit p (fun c v s => s.setCar c v) args
  | .setCdr => replacePart h limit p (fun c v s => s.setCdr c v) args
  | .same => do
    expectArgs p 2 args
    return .bool ((← item h.missing args 0) == (← item h.missing args 1))
  | .and => search h false true args
  | .or => search h true false args
  | .arithmetic operation => fold h limit operation args
  | .comparison relation => compareAll h limit relation (args.zip args.tail)
  | .write channel => do
    expectArgs p 1 args
    let text ← h.print limit (← item h.missing args 0)
    modify fun s => s.print channel (text ++ "\n")
    return .nil
  | .foreign procedure => Primitive.runForeign args procedure

/-- A native procedure is applied by a program. -/
def applyBuiltin (b : Builtin) (args : List Value) : Effect Value :=
  tryCatch (run h limit b.primitive args) fun e => throw (b.report e)

end Definitions

/-! ## They do the same -/

section Agreement

variable (missing : HostFault → Error) (limit : Nat) (p : Primitive)

lemma throw_bind {α β : Type} (e : Error) (f : α → Effect β) :
    (throw e : Effect α) >>= f = throw e := rfl

lemma throw_map {α β : Type} (e : Error) (f : α → β) :
    f <$> (throw e : Effect α) = throw e := rfl

/-- The pair is asked for as a value here, and as a cell there. -/
lemma expectPair_bind {α : Type} {f : Value → Effect α} {g : CellId → Effect α}
    (hfg : ∀ c, f (.pair c) = g c) (v : Value) :
    expectPair (.usual missing) limit p v >>= f = p.cellOf limit v >>= g := by
  cases v with
  | pair c => simpa [expectPair, Primitive.cellOf] using hfg c
  | _ => simp [expectPair, Primitive.cellOf, throw_bind]

lemma partOf_first_eq (steps : Nat) (v : Value) :
    partOf (.usual missing) limit p (first missing) steps v = p.nthOf limit steps v := by
  induction steps generalizing v with
  | zero => exact expectPair_bind missing limit p (fun c => rfl) v
  | succ steps ih =>
    refine expectPair_bind missing limit p (fun c => ?_) v
    funext s
    exact congrFun (ih _) s

/-- The store is looked at before the pair is known to be one, or afterwards. -/
lemma partOf_second_eq (v : Value) :
    partOf (.usual missing) limit p (second missing) 0 v =
      (do return ((← get).cell (← p.cellOf limit v)).cdr) := by
  cases v with
  | pair c => rfl
  | _ =>
    funext s
    rw [get_bind]
    simp [partOf, expectPair, Primitive.cellOf, throw_bind, throw_map]

lemma replacePart_eq (write : CellId → Value → Store → Store) (v w : Value) (args : List Value) :
    replacePart (.usual missing) limit p write (v :: w :: args) =
      (do
        let c ← p.cellOf limit v
        modify fun s => write c w s
        return .nil) :=
  expectPair_bind missing limit p (fun _ => rfl) v

lemma expectNumbers_eq (args : List Value) :
    expectNumbers (.usual missing) limit p args = args.mapM (p.numberOf limit) := by
  induction args with
  | nil => rfl
  | cons v args ih =>
    rw [List.mapM_cons, ← ih]
    unfold expectNumbers
    rw [List.forM_cons, List.mapM_cons]
    rcases v with (_ | _ | n | _ | _) | _ | _ | _ | _
    case atom.number => simp [expectNumber, integer, Primitive.numberOf]
    all_goals simp [expectNumber, Primitive.numberOf, throw_bind]

/-- The numbers are refused with a complaint, or because a limit keeps it from being written. -/
lemma ordinary_of_numberOf {v : Value} {s t : Store} {e : Error}
    (h : p.numberOf limit v s = .error e t) : e.Ordinary := by
  rcases v with (_ | _ | n | _ | _) | _ | _ | _ | _
  case atom.number => cases h
  all_goals
    rcases shown_cases limit _ s with ⟨text, htext⟩ | ⟨e', he', herror⟩
    · cases (Effect.bind_ok htext).symm.trans h
      trivial
    · cases (Effect.bind_error herror).symm.trans h
      exact (Store.ofLimit_of_render he').ordinary

lemma ordinary_of_mapM_numberOf {vs : List Value} {s t : Store} {e : Error}
    (h : vs.mapM (p.numberOf limit) s = .error e t) : e.Ordinary := by
  induction vs generalizing s with
  | nil => cases h
  | cons v vs ih =>
    rw [List.mapM_cons] at h
    cases hv : p.numberOf limit v s with
    | error e' s' =>
      cases (Effect.bind_error hv).symm.trans h
      exact ordinary_of_numberOf limit p hv
    | ok n s' =>
      rw [Effect.bind_ok hv] at h
      cases hvs : vs.mapM (p.numberOf limit) s' with
      | error e' s'' =>
        cases (Effect.bind_error hvs).symm.trans h
        exact ih hvs
      | ok ns s'' => cases (Effect.bind_ok hvs).symm.trans h

/-- The fold meets a zero divisor here where it complains there. -/
lemma foldlM_operate_cases (operation : Arithmetic) (total : Int) (ns : List Int) (s : Store) :
    (∃ n, ns.foldlM (operate operation) total s = .ok n s ∧
      Primitive.foldNumbers operation total ns s = .ok n s) ∨
    ns.foldlM (operate operation) total s = .error (.host .divisionByZero "") s ∧
      Primitive.foldNumbers operation total ns s =
        .error ((Primitive.arithmetic operation).complain .divisionByZero) s := by
  induction ns generalizing total with
  | nil => exact .inl ⟨total, rfl, rfl⟩
  | cons n ns ih =>
    rw [List.foldlM_cons]
    unfold Primitive.foldNumbers operate
    cases operation.result? total n with
    | none => exact .inr ⟨rfl, rfl⟩
    | some total' => exact ih total'

lemma complainOfZero_of_ordinary (operation : Arithmetic) {e : Error} (he : e.Ordinary) :
    complainOfZero operation e = e := by
  cases e with
  | host => exact he.elim
  | _ => rfl

lemma fold_eq (operation : Arithmetic) (args : List Value) :
    fold (.usual missing) limit operation args =
      (Primitive.arithmetic operation).start limit args := by
  rcases args with _ | ⟨v, vs⟩
  · rfl
  · funext s
    let p := Primitive.arithmetic operation
    show (tryCatch _ fun e => throw (complainOfZero operation e) : Effect Value) s =
      (p.numberOf limit v >>= _) s
    have hnumbers : expectNumbers (.usual missing) limit p (v :: vs) s =
        (v :: vs).mapM (p.numberOf limit) s := by rw [expectNumbers_eq]
    rw [List.mapM_cons] at hnumbers
    cases hv : p.numberOf limit v s with
    | error e t =>
      rw [Effect.bind_error hv] at hnumbers ⊢
      refine (tryCatch_error (Effect.bind_error hnumbers)).trans ?_
      rw [complainOfZero_of_ordinary operation (ordinary_of_numberOf limit p hv)]
    | ok n t =>
      rw [Effect.bind_ok hv] at hnumbers ⊢
      cases hvs : vs.mapM (p.numberOf limit) t with
      | error e t' =>
        rw [Effect.bind_error hvs] at hnumbers ⊢
        refine (tryCatch_error (Effect.bind_error hnumbers)).trans ?_
        rw [complainOfZero_of_ordinary operation (ordinary_of_mapM_numberOf limit p hvs)]
      | ok ns t' =>
        rw [Effect.bind_ok hvs] at hnumbers ⊢
        rcases foldlM_operate_cases operation n ns t' with ⟨m, hfold, heq⟩ | ⟨hfold, heq⟩
        · rw [Effect.bind_ok heq]
          exact tryCatch_ok ((Effect.bind_ok hnumbers).trans (Effect.bind_ok hfold))
        · rw [Effect.bind_error heq]
          exact tryCatch_error (e := .host .divisionByZero "")
            ((Effect.bind_ok hnumbers).trans (Effect.bind_error hfold))

lemma search_eq (sought other : Bool) (args : List Value) :
    search (.usual missing) sought other args =
      pure ((args.find? (· == .bool sought)).getD (args.getLastD (.bool other))) := by
  unfold search
  cases args.find? (· == .bool sought) with
  | some v => rfl
  | none =>
    rcases args.eq_nil_or_concat' with rfl | ⟨vs, v, rfl⟩
    · rfl
    · simp

lemma compareAll_eq (relation : Comparison) (args : List Value) :
    compareAll (.usual missing) limit relation (args.zip args.tail) =
      (do return .bool (← Primitive.compareAll relation limit args)) := by
  induction args with
  | nil => simp [compareAll, Primitive.compareAll]
  | cons v rest ih =>
    cases rest with
    | nil => simp [compareAll, Primitive.compareAll]
    | cons w rest =>
      rw [List.tail_cons] at ih
      simp only [List.tail_cons, List.zip_cons_cons, compareAll, Primitive.compareAll, ih,
        expectNumbers_eq, List.mapM_cons, List.mapM_nil, bind_assoc, pure_bind, Host.usual_missing,
        item_zero, item_succ]
      refine bind_congr fun m => bind_congr fun n => ?_
      split
      · rfl
      · rw [pure_bind]

/-- **No primitive asks for a part that is missing**: whatever the host answers then, it does what
it did. -/
theorem run_eq (args : List Value) : run (.usual missing) limit p args = p.run limit args := by
  cases p with
  | isPair | isBoolean | isSymbol | isNumber | isNull | not => cases args <;> rfl
  | isZero =>
    rcases args with _ | ⟨(_ | _ | n | _ | _) | _ | _ | _, _⟩
    case cons.atom.number =>
      have hzero : (n == 0) = (Value.number n == .number 0) := by
        rw [Bool.eq_iff_iff]
        simp
      exact congrArg (fun b => (pure (Value.bool b) : Effect Value)) hzero
    all_goals rfl
  | cons | same => rcases args with _ | ⟨v, _ | ⟨w, args⟩⟩ <;> rfl
  | car | cadr | caddr =>
    rcases args with _ | ⟨v, args⟩
    · rfl
    · exact partOf_first_eq missing limit _ _ v
  | cdr =>
    rcases args with _ | ⟨v, args⟩
    · rfl
    · exact partOf_second_eq missing limit _ v
  | list => rfl
  | setCar | setCdr =>
    rcases args with _ | ⟨v, _ | ⟨w, args⟩⟩
    · rfl
    · rfl
    · exact replacePart_eq missing limit _ _ v w args
  | and => exact search_eq missing false true args
  | or => exact search_eq missing true false args
  | arithmetic operation => exact fold_eq missing limit operation args
  | comparison relation => exact compareAll_eq missing limit relation args
  | write channel => cases args <;> rfl
  | foreign procedure => rfl

lemma applyBuiltin_eq (b : Builtin) (args : List Value) :
    applyBuiltin (.usual missing) limit b args = b.apply limit args := by
  rw [applyBuiltin, run_eq, Builtin.apply]

end Agreement

end ByAccess

end SmallScheme
