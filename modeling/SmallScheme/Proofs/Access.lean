import SmallScheme.Derived
import SmallScheme.Proofs.ExceptBind

/-!
# Parts that are asked for

A rule of the language looks at a part of a value only where it has found out before that the part
is there.  To say so, the rules are written once more (in the namespace `ByAccess`): first comes the
check, and then every part is asked for by itself.  What happens when a missing part is asked for is
left open, and so is how values are printed; both are up to a host (`Host`).  A rule that is written
like this does the same as the original one, whatever the host answers for missing parts.  So it
never asks for one.

Here are the accesses, and the derived forms.
-/

namespace SmallScheme

/-- What the rules leave open. -/
structure Host where
  /-- The error of asking for a missing part, by the kind of the access. -/
  missing : HostFault → Error
  /-- Prints a value, given how deeply it may nest. -/
  print : Nat → Value → Effect String

/-- The host that prints as programs do. -/
def Host.usual (missing : HostFault → Error) : Host :=
  ⟨missing, Effect.shown⟩

@[simp] lemma Host.usual_missing (missing : HostFault → Error) :
    (usual missing).missing = missing := rfl

@[simp] lemma Host.usual_print (missing : HostFault → Error) :
    (usual missing).print = Effect.shown := rfl

/-! ## Accesses -/

namespace Access

section Members

variable {m : Type → Type} [Monad m] [MonadExceptOf Error m] {α : Type}

/-- Something that has to be there. -/
def need (missing : HostFault → Error) (fault : HostFault) : Option α → m α
  | some a => pure a
  | none => throw (missing fault)

/-- The member of a list at an index. -/
def item (missing : HostFault → Error) (as : List α) (n : Nat) : m α :=
  need missing .outOfRange as[n]?

/-- The last member of a list. -/
def last (missing : HostFault → Error) (as : List α) : m α :=
  need missing .outOfRange as.getLast?

/-- What a table has under a key. -/
def entry (missing : HostFault → Error) (found : Option α) : m α :=
  need missing .missingKey found

variable (missing : HostFault → Error) (a : α) (as : List α)

@[simp] lemma need_some (fault : HostFault) : (need missing fault (some a) : m α) = pure a := rfl

@[simp] lemma item_zero : (item missing (a :: as) 0 : m α) = pure a := rfl

@[simp] lemma item_succ (n : Nat) :
    (item missing (a :: as) (n + 1) : m α) = item missing as n := rfl

@[simp] lemma last_singleton : (last missing [a] : m α) = pure a := rfl

@[simp] lemma last_cons_cons (b : α) :
    (last missing (a :: b :: as) : m α) = last missing (b :: as) := by
  simp [last]

@[simp] lemma last_concat : (last missing (as ++ [a]) : m α) = pure a := by
  simp [last]

@[simp] lemma entry_some : (entry missing (some a) : m α) = pure a := rfl

end Members

/-- The first part of a value.  Only pairs have one. -/
def first (missing : HostFault → Error) : Value → Effect Value
  | .pair c => do return ((← get).cell c).car
  | _ => throw (missing .missingAttribute)

/-- The second part of a value.  Only pairs have one. -/
def second (missing : HostFault → Error) : Value → Effect Value
  | .pair c => do return ((← get).cell c).cdr
  | _ => throw (missing .missingAttribute)

end Access

/-! ## Derived forms -/

namespace ByAccess

open Access Effect

section Definitions

variable (h : Host) (limit : Nat)

/-- An expression is no special form because of a value that is shown in the message. -/
def refuse {α : Type} (fault : String → FormFault) (v : Value) : Effect α := do
  malformed (fault (← h.print limit v))

/-- One expression that evaluates some expressions in order. -/
def sequenceForm (forms : List Value) : Effect Value := do
  if forms.length = 1 then item h.missing forms 0
  else Derived.newList (Derived.keyword .sequence :: forms)

/-- The test and the expressions of a clause, which has to be a pair and a list. -/
def clause (v : Value) : Effect (Value × List Value) := do
  let s ← get
  if (v matches .pair _) && s.isList v then
    return (← first h.missing v, s.members (← second h.missing v))
  else refuse h limit .condClause v

/-- The tests and the expressions of all clauses, checked in order. -/
def clauses : List Value → Effect (List (Value × List Value))
  | [] => return []
  | v :: rest => do
    let (test, forms) ← clause h limit v
    if Derived.isElse test && !rest.isEmpty then
      refuse h limit .condElse (← Derived.newList (v :: rest))
    if forms.isEmpty then refuse h limit .condBody v
    return (test, forms) :: (← clauses rest)

/-- The nest of choices between checked clauses. -/
def choices : List (Value × List Value) → Effect Value
  | [] => return .bool false
  | (test, forms) :: rest => do
    let otherwise ← choices rest
    let consequent ← sequenceForm h forms
    if Derived.isElse test then return consequent
    else Derived.newList [Derived.keyword .choice, test, consequent, otherwise]

/-- The clauses of a `cond` as nested choices. -/
def cond (operands : List Value) : Effect Value := do
  choices h (← clauses h limit operands)

/-- The name and the expression of a binding, which has to be a list of two members whose first one
is a symbol. -/
def binding (v : Value) : Effect (Symbol × Value) := do
  let s ← get
  if s.isList v && (s.members v).length == 2 then
    match ← first h.missing v with
    | .symbol x => return (x, ← first h.missing (← second h.missing v))
    | _ => refuse h limit .letBinding v
  else refuse h limit .letBinding v

/-- A `let` with the given binding list and body, as the application of a procedure. -/
def letIn (bindings : Value) (body : List Value) : Effect Value := do
  let s ← get
  if s.isList bindings then
    if body.isEmpty then malformed .letBody
    let bound ← (s.members bindings).mapM (binding h limit)
    let params ← Derived.newList (bound.map fun (x, _) => .symbol x)
    Derived.newList ((← Derived.lambda params body) :: bound.map Prod.snd)
  else refuse h limit .letBindings bindings

/-- The name and the value expression in the definition of a procedure, whose target has to be a
pair that starts with a symbol. -/
def procedureDefinition (target : Value) (operands : List Value) : Effect (Symbol × Value) := do
  match ← first h.missing target with
  | .symbol x =>
    if operands.length < 2 then malformed (.defineBody x)
    return (x, ← Derived.lambda (← second h.missing target) (operands.drop 1))
  | _ => refuse h limit .defineTarget target

/-- The name and the value expression of a definition. -/
def definition (operands : List Value) : Effect (Symbol × Value) := do
  if operands.isEmpty then malformed .defineEmpty
  let target ← item h.missing operands 0
  match target with
  | .symbol x =>
    if operands.length = 2 then return (x, ← item h.missing operands 1)
    else malformed (.defineValue x)
  | .pair _ => procedureDefinition h limit target operands
  | _ => refuse h limit .defineTarget target

end Definitions

/-! ## They do the same -/

section Agreement

variable (missing : HostFault → Error) (limit : Nat)

@[simp] lemma refuse_usual {α : Type} (fault : String → FormFault) (v : Value) :
    (refuse (.usual missing) limit fault v : Effect α) = malformedBy limit fault v := rfl

lemma first_pair_bind {α : Type} (c : CellId) (f : Value → Effect α) (s : Store) :
    (first missing (.pair c) >>= f) s = f (s.cell c).car s := rfl

lemma second_pair_bind {α : Type} (c : CellId) (f : Value → Effect α) (s : Store) :
    (second missing (.pair c) >>= f) s = f (s.cell c).cdr s := rfl

lemma sequenceForm_eq (forms : List Value) :
    sequenceForm (.usual missing) forms = Derived.sequence forms := by
  match forms with
  | [] | [_] | _ :: _ :: _ => rfl

/-- A list is empty, or a pair whose second part is a list. -/
lemma list?_cases (s : Store) (v : Value) :
    s.list? v = none ∨ v = .nil ∧ s.list? v = some [] ∨
      ∃ c vs, v = .pair c ∧ s.list? (s.cell c).cdr = some vs ∧
        s.list? v = some ((s.cell c).car :: vs) := by
  rcases v with (_ | _ | _ | _ | _) | c | _ | _ | _
  case atom.nil => exact .inr (.inl ⟨rfl, by simp [Store.list?, Store.chain?, Store.chainWithin?]⟩)
  case pair =>
    unfold Store.list? Store.chain?
    cases hsize : s.cells.size with
    | zero => exact .inl (by rw [Store.chainWithin?_pair_zero])
    | succ k =>
      rw [Store.chainWithin?_pair_succ]
      cases hrest : s.chainWithin? k (s.cell c).cdr with
      | none => exact .inl rfl
      | some r =>
        obtain ⟨vs, last⟩ := r
        have hchain : s.chainWithin? (k + 1) (s.cell c).cdr = some (vs, last) :=
          Store.chainWithin?_mono (Nat.le_succ k) hrest
        rcases last with (_ | _ | _ | _ | _) | _ | _ | _ | _
        case atom.nil => exact .inr (.inr ⟨c, vs, rfl, by rw [hchain], rfl⟩)
        all_goals exact .inl rfl
  all_goals exact .inl (by simp [Store.list?, Store.chain?, Store.chainWithin?])

/-- The members of a list are those of its chain. -/
lemma members_of_list? {s : Store} {v : Value} {vs : List Value} (h : s.list? v = some vs) :
    s.members v = vs := by
  unfold Store.list? at h
  unfold Store.members
  split at h
  · rename_i hchain
    rw [hchain]
    exact Option.some.inj h
  · cases h

lemma clause_eq (v : Value) : clause (.usual missing) limit v = Derived.clause limit v := by
  funext s
  unfold clause Derived.clause
  rw [get_bind, get_bind]
  rcases list?_cases s v with hlist | ⟨rfl, hlist⟩ | ⟨c, vs, rfl, hrest, hlist⟩
  · simp [Store.isList, hlist]
  · simp [hlist]
  · rw [← members_of_list? hrest] at hlist
    simp only [Store.isList, hlist, Option.isSome_some, Bool.and_self, if_true]
    rfl

lemma clauses_eq (vs : List Value) :
    clauses (.usual missing) limit vs = Derived.clauses limit vs := by
  induction vs with
  | nil => rfl
  | cons v rest ih => simp only [clauses, Derived.clauses, clause_eq, ih, refuse_usual]

lemma choices_eq (cs : List (Value × List Value)) :
    choices (.usual missing) cs = Derived.choices cs := by
  induction cs with
  | nil => rfl
  | cons c rest ih =>
    obtain ⟨test, forms⟩ := c
    simp only [choices, Derived.choices, sequenceForm_eq, ih]

lemma cond_eq (operands : List Value) :
    cond (.usual missing) limit operands = Derived.cond limit operands := by
  unfold cond Derived.cond
  rw [clauses_eq]
  simp only [choices_eq]

lemma binding_eq (v : Value) : binding (.usual missing) limit v = Derived.binding limit v := by
  funext s
  unfold binding Derived.binding
  rw [get_bind, get_bind]
  rcases list?_cases s v with hlist | ⟨rfl, hlist⟩ | ⟨c, vs, rfl, hrest, hlist⟩
  · simp [Store.isList, hlist]
  · simp [Store.isList, hlist, members_of_list? hlist]
  · rcases list?_cases s (s.cell c).cdr with hnone | ⟨-, hnil⟩ | ⟨c', vs', hcdr, -, hcons⟩
    · simp [hnone] at hrest
    · obtain rfl := Option.some.inj (hnil.symm.trans hrest)
      simp [Store.isList, hlist, members_of_list? hlist]
    · obtain rfl := Option.some.inj (hcons.symm.trans hrest)
      cases vs' with
      | cons => simp [Store.isList, hlist, members_of_list? hlist]
      | nil =>
        have htwo : (s.isList (.pair c) && (s.members (.pair c)).length == 2) = true := by
          simp [Store.isList, hlist, members_of_list? hlist]
        rw [if_pos htwo, hlist, Host.usual_missing, first_pair_bind]
        generalize (s.cell c).car = v
        rcases v with (_ | _ | _ | x | _) | _ | _ | _ | _
        case atom.symbol =>
          have hsecond : second missing (.pair c) s = .ok (.pair c') s :=
            congrArg (EStateM.Result.ok · s) hcdr
          exact Effect.bind_ok hsecond
        all_goals rfl

lemma letIn_eq (bindings : Value) (body : List Value) :
    letIn (.usual missing) limit bindings body = Derived.letIn limit bindings body := by
  funext s
  unfold letIn Derived.letIn
  rw [get_bind, get_bind]
  cases hlist : s.list? bindings with
  | none => simp [Store.isList, hlist]
  | some members =>
    have hbinding : binding (.usual missing) limit = Derived.binding limit :=
      funext (binding_eq missing limit)
    simp [Store.isList, hlist, members_of_list? hlist, hbinding]

lemma definition_eq (operands : List Value) :
    definition (.usual missing) limit operands = Derived.definition limit operands := by
  rcases operands with _ | ⟨target, body⟩
  · rfl
  · rcases target with (_ | _ | _ | x | _) | c | _ | _ | _
    case atom.symbol =>
      match body with
      | [] | [_] | _ :: _ :: _ => rfl
    case pair =>
      funext s
      show procedureDefinition (.usual missing) limit (.pair c) (.pair c :: body) s = _
      refine (first_pair_bind missing c _ s).trans (.trans ?_ (get_bind _ s).symm)
      dsimp only
      generalize (s.cell c).car = v
      rcases v with (_ | _ | _ | x | _) | _ | _ | _ | _
      case atom.symbol => cases body <;> rfl
      all_goals rfl
    all_goals rfl

end Agreement

end ByAccess

end SmallScheme
