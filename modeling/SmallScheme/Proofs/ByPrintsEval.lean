import SmallScheme.Proofs.AccessEval
import SmallScheme.Proofs.ByPrints
import SmallScheme.Proofs.Session

/-!
# Evaluation runs out of digits only where it prints

All rules with explicit accesses, from the accesses themselves up to the evaluation of a text, get
over no printing that fails and run out of digits only where they print.  There is one lemma for
each rule, and it follows the steps of the rule.

The main result is `ByAccess.byPrints_evalText`.
-/

namespace SmallScheme

namespace ByAccess

open Access Effect

section Parts

variable {missing : HostFault → Error} (hmissing : ∀ fault, missing fault ≠ .tooManyDigits)
  {limit : Nat} {α : Type}

include hmissing

/-! ## Accesses and derived forms -/

lemma quiet_need (fault : HostFault) (o : Option α) : Quiet (need missing fault o : Effect α) := by
  cases o with
  | none => exact quiet_throw (hmissing fault)
  | some a => exact quiet_pure a

lemma byPrints_missing (fault : HostFault) :
    ByPrints missing fun h => (throw (h.missing fault) : Effect α) :=
  byPrints_access (x := fun missing => throw (missing fault)) (quiet_throw (hmissing fault))

lemma byPrints_item (as : List α) (n : Nat) :
    ByPrints missing fun h => (item h.missing as n : Effect α) :=
  byPrints_access (x := fun missing => item missing as n) (quiet_need hmissing _ _)

lemma byPrints_last (as : List α) : ByPrints missing fun h => (last h.missing as : Effect α) :=
  byPrints_access (x := fun missing => last missing as) (quiet_need hmissing _ _)

lemma byPrints_entry (found : Option α) :
    ByPrints missing fun h => (entry h.missing found : Effect α) :=
  byPrints_access (x := fun missing => entry missing found) (quiet_need hmissing _ _)

lemma byPrints_first (v : Value) : ByPrints missing fun h => first h.missing v := by
  refine byPrints_access (x := fun missing => first missing v) ?_
  cases v with
  | pair c => exact quiet_get.bind fun _ => quiet_pure _
  | _ => exact quiet_throw (hmissing _)

lemma byPrints_second (v : Value) : ByPrints missing fun h => second h.missing v := by
  refine byPrints_access (x := fun missing => second missing v) ?_
  cases v with
  | pair c => exact quiet_get.bind fun _ => quiet_pure _
  | _ => exact quiet_throw (hmissing _)

omit hmissing in
lemma byPrints_malformed (fault : FormFault) :
    ByPrints missing fun _ => (malformed fault : Effect α) :=
  byPrints_throw nofun

omit hmissing in
lemma byPrints_refuse (fault : String → FormFault) (v : Value) :
    ByPrints missing fun h => (refuse h limit fault v : Effect α) :=
  (byPrints_print limit v).bind fun _ => byPrints_malformed _

omit hmissing in
lemma byPrints_newList (vs : List Value) : ByPrints missing fun _ => Derived.newList vs :=
  byPrints_modifyGet _

omit hmissing in
lemma byPrints_newLambda (params : Value) (body : List Value) :
    ByPrints missing fun _ => Derived.lambda params body := by
  refine (byPrints_newList body).bind fun rest => ?_
  exact byPrints_const ((quiet_modifyGet _).bind fun _ => quiet_modifyGet _)

lemma byPrints_sequenceForm (forms : List Value) :
    ByPrints missing fun h => sequenceForm h forms :=
  .ite (byPrints_item hmissing forms 0) (byPrints_newList _)

lemma byPrints_clause (v : Value) : ByPrints missing fun h => clause h limit v := by
  refine byPrints_get.bind fun s => .ite ?_ (byPrints_refuse _ v)
  refine (byPrints_first hmissing v).bind fun _ => (byPrints_second hmissing v).bind fun _ => ?_
  exact byPrints_pure _

lemma byPrints_clauses (vs : List Value) : ByPrints missing fun h => clauses h limit vs := by
  induction vs with
  | nil => exact byPrints_pure _
  | cons v rest ih =>
    refine (byPrints_clause hmissing v).bind fun (test, forms) => ?_
    have hbody : ByPrints missing fun h => do
        if forms.isEmpty then refuse h limit .condBody v
        return (test, forms) :: (← clauses h limit rest) :=
      .check (byPrints_refuse _ v) (ih.bind fun _ => byPrints_pure _)
    refine .ite ((byPrints_newList _).bind fun w => ?_) hbody
    exact (byPrints_refuse _ w).bind fun _ => hbody

lemma byPrints_choices (cs : List (Value × List Value)) :
    ByPrints missing fun h => choices h cs := by
  induction cs with
  | nil => exact byPrints_pure _
  | cons c rest ih =>
    refine ih.bind fun otherwise => (byPrints_sequenceForm hmissing c.2).bind fun consequent => ?_
    exact .ite (byPrints_pure _) (byPrints_newList _)

lemma byPrints_cond (operands : List Value) :
    ByPrints missing fun h => cond h limit operands :=
  (byPrints_clauses hmissing operands).bind fun cs => byPrints_choices hmissing cs

lemma byPrints_binding (v : Value) : ByPrints missing fun h => binding h limit v := by
  refine byPrints_get.bind fun s => .ite ?_ (byPrints_refuse _ v)
  refine (byPrints_first hmissing v).bind fun name => ?_
  split
  · refine (byPrints_second hmissing v).bind fun rest => (byPrints_first hmissing rest).bind ?_
    exact fun _ => byPrints_pure _
  · exact byPrints_refuse _ v

lemma byPrints_letIn (bindings : Value) (body : List Value) :
    ByPrints missing fun h => letIn h limit bindings body := by
  refine byPrints_get.bind fun s => .ite ?_ (byPrints_refuse _ bindings)
  refine .check (byPrints_malformed _) ?_
  have hbindings : ByPrints missing fun h => (s.members bindings).mapM (binding h limit) :=
    byPrints_mapM _ (byPrints_binding hmissing)
  refine hbindings.bind fun bound => (byPrints_newList _).bind fun params => ?_
  exact (byPrints_newLambda params body).bind fun _ => byPrints_newList _

lemma byPrints_procedureDefinition (target : Value) (operands : List Value) :
    ByPrints missing fun h => procedureDefinition h limit target operands := by
  refine (byPrints_first hmissing target).bind fun name => ?_
  split
  · refine .check (byPrints_malformed _) ?_
    refine (byPrints_second hmissing target).bind fun params => ?_
    exact (byPrints_newLambda _ _).bind fun _ => byPrints_pure _
  · exact byPrints_refuse _ target

lemma byPrints_definition (operands : List Value) :
    ByPrints missing fun h => definition h limit operands := by
  refine .check (byPrints_malformed _) ?_
  refine (byPrints_item hmissing operands 0).bind fun target => ?_
  split
  · refine .ite ((byPrints_item hmissing operands 1).bind fun _ => ?_) (byPrints_malformed _)
    exact byPrints_pure _
  · exact byPrints_procedureDefinition hmissing _ operands
  · exact byPrints_refuse _ _

/-! ## Native procedures -/

section Primitives

variable (p : Primitive)

omit hmissing in
lemma byPrints_complain (complaint : Complaint) :
    ByPrints missing fun _ => (throw (p.complain complaint) : Effect α) :=
  byPrints_throw nofun

omit hmissing in
lemma byPrints_expectArgs (count : Nat) (args : List Value) :
    ByPrints missing fun _ => expectArgs p count args :=
  .ite (byPrints_complain p _) (byPrints_pure _)

omit hmissing in
lemma byPrints_expectPair (v : Value) : ByPrints missing fun h => expectPair h limit p v := by
  unfold expectPair
  split
  · exact byPrints_pure _
  · exact (byPrints_print limit _).bind fun _ => byPrints_complain p _

omit hmissing in
lemma byPrints_expectNumber (v : Value) : ByPrints missing fun h => expectNumber h limit p v := by
  unfold expectNumber
  split
  · exact byPrints_pure _
  · exact (byPrints_print limit _).bind fun _ => byPrints_complain p _

lemma byPrints_integer (v : Value) : ByPrints missing fun h => integer h v := by
  unfold integer
  split
  · exact byPrints_pure _
  · exact byPrints_missing hmissing _

lemma byPrints_expectNumbers (args : List Value) :
    ByPrints missing fun h => expectNumbers h limit p args :=
  (byPrints_forM args (byPrints_expectNumber p)).bind fun _ =>
    byPrints_mapM args (byPrints_integer hmissing)

lemma byPrints_predicate {test : Host → Value → Effect Bool}
    (htest : ∀ v, ByPrints missing fun h => test h v) (args : List Value) :
    ByPrints missing fun h => predicate h p (test h) args := by
  refine (byPrints_expectArgs p 1 args).bind fun _ => ?_
  refine (byPrints_item hmissing args 0).bind fun v => (htest v).bind fun _ => ?_
  exact byPrints_pure _

lemma byPrints_partOf {part : Host → Value → Effect Value}
    (hpart : ∀ v, ByPrints missing fun h => part h v) (steps : Nat) (v : Value) :
    ByPrints missing fun h => partOf h limit p (part h) steps v := by
  induction steps generalizing v with
  | zero => exact (byPrints_expectPair p v).bind hpart
  | succ steps ih =>
    refine (byPrints_expectPair p v).bind fun pair => ?_
    exact (byPrints_second hmissing pair).bind ih

lemma byPrints_replacePart (write : CellId → Value → Store → Store) (args : List Value) :
    ByPrints missing fun h => replacePart h limit p write args := by
  refine (byPrints_expectArgs p 2 args).bind fun _ => ?_
  refine (byPrints_item hmissing args 0).bind fun v => (byPrints_expectPair p v).bind fun pair => ?_
  split
  · refine (byPrints_item hmissing args 1).bind fun w => ?_
    exact byPrints_const ((quiet_modify _).bind fun _ => quiet_pure _)
  · exact byPrints_missing hmissing _

lemma byPrints_search (sought other : Bool) (args : List Value) :
    ByPrints missing fun h => search h sought other args := by
  unfold search
  split
  · exact byPrints_pure _
  · exact .ite (byPrints_pure _) (byPrints_last hmissing args)

omit hmissing in
lemma quiet_foldlM_operate (operation : Arithmetic) (total : Int) (ns : List Int) :
    Quiet (ns.foldlM (operate operation) total) := by
  induction ns generalizing total with
  | nil => exact quiet_pure total
  | cons n ns ih =>
    have hzero (fault : HostFault) : Error.host fault "" ≠ .tooManyDigits := nofun
    rw [List.foldlM_cons]
    exact (quiet_need hzero _ _).bind ih

lemma byPrints_fold (operation : Arithmetic) (args : List Value) :
    ByPrints missing fun h => fold h limit operation args := by
  refine .check (byPrints_complain _ _) (.tryCatch ?_ ?_ ?_)
  · refine (byPrints_expectNumbers hmissing _ args).bind fun ns => ?_
    refine .bind ?_ fun n => byPrints_pure _
    cases ns with
    | nil => exact byPrints_missing hmissing _
    | cons n ns => exact byPrints_const (quiet_foldlM_operate operation n ns)
  · exact fun e => complainOfZero_of_ordinary operation
  · intro e he
    unfold complainOfZero at he
    split at he
    · cases he
    · exact he

lemma byPrints_compareAll (relation : Comparison) (neighbours : List (Value × Value)) :
    ByPrints missing fun h => compareAll h limit relation neighbours := by
  induction neighbours with
  | nil => exact byPrints_pure _
  | cons pair rest ih =>
    refine (byPrints_expectNumbers hmissing _ [pair.1, pair.2]).bind fun ns => ?_
    refine (byPrints_item hmissing ns 0).bind fun m => ?_
    refine (byPrints_item hmissing ns 1).bind fun n => ?_
    exact .ite ih (byPrints_pure _)

omit hmissing in
lemma quiet_runForeign (args : List Value) (procedure : Foreign) :
    Quiet (Primitive.runForeign args procedure) := by
  cases procedure with
  | constant | argumentCount => exact quiet_pure _
  | argumentList | value => exact quiet_modifyGet _
  | fails | complains => exact quiet_throw nofun

lemma byPrints_run (args : List Value) : ByPrints missing fun h => run h limit p args := by
  have hitem (n : Nat) := byPrints_item hmissing args n
  cases p with
  | isPair | isBoolean | isSymbol | isNumber | isNull | not =>
    refine byPrints_predicate hmissing _ (fun v => ?_) args
    exact byPrints_pure _
  | isZero =>
    refine byPrints_predicate hmissing _ (fun v => .ite ?_ (byPrints_pure _)) args
    exact (byPrints_integer hmissing v).bind fun _ => byPrints_pure _
  | cons =>
    refine (byPrints_expectArgs _ 2 args).bind fun _ => (hitem 0).bind fun v => ?_
    exact (hitem 1).bind fun w => byPrints_modifyGet _
  | car | cadr | caddr =>
    refine (byPrints_expectArgs _ 1 args).bind fun _ => (hitem 0).bind fun v => ?_
    exact byPrints_partOf hmissing _ (byPrints_first hmissing) _ v
  | cdr =>
    refine (byPrints_expectArgs _ 1 args).bind fun _ => (hitem 0).bind fun v => ?_
    exact byPrints_partOf hmissing _ (byPrints_second hmissing) _ v
  | list => exact byPrints_modifyGet _
  | setCar | setCdr => exact byPrints_replacePart hmissing _ _ args
  | same =>
    refine (byPrints_expectArgs _ 2 args).bind fun _ => (hitem 0).bind fun v => ?_
    exact (hitem 1).bind fun w => byPrints_pure _
  | and | or => exact byPrints_search hmissing _ _ args
  | arithmetic operation => exact byPrints_fold hmissing operation args
  | comparison relation => exact byPrints_compareAll hmissing relation _
  | write channel =>
    refine (byPrints_expectArgs _ 1 args).bind fun _ => (hitem 0).bind fun v => ?_
    refine (byPrints_print limit v).bind fun text => ?_
    exact byPrints_const ((quiet_modify _).bind fun _ => quiet_pure _)
  | foreign procedure => exact byPrints_const (quiet_runForeign args procedure)

lemma byPrints_applyBuiltin (b : Builtin) (args : List Value) :
    ByPrints missing fun h => applyBuiltin h limit b args := by
  refine .tryCatch (byPrints_run hmissing b.primitive args) (fun _ => b.report_of_ordinary) ?_
  intro e he
  unfold Builtin.report at he
  split at he
  · split at he <;> cases he
  · exact he

end Primitives

/-! ## Evaluation -/

section Evaluation

variable {ev : Host → Evaluator} (hev : ∀ expr env, ByPrints missing fun h => ev h expr env)
  (mode : Mode)

omit hmissing in
lemma byPrints_reportEval (expr : Value) :
    ByPrints missing fun h => reportEval h mode limit expr :=
  .ite ((byPrints_print limit expr).bind fun _ => byPrints_modify _)
    (byPrints_pure _)

omit hmissing in
lemma byPrints_reportApply (proc : Value) (args : List Value) :
    ByPrints missing fun h => reportApply h mode limit proc args := by
  refine .ite ((byPrints_print limit proc).bind fun _ => ?_) (byPrints_pure _)
  exact (byPrints_mapM args (byPrints_print limit)).bind fun _ => byPrints_modify _

lemma byPrints_readName (x : Symbol) (env : FrameId) :
    ByPrints missing fun h => readName h mode x env := by
  refine byPrints_get.bind fun s => ?_
  split
  · exact byPrints_entry hmissing _
  · exact .ite (byPrints_throw nofun) (byPrints_pure _)

omit hmissing in
lemma quiet_assignName (x : Symbol) (v : Value) (env : FrameId) : Quiet (assignName x v env) := by
  refine quiet_get.bind fun s => ?_
  split
  · exact quiet_modify _
  · exact quiet_throw nofun

include hev

omit hmissing in
lemma byPrints_operands (env : FrameId) (exprs : List Value) :
    ByPrints missing fun h => Eval.operands (ev h) env exprs := by
  induction exprs with
  | nil => exact byPrints_pure _
  | cons expr rest ih =>
    exact (hev expr env).bind fun _ => ih.bind fun _ => byPrints_pure _

lemma byPrints_sequence (env : FrameId) (exprs : List Value) :
    ByPrints missing fun h => sequence h (ev h) env exprs := by
  refine .check (byPrints_malformed _) ?_
  have hfirst := byPrints_forM (g := fun h expr => discard (ev h expr env)) exprs.dropLast
    fun expr => (hev expr env).discard
  exact hfirst.bind fun _ => (byPrints_last hmissing exprs).bind fun expr => hev expr env

omit hev in
lemma byPrints_enter (closure : Closure) (args : List Value) :
    ByPrints missing fun h => enter h closure args := by
  have hshortage (shortage : Shortage) : Error.shortage shortage ≠ .tooManyDigits := nofun
  refine .ite ((byPrints_item hmissing closure.params args.length).bind fun _ => ?_) ?_
  · exact byPrints_const ((quiet_throw (hshortage _)).bind fun _ => quiet_modifyGet _)
  · exact byPrints_modifyGet _

lemma byPrints_apply (proc : Value) (args : List Value) :
    ByPrints missing fun h => apply h mode limit (ev h) proc args := by
  refine (byPrints_reportApply mode proc args).bind fun _ => ?_
  split
  · exact byPrints_applyBuiltin hmissing _ args
  · refine byPrints_get.bind fun s => ?_
    refine (byPrints_enter hmissing _ args).bind fun env => ?_
    exact byPrints_sequence hmissing hev env _
  · exact (byPrints_print limit _).bind fun _ => byPrints_throw nofun

lemma byPrints_application (expr : Value) (env : FrameId) :
    ByPrints missing fun h => application h mode limit (ev h) expr env := by
  have happly : ByPrints missing fun h => (do
      let proc ← ev h (← first h.missing expr) env
      let rest ← second h.missing expr
      let args ← Eval.operands (ev h) env ((← get).members rest)
      apply h mode limit (ev h) proc args : Effect Value) := by
    refine (byPrints_first hmissing expr).bind fun operator => ?_
    refine (hev operator env).bind fun proc => ?_
    refine (byPrints_second hmissing expr).bind fun rest => byPrints_get.bind fun s => ?_
    refine (byPrints_operands hev env _).bind fun args => ?_
    exact byPrints_apply hmissing hev mode proc args
  refine byPrints_get.bind fun s => .ite ?_ happly
  refine (byPrints_print limit expr).bind fun _ => .bind ?_ fun _ => happly
  exact byPrints_throw nofun

omit hmissing hev in
lemma byPrints_display (v : Value) : ByPrints missing fun h => display h limit v := by
  unfold display
  split
  · exact (byPrints_print limit _).bind fun _ => byPrints_pure _
  · exact byPrints_print limit _

omit hev in
lemma byPrints_quote (args : List Value) : ByPrints missing fun h => quote h args :=
  .ite (byPrints_item hmissing args 0) (byPrints_malformed _)

lemma byPrints_assign (args : List Value) (env : FrameId) :
    ByPrints missing fun h => assign h limit (ev h) args env := by
  refine .ite ((byPrints_item hmissing args 0).bind fun target => ?_) (byPrints_malformed _)
  refine (byPrints_item hmissing args 1).bind fun expr => ?_
  split
  · refine (hev expr env).bind fun v => (byPrints_const (quiet_assignName _ v env)).bind fun _ => ?_
    exact byPrints_pure _
  · exact (byPrints_display _).bind fun _ => byPrints_malformed _

lemma byPrints_define (args : List Value) (env : FrameId) :
    ByPrints missing fun h => define h limit (ev h) args env := by
  refine (byPrints_definition hmissing args).bind fun target => (hev target.2 env).bind fun v => ?_
  have hbind : Quiet (do modify fun s => s.define env target.1 v; return .nil : Effect Value) :=
    (quiet_modify _).bind fun _ => quiet_pure _
  refine byPrints_const ?_
  split
  · exact (quiet_modify _).bind fun _ => hbind
  · exact hbind

lemma byPrints_choice (args : List Value) (env : FrameId) :
    ByPrints missing fun h => choice h (ev h) args env := by
  have hpart (n : Nat) : ByPrints missing fun h =>
      (do ev h (← item h.missing args n) env : Effect Value) :=
    (byPrints_item hmissing args n).bind fun expr => hev expr env
  refine .ite ?_ (byPrints_malformed _)
  refine (byPrints_item hmissing args 0).bind fun test => (hev test env).bind fun v => ?_
  exact .ite (hpart 1) (.ite (hpart 2) (byPrints_pure _))

omit hmissing hev in
lemma byPrints_parameters (vs : List Value) :
    ByPrints missing fun h => parameters h limit vs := by
  induction vs with
  | nil => exact byPrints_pure _
  | cons v rest ih =>
    rcases v with (_ | _ | _ | x | _) | _ | _ | _ | _
    case atom.symbol => exact ih.bind fun _ => byPrints_pure _
    all_goals exact byPrints_refuse _ _

omit hev in
lemma byPrints_lambda (args : List Value) (env : FrameId) :
    ByPrints missing fun h => lambda h limit args env := by
  refine .check (byPrints_malformed _) ?_
  refine (byPrints_item hmissing args 0).bind fun params => byPrints_get.bind fun s => ?_
  refine .ite ((byPrints_parameters _).bind fun names => ?_) (byPrints_refuse _ _)
  exact .check (byPrints_malformed _) (byPrints_modifyGet _)

lemma byPrints_special (form : SpecialForm) (args : List Value) (env : FrameId) :
    ByPrints missing fun h => special h limit (ev h) form args env := by
  cases form with
  | quote => exact byPrints_quote hmissing args
  | assign => exact byPrints_assign hmissing hev args env
  | define => exact byPrints_define hmissing hev args env
  | choice => exact byPrints_choice hmissing hev args env
  | cond => exact (byPrints_cond hmissing args).bind fun expr => hev expr env
  | letIn =>
    refine .check (byPrints_malformed _) ?_
    refine (byPrints_item hmissing args 0).bind fun bindings => ?_
    exact (byPrints_letIn hmissing bindings _).bind fun expr => hev expr env
  | lambda => exact byPrints_lambda hmissing args env
  | sequence => exact byPrints_sequence hmissing hev env args

lemma byPrints_combination (expr : Value) (env : FrameId) :
    ByPrints missing fun h => combination h mode limit (ev h) expr env := by
  have happlication : ByPrints missing fun h => application h mode limit (ev h) expr env :=
    byPrints_application hmissing hev mode expr env
  refine (byPrints_first hmissing expr).bind fun head => ?_
  split
  · refine .ite (byPrints_get.bind fun s => ?_) happlication
    refine .ite ((byPrints_entry hmissing _).bind fun form => ?_) (byPrints_refuse _ expr)
    refine (byPrints_second hmissing expr).bind fun rest => ?_
    exact byPrints_special hmissing hev form _ env
  · exact happlication

lemma byPrints_step (expr : Value) (env : FrameId) :
    ByPrints missing fun h => step h mode limit (ev h) expr env := by
  refine (byPrints_reportEval mode expr).bind fun _ => ?_
  split
  · exact byPrints_pure _
  · exact byPrints_pure _
  · exact byPrints_pure _
  · exact byPrints_readName hmissing mode _ env
  · exact byPrints_combination hmissing hev mode _ env
  · exact (byPrints_print limit _).bind fun _ => byPrints_throw nofun

end Evaluation

/-- The induction is on the limit: the parts of an expression are evaluated one level deeper. -/
lemma byPrints_eval (mode : Mode) (expr : Value) (env : FrameId) :
    ByPrints missing fun h => eval h mode limit expr env := by
  induction limit generalizing expr env with
  | zero => exact byPrints_throw nofun
  | succ limit ih => exact byPrints_step hmissing ih mode expr env

/-! ## Texts -/

section Texts

variable (i : Interpreter)

lemma byPrints_interpret (expr : Value) : ByPrints missing fun h => interpret h i expr := by
  have heval : ByPrints missing fun h => eval h i.mode i.limit expr i.globals :=
    byPrints_eval hmissing i.mode expr i.globals
  refine .ite ((byPrints_print i.limit expr).bind fun form => ?_) heval
  exact (byPrints_modify _).bind fun _ => heval

lemma byPrints_interpretAll (exprs : List Value) :
    ByPrints missing fun h => interpretAll h i exprs := by
  induction exprs with
  | nil => exact byPrints_pure _
  | cons expr rest ih =>
    cases rest with
    | nil => exact byPrints_interpret hmissing i expr
    | cons => exact (byPrints_interpret hmissing i expr).discard.bind fun _ => ih

omit hmissing in
/-- Reading has errors of its own. -/
lemma byPrints_parse (text : List Char) : ByPrints missing fun h => parse h i text := by
  refine byPrints_access (x := fun missing => do
    let data ← ask fun _ => Descent.read missing i.limit text
    modifyGet fun s => s.loadAll data) ?_
  refine Quiet.bind ?_ fun data => quiet_modifyGet _
  intro s t h
  rw [Descent.read_eq] at h
  cases hread : SmallScheme.read i.limit text with
  | ok data => cases (ask_ok hread).symm.trans h
  | error e =>
    cases (ask_error hread).symm.trans h
    exact ofReading_of_read hread

/-- **The evaluation of a text runs out of digits only where it prints.** -/
theorem byPrints_evalText (text : List Char) : ByPrints missing fun h => evalText h i text :=
  (byPrints_parse i text).bind fun exprs => byPrints_interpretAll hmissing i exprs

end Texts

end Parts

end ByAccess

end SmallScheme
