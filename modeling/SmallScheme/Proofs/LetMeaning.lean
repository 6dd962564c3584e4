import SmallScheme.Proofs.FreshNodes
import SmallScheme.Proofs.Soundness

/-!
# What `let` means

A `let` is expanded into the application of a procedure, and this is evaluated.  Both mean that the
expressions are evaluated in order, that the names are bound to their values in a new frame, and that
the forms of the body are evaluated there (`Eval.bindIn`).

The expanded form is made of new cells, and its evaluation makes a new closure first, which is applied
at once and which nobody else can reach.  After that, it imitates the procedure
(`Replication.imitates_bindIn`).
-/

namespace SmallScheme

/-- The expressions are evaluated from left to right, then the names are bound to their values in a new
frame, and then the forms are evaluated there.  Values without name are ignored, but each name needs a
value. -/
def Eval.bindIn (ev : Evaluator) (env : FrameId) (names : List Symbol) (exprs forms : List Value) :
    Effect Value := do
  let vs ← operands ev env exprs
  match names[vs.length]? with
  | some missing => throw (.shortage ⟨names.length, vs.length, missing⟩)
  | none =>
    let inner ← modifyGet fun s => s.addFrame (names.zip vs) (some env)
    sequence ev inner forms

/-- The names are bound as the parameters of a closure are. -/
lemma Eval.bindIn_eq (ev : Evaluator) (env : FrameId) (names : List Symbol)
    (exprs forms : List Value) :
    bindIn ev env names exprs forms = operands ev env exprs >>= fun vs =>
      enter ⟨names, forms, env, none⟩ vs >>= fun inner => sequence ev inner forms := by
  unfold bindIn enter
  congr 1
  funext vs
  cases names[vs.length]? <;> rfl

lemma steady_enter_sequence (closure : Closure) (vs forms : List Value) :
    Steady fun ev => Eval.enter closure vs >>= fun inner => Eval.sequence ev inner forms :=
  fun _ _ _ hev => (RunPair.abridges_enter closure vs).bind fun _ =>
    RunPair.abridges_sequence hev forms

/-! ## Bindings -/

namespace Bindings

variable {x : Symbol} {bs : Bindings}

lemma get?_append (x : Symbol) (bs bs' : Bindings) :
    get? x (bs ++ bs') = (get? x bs).or (get? x bs') := by
  induction bs with
  | nil => rfl
  | cons b bs ih =>
    obtain ⟨y, v⟩ := b
    by_cases hy : y = x <;> simp [get?, hy, ih]

lemma isSome_get?_iff : (get? x bs).isSome ↔ x ∈ bs.map Prod.fst := by
  induction bs with
  | nil => simp [get?]
  | cons b bs ih =>
    obtain ⟨y, v⟩ := b
    by_cases hy : y = x
    · simp [get?, hy]
    · simp [get?, hy, ih, Ne.symm hy]

/-- Among bindings of one name, the last one counts. -/
lemma get?_putAll (x : Symbol) (new bs : Bindings) :
    get? x (putAll new bs) = (get? x new.reverse).or (get? x bs) := by
  induction new generalizing bs with
  | nil => rfl
  | cons b new ih =>
    have hrest : get? x (putAll (b :: new) bs) = _ := ih (put b.1 b.2 bs)
    rw [hrest, get?_put, List.reverse_cons, get?_append, Option.or_assoc]
    congr 1
    by_cases hb : b.1 = x <;> simp [get?, hb]

/-- A name that does not occur later has the value of its last occurrence. -/
lemma get?_reverse_zip {names : List Symbol} {vs : List Value} {i : Nat}
    (hlength : names.length ≤ vs.length) (hi : names[i]? = some x)
    (hlast : ∀ j, i < j → names[j]? ≠ some x) : get? x (names.zip vs).reverse = vs[i]? := by
  induction names generalizing vs i with
  | nil => simp at hi
  | cons y names ih =>
    cases vs with
    | nil => simp at hlength
    | cons v vs =>
      rw [List.zip_cons_cons, List.reverse_cons, get?_append]
      have hlength' : names.length ≤ vs.length := Nat.le_of_succ_le_succ hlength
      cases i with
      | zero =>
        have hnone : get? x (names.zip vs).reverse = none := by
          rw [← Option.not_isSome_iff_eq_none, isSome_get?_iff, List.map_reverse, List.mem_reverse,
            List.map_fst_zip hlength']
          intro hmem
          obtain ⟨j, hj⟩ := List.mem_iff_getElem?.mp hmem
          exact hlast (j + 1) (Nat.succ_pos j) hj
        obtain rfl : y = x := Option.some.inj hi
        simp [hnone, get?]
      | succ i =>
        have hrest := ih hlength' hi fun j hj => hlast (j + 1) (Nat.succ_lt_succ hj)
        have hlt : i + 1 < names.length + 1 := (List.getElem?_eq_some_iff.mp hi).1
        replace hlt : i < vs.length := (Nat.lt_of_succ_lt_succ hlt).trans_le hlength'
        rw [hrest, List.getElem?_cons_succ, List.getElem?_eq_getElem hlt, Option.some_or]

end Bindings

namespace Store

variable {s : Store} {v : Value} {vs : List Value} {c : CellId}

/-- The names and expressions of a binding list. -/
def BindingList (s : Store) (v : Value) (bound : List (Symbol × Value)) : Prop :=
  ∃ members, s.list? v = some members ∧
    List.Forall₂ (fun v b => s.list? v = some [.symbol b.1, b.2]) members bound

end Store

/-! ## The application of a new procedure -/

section Application

variable {s t : Store} {mode : Mode} {d p : CellId} {params : Value} {names : List Symbol}
  {exprs body : List Value} {env : FrameId}

lemma parameters_symbols (limit : Nat) (names : List Symbol) (s : Store) :
    Eval.parameters limit (names.map .symbol) s = .ok names s := by
  induction names with
  | nil => rfl
  | cons x names ih =>
    show (Eval.parameters limit (names.map .symbol) >>= fun names => pure (x :: names)) s = _
    rw [Effect.bind_ok ih]
    rfl

/-- A procedure is made of the parameters, the body and the current frame. -/
lemma lambda_eq (limit : Nat) (hparams : t.list? params = some (names.map .symbol))
    (hbody : body ≠ []) :
    Eval.lambda limit (params :: body) env t =
      .ok (.closure t.closures.size) (t.addClosure ⟨names, body, env, none⟩).2 := by
  rw [Eval.lambda, Effect.get_bind, hparams]
  dsimp only
  rw [Effect.bind_ok (parameters_symbols limit names t)]
  simp only [List.isEmpty_iff, hbody, if_false]
  rfl

/-- A closure is applied to arguments. -/
def callClosure (ev : Evaluator) (k : ClosureId) (args : List Value) : Effect Value := do
  let closure := (← get).closure k
  let inner ← Eval.enter closure args
  Eval.sequence ev inner closure.body

/-- A closure is applied to the values of some expressions. -/
def callWith (ev : Evaluator) (k : ClosureId) (exprs : List Value) (env : FrameId) :
    Effect Value := do
  let args ← Eval.operands ev env exprs
  callClosure ev k args

lemma steady_callClosure (k : ClosureId) (args : List Value) :
    Steady fun ev => callClosure ev k args := by
  intro P ev ev' hev
  refine RunPair.abridges_get_bind fun s s' hsame => ?_
  rw [hsame.closure_eq]
  exact (RunPair.abridges_enter _ args).bind fun inner => RunPair.abridges_sequence hev _

lemma steady_callWith (k : ClosureId) (exprs : List Value) (env : FrameId) :
    Steady fun ev => callWith ev k exprs env :=
  (steady_operands env exprs).bind fun args => steady_callClosure k args

lemma apply_closure_eq (huntraced : mode.traced = false) (limit : Nat) (ev : Evaluator)
    (k : ClosureId) (args : List Value) :
    Eval.apply mode limit ev (.closure k) args = callClosure ev k args := by
  have hnothing : mode.reportApply limit (.closure k) args = pure () := by
    unfold Mode.reportApply
    rw [huntraced]
    rfl
  rw [Eval.apply, hnothing, pure_bind]
  rfl

/-- After the operator come the operands, and then the procedure is applied. -/
lemma step_operator (huntraced : mode.traced = false) {operator proc : Value}
    (hkeyword : Eval.keyword? operator = none)
    (happlication : t.list? (.pair d) = some (operator :: exprs)) {u : Store} {ev : Evaluator}
    (hproc : ev operator env t = .ok proc u) (hcells : u.cells = t.cells) (limit : Nat) :
    Eval.step mode limit ev (.pair d) env t =
      (Eval.operands ev env exprs >>= Eval.apply mode limit ev proc) u := by
  obtain ⟨hcar, hmembers⟩ := Store.parts_of_list? happlication
  have hlist : t.isList (.pair d) = true := by rw [Store.isList, happlication]; rfl
  have hmembers' : u.members (u.cell d).cdr = exprs := by
    rw [Store.members, Store.chain?_of_cells_eq hcells, Store.cell, hcells]
    exact hmembers
  rw [step_pair huntraced, Eval.combination, Effect.get_bind, hcar, hkeyword]
  show Eval.application mode limit ev d env t = _
  rw [Eval.application, Effect.get_bind, hlist]
  simp only [Bool.not_true, Bool.false_eq_true, if_false]
  rw [Effect.get_bind, hcar, Effect.bind_ok hproc, Effect.get_bind, hmembers']

/-- If the operator makes a closure, the application of it is evaluated by applying the closure to the
operands. -/
lemma step_application (huntraced : mode.traced = false)
    (happlication : t.list? (.pair d) = some (.pair p :: exprs)) {u : Store} {k : ClosureId}
    {ev : Evaluator} (hproc : ev (.pair p) env t = .ok (.closure k) u) (hcells : u.cells = t.cells)
    (limit : Nat) : Eval.step mode limit ev (.pair d) env t = callWith ev k exprs env u := by
  rw [step_operator huntraced rfl happlication hproc hcells]
  unfold callWith
  simp only [← apply_closure_eq huntraced limit]

/-- An application of an expression that makes a procedure: a closure is added, and it is applied to
the operands. -/
lemma ends_application_iff (huntraced : mode.traced = false)
    (happlication : t.list? (.pair d) = some (.pair p :: exprs))
    (hlambda : t.list? (.pair p) = some (Derived.keyword .lambda :: params :: body))
    (hparams : t.list? params = some (names.map .symbol)) (hbody : body ≠ [])
    (r : EStateM.Result Error Store Value) :
    Ends mode (.pair d) env t r ↔
      EndsBy mode (fun ev => callWith ev t.closures.size exprs env)
        (t.addClosure ⟨names, body, env, none⟩).2 r := by
  -- one unit of the limit is used up by the expression that makes the procedure
  have hstep (limit : Nat) : eval mode (limit + 2) (.pair d) env t =
      callWith (eval mode (limit + 1)) t.closures.size exprs env
        (t.addClosure ⟨names, body, env, none⟩).2 := by
    refine step_application (u := (t.addClosure ⟨names, body, env, none⟩).2) huntraced
      happlication ?_ rfl _
    rw [eval_succ, step_special huntraced (keyword?_car hlambda) hlambda]
    exact lambda_eq limit hparams hbody
  constructor
  · rintro ⟨hr, limit, hlimit⟩
    have hlarger := eval_mono (Nat.le_add_right limit 2) hr hlimit
    exact ⟨hr, limit + 1, (hstep limit).symm.trans hlarger⟩
  · rintro ⟨hr, limit, hlimit⟩
    refine ⟨hr, limit + 2, (hstep limit).trans ?_⟩
    exact (steady_callWith _ _ _).eq_of_le (Nat.le_succ limit) hr hlimit

end Application

/-! ## The imitation -/

namespace Replication

variable {R : Replication} {mode : Mode} {n : Nat} {env : FrameId} {names : List Symbol}
  {exprs body : List Value} {k : ClosureId}

/-- **The application of a hidden closure imitates the procedure.** -/
lemma imitates_bindIn (hk : R.second.closure k = ⟨names, body, env, none⟩)
    (hhidden : ∀ j, R.closure j ≠ k) (hexprs : R.CopiesAll n exprs exprs)
    (hbody : R.CopiesAll n body body) :
    R.Imitates mode n R.Copies (fun ev => Eval.bindIn ev env names exprs body)
      fun ev => callWith ev k exprs env := by
  set closure : Closure := ⟨names, body, env, none⟩
  have hclosure : R.onClosure closure = closure :=
    congrArg (Closure.mk names · env none) hbody.1.symm
  simp only [Eval.bindIn_eq]
  refine (imitates_operands env hexprs).bind (fun m vs ws hm hvs => ?_) (steady_operands _ _)
    (steady_operands _ _) (fun vs => steady_enter_sequence closure vs body)
    fun ws => steady_callClosure k ws
  have hbind : R.Imitates mode m R.Copies
      (fun ev => Eval.enter closure vs >>= fun inner => Eval.sequence ev inner body)
      (fun ev => Eval.enter closure ws >>= fun inner => Eval.sequence ev inner body) := by
    have henter : R.Repeats m Same (Eval.enter closure vs) (Eval.enter closure ws) := by
      have h : R.Repeats m Same (Eval.enter closure vs) (Eval.enter (R.onClosure closure) ws) :=
        repeats_enter hvs
      rwa [hclosure] at h
    refine imitates_of_repeats fun limit => henter.bind fun m' inner _ hm' heq => ?_
    obtain rfl := heq
    exact repeats_sequence (repeats_eval R mode limit) (hbody.mono (hm.trans hm'))
  refine hbind.congr fun {s t} hs _ r => endsBy_congr fun ev => ?_
  rw [callClosure, Effect.get_bind, hs.otherClosure k hhidden, hk]

end Replication

/-! ## The whole form -/

namespace Store

variable {s : Store} {bindings : Value} {bound : List (Symbol × Value)} {body : List Value}

lemma BindingList.knows (h : s.BindingList bindings bound) (hs : s.WellFormed) :
    ∀ expr ∈ bound.map Prod.snd, s.Knows expr := by
  obtain ⟨members, -, hshape⟩ := h
  induction hshape with
  | nil => simp
  | cons hv _ ih =>
    rw [List.map_cons, List.forall_mem_cons]
    exact ⟨hs.knows_of_list? hv _ (by simp), ih⟩

/-- An expression that makes a procedure is made of new cells. -/
lemma exists_lambda (params : Value) (body : List Value) (s : Store) :
    ∃ p t, Derived.lambda params body s = .ok (.pair p) t ∧ s.AddsFresh t ∧
      t.ListIn (s.cells.size ≤ ·) (.pair p) (Derived.keyword .lambda :: params :: body) := by
  have hfresh₁ : s.AddsFresh (s.list body).2 := addsFresh_chain body .nil s
  have hfresh₂ := addsFresh_cons params (s.list body).1 (s.list body).2
  have hle₁ := hfresh₁.cells.size_le
  have hle₂ := hle₁.trans hfresh₂.cells.size_le
  have hoperands := (listIn_list body s).cons params hle₁
  exact ⟨_, _, rfl, (hfresh₁.trans hfresh₂).trans (addsFresh_cons _ _ _),
    hoperands.cons (Derived.keyword .lambda) hle₂⟩

/-- The application of a new procedure is made of new cells, and nothing else happens. -/
lemma exists_letIn (hbindings : s.BindingList bindings bound) (hbody : body ≠ []) :
    ∃ d p params t, (∀ limit, Derived.letIn limit bindings body s = .ok (.pair d) t) ∧
      s.AddsFresh t ∧
      t.ListIn (s.cells.size ≤ ·) (.pair d) (.pair p :: bound.map Prod.snd) ∧
      t.ListIn (s.cells.size ≤ ·) (.pair p) (Derived.keyword .lambda :: params :: body) ∧
      t.ListIn (s.cells.size ≤ ·) params (bound.map fun b => .symbol b.1) := by
  obtain ⟨members, hmembers, hshape⟩ := hbindings
  have hbound (limit : Nat) : members.mapM (Derived.binding limit) s = .ok bound s := by
    clear hmembers
    induction hshape with
    | nil => rfl
    | @cons v b vs bound hv _ ih =>
      have hfirst : Derived.binding limit v s = .ok b s := by
        rw [Derived.binding, Effect.get_bind, hv]
        rfl
      rw [List.mapM_cons, Effect.bind_ok hfirst, Effect.bind_ok ih]
      rfl
  -- first come the parameters, then the expression that makes the procedure, then its application
  set symbols := bound.map fun b => Value.symbol b.1
  have hsymbols : Derived.newList symbols s = .ok (s.list symbols).1 (s.list symbols).2 := rfl
  have hfresh₁ : s.AddsFresh (s.list symbols).2 := addsFresh_chain symbols .nil s
  obtain ⟨p, s₂, hlambda, hfresh₂, hproc⟩ := exists_lambda (s.list symbols).1 body (s.list symbols).2
  obtain ⟨d, t, hlist, hfresh₃, happlication⟩ := exists_newList (.pair p) (bound.map Prod.snd) s₂
  have hle₁ := hfresh₁.cells.size_le
  have hle₂ := hle₁.trans hfresh₂.cells.size_le
  refine ⟨d, p, (s.list symbols).1, t, fun limit => ?_, (hfresh₁.trans hfresh₂).trans hfresh₃,
    happlication.mono (.refl t) fun _ _ => hle₂.trans,
    hproc.mono hfresh₃.cells fun _ _ => hle₁.trans,
    (listIn_list symbols s).mono (hfresh₂.trans hfresh₃).cells fun _ _ h => h⟩
  rw [Derived.letIn, Effect.get_bind, hmembers]
  simp only [List.isEmpty_iff, hbody, if_false]
  rw [Effect.bind_ok (hbound limit), Effect.bind_ok hsymbols, Effect.bind_ok hlambda]
  exact hlist

end Store

section Meaning

variable {s t : Store} {mode : Mode} {d p : CellId} {params : Value} {names : List Symbol}
  {exprs body : List Value} {env : FrameId}

/-- The application of a new procedure means that its parameters are bound to the operands. -/
lemma means_application (huntraced : mode.traced = false) (hs : s.WellFormed) (hfresh : s.AddsFresh t)
    (happlication : t.list? (.pair d) = some (.pair p :: exprs))
    (hlambda : t.list? (.pair p) = some (Derived.keyword .lambda :: params :: body))
    (hparams : t.list? params = some (names.map .symbol)) (hbody : body ≠ [])
    (hexprs : ∀ expr ∈ exprs, s.Knows expr) (hforms : ∀ form ∈ body, s.Knows form) :
    Means mode (fun ev => Eval.bindIn ev env names exprs body) s (.pair d) env t := by
  set u := (t.addClosure ⟨names, body, env, none⟩).2
  have hfresh' : s.AddsFresh u := hfresh.trans (Store.addsFresh_addClosure _ t)
  refine Means.of_imitates hs hfresh' ?_
    (ends_application_iff huntraced happlication hlambda hparams hbody)
  refine Replication.imitates_bindIn (Store.closure_addClosure_self _ t) (fun j => ?_)
    (Store.copiesAll_known u hexprs) (Store.copiesAll_known u hforms)
  have hlt : t.closures.size < u.closures.size := by simp [u, Store.addClosure]
  exact Store.shift_ne hfresh.closures_le hlt j

/-- The frame is inside another one and binds exactly the given names, each to the value at the last
place of the name. -/
structure Frame.BindsLast (frame : Frame) (outer : FrameId) (names : List Symbol) (vs : List Value) :
    Prop where
  outer_eq : frame.outer = some outer
  bound_iff : ∀ x, (frame.bindings.get? x).isSome ↔ x ∈ names
  value_eq : ∀ (i : Nat) x, names[i]? = some x → (∀ j, i < j → names[j]? ≠ some x) →
    frame.bindings.get? x = vs[i]?

/-- A frame binds each name to its last value. -/
lemma bindsLast_addFrame {vs : List Value} (hlength : names.length ≤ vs.length) (env : FrameId)
    (s : Store) :
    ((s.addFrame (names.zip vs) (some env)).2.frame s.frames.size).BindsLast env names vs := by
  rw [Store.frame_addFrame_self]
  refine ⟨rfl, fun x => ?_, fun i x hi hlast => ?_⟩
  · rw [Bindings.get?_putAll, Bindings.get?, Option.or_none, Bindings.isSome_get?_iff,
      List.map_reverse, List.mem_reverse, List.map_fst_zip hlength]
  · rw [Bindings.get?_putAll, Bindings.get?, Option.or_none]
    exact Bindings.get?_reverse_zip hlength hi hlast

/-- **`let` means what it says**, in a well-formed store and whatever names are bound to: its expressions
are evaluated in order in the current frame, its names are bound to their values in a new frame inside
the current one, and its forms are evaluated there.  The evaluation ends in the same value or error and
in the same store, up to fresh nodes that nobody can reach, and only if this procedure ends.  The
application of a procedure to operands where the procedure is written down means the same, and it may
have operands without name.  The new frame binds each name to the value at the last place of the
name. -/
theorem ends_letIn (strict : Bool) (hs : s.WellFormed) (env : FrameId) :
    (∀ c bindings bound body,
      s.list? (.pair c) = some (Derived.keyword .letIn :: bindings :: body) →
      s.BindingList bindings bound → body ≠ [] →
      Means ⟨strict, false⟩
        (fun ev => Eval.bindIn ev env (bound.map Prod.fst) (bound.map Prod.snd) body) s (.pair c) env
        s) ∧
    (∀ c p params names body exprs, s.list? (.pair c) = some (.pair p :: exprs) →
      s.list? (.pair p) = some (Derived.keyword .lambda :: params :: body) →
      s.list? params = some (names.map .symbol) → body ≠ [] →
      Means ⟨strict, false⟩ (fun ev => Eval.bindIn ev env names exprs body) s (.pair c) env s) ∧
    ∀ (names : List Symbol) (vs : List Value) (t : Store), names.length ≤ vs.length →
      ((t.addFrame (names.zip vs) (some env)).2.frame t.frames.size).BindsLast env names vs := by
  refine ⟨?_, ?_, fun names vs t hlength => bindsLast_addFrame hlength env t⟩
  · intro c bindings bound body hlet hbindings hbody
    obtain ⟨d, p, params, t, hexpanded, hfresh, happlication, hlambda, hparams⟩ :=
      Store.exists_letIn hbindings hbody
    have hspecial (limit : Nat) (ev : Evaluator) :
        Eval.special limit ev .letIn (bindings :: body) env s = ev (.pair d) env t :=
      Effect.bind_ok (hexpanded limit)
    have hforms : ∀ form ∈ body, s.Knows form := fun form hform =>
      hs.knows_of_list? hlet form (by simp [hform])
    have hnames : t.list? params = some ((bound.map Prod.fst).map .symbol) := by
      rw [hparams.list?_eq, List.map_map]
      rfl
    have hmeans : Means ⟨strict, false⟩ _ s (.pair d) env t :=
      means_application rfl hs hfresh happlication.list?_eq hlambda.list?_eq hnames hbody
        (hbindings.knows hs) hforms
    exact hmeans.congr fun r => ends_special_iff rfl (keyword?_car hlet) hlet hspecial
  · intro c p params names body exprs happlication hlambda hparams hbody
    refine means_application rfl hs (.refl s) happlication hlambda hparams hbody
      (fun expr hexpr => ?_) fun form hform => ?_
    · exact hs.knows_of_list? happlication expr (by simp [hexpr])
    · exact hs.knows_of_list? hlambda form (by simp [hform])

/-- The expression `(let ((x 1) (x 2)) (write x) x)`. -/
def bindingTwice : Datum :=
  .ofList [.symbol ⟨"let"⟩, .ofList [.ofList [.symbol ⟨"x"⟩, .atom (.number 1)] .nil,
    .ofList [.symbol ⟨"x"⟩, .atom (.number 2)] .nil] .nil,
    .ofList [.symbol ⟨"write"⟩, .symbol ⟨"x"⟩] .nil, .symbol ⟨"x"⟩] .nil

/-- The name is bound to the second value. -/
theorem ends_letIn_bindingTwice : ∃ s bound body t,
    s = (Interpreter.smallStart.load bindingTwice).2 ∧ s.WellFormed ∧
    s.list? (.pair 11) = some (Derived.keyword .letIn :: .pair 5 :: body) ∧
    s.BindingList (.pair 5) bound ∧ body ≠ [] ∧
    Ends .plain (.pair 11) 0 s (.ok (.number 2) t) ∧ t.output .standard = "2\n" := by
  set s := (Interpreter.smallStart.load bindingTwice).2
  have hnew : Interpreter.new (.standard .standard) .plain false 30 .empty =
      .ok Interpreter.small Interpreter.smallStart := rfl
  have hwf : s.WellFormed := (Interpreter.wellFormed_of_new hnew).load _
  set body : List Value := [.pair 7, .symbol ⟨"x"⟩]
  have hlet : s.list? (.pair 11) = some (Derived.keyword .letIn :: .pair 5 :: body) := by
    decide +kernel
  set bound : List (Symbol × Value) := [(⟨"x"⟩, .number 1), (⟨"x"⟩, .number 2)]
  have hbound : s.BindingList (.pair 5) bound :=
    ⟨[.pair 1, .pair 3], by decide +kernel, .cons (by decide +kernel) (.cons (by decide +kernel) .nil)⟩
  set direct : Effect Value :=
    Eval.bindIn (eval .plain 20) 0 (bound.map Prod.fst) (bound.map Prod.snd) body
  have hvalue : Effect.value? (direct s) = some (.number 2) := by decide +kernel
  have houtput : (Effect.final (direct s)).output .standard = "2\n" := by decide +kernel
  have hends : EndsBy .plain
      (fun ev => Eval.bindIn ev 0 (bound.map Prod.fst) (bound.map Prod.snd) body) s
      (.ok (.number 2) _) := ⟨nofun, 20, Effect.eq_ok_of_value? hvalue⟩
  have hbody : body ≠ [] := nofun
  obtain ⟨r', hr', hfresh⟩ :=
    ((ends_letIn false hwf 0).1 11 (.pair 5) bound body hlet hbound hbody).ends _ hends
  cases hfresh with
  | @ok ρ _ _ t _ hmirrors =>
    refine ⟨s, bound, body, t, rfl, hwf, hlet, hbound, hbody, hr', ?_⟩
    rw [← houtput, Store.output, Store.output, hmirrors.printed]

end Meaning

end SmallScheme
