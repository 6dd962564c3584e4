import SmallScheme.Proofs.Drawing
import SmallScheme.Proofs.LoadedAhead
import SmallScheme.Proofs.MalformedForms
import SmallScheme.Proofs.RoundTrip
import SmallScheme.Proofs.Scoping

/-!
# Running programs

What single expressions evaluate to, as equations.  Each rule takes the results of the parts and gives
the result of the whole with one more unit of the limit, so that a program is run by putting together
the rules of its expressions.  The steps are not reported here.

A program text is loaded once and evaluated many times, in stores that have grown in between.  What an
evaluation leaves as it was is said by `Store.Keeps`: cells stay as they are, a closure may get a name
at most, and bindings change in the given frames only.  Where no binding changes at all and nothing is
printed, the store just grows (`Store.Grows`).  Before it is evaluated, an expression may have to be
shown as a whole, which finite data allow.
-/

namespace SmallScheme

/-- A name that a program can give to something new: it is written as a symbol, and it is neither a
keyword nor one of the names that are in use. -/
structure Symbol.Nameable (x : Symbol) (used : List Symbol) : Prop where
  readable : x.Readable
  keyword : Eval.keyword? (.symbol x) = none
  not_mem : x ∉ used

lemma Symbol.Nameable.ne {x y : Symbol} {used : List Symbol} (h : x.Nameable used) (hy : y ∈ used) :
    x ≠ y :=
  fun heq => h.not_mem (heq ▸ hy)

namespace Datum

/-- The definition of a procedure whose body is one expression. -/
def procedure (x : Symbol) (params : List Symbol) (body : Datum) : Datum :=
  .ofList [.symbol ⟨"define"⟩, .ofList (.symbol x :: params.map .symbol) .nil, body] .nil

/-- Everything in the datum has a written form. -/
def Writable : Datum → Prop
  | .atom a => a.text?.isSome
  | .cons car cdr => car.Writable ∧ cdr.Writable

instance decidableWritable : (d : Datum) → Decidable d.Writable
  | .atom a => inferInstanceAs (Decidable (a.text?.isSome = true))
  | .cons car cdr =>
    have := car.decidableWritable
    have := cdr.decidableWritable
    inferInstanceAs (Decidable (car.Writable ∧ cdr.Writable))

/-- Whether it is printed as a whole or as the rest of a list, it has a text. -/
lemma Writable.isSome_texts {d : Datum} (h : d.Writable) (s : Store) :
    (d.drawing.text? s).isSome ∧ (d.drawing.rest? s).isSome := by
  induction d with
  | atom a =>
    have htext : (Drawing.leafText? s (.atom a)).isSome := h
    obtain ⟨text, htext⟩ := Option.isSome_iff_exists.mp htext
    refine ⟨Option.isSome_iff_exists.mpr ⟨text, htext⟩, ?_⟩
    cases a <;> simp [drawing, Drawing.rest?, htext]
  | cons car cdr ihcar ihcdr =>
    obtain ⟨first, hfirst⟩ := Option.isSome_iff_exists.mp (ihcar h.1).1
    obtain ⟨rest, hrest⟩ := Option.isSome_iff_exists.mp (ihcdr h.2).2
    simp [drawing, Drawing.text?, Drawing.rest?, hfirst, hrest]

lemma Writable.isSome_text? {d : Datum} (h : d.Writable) (s : Store) :
    (d.drawing.text? s).isSome :=
  (h.isSome_texts s).1

end Datum

namespace Store

variable {s t u : Store} {P Q : FrameId → Prop} {v : Value} {f g : FrameId} {x : Symbol}

/-! ## Lists in loaded programs -/

lemma Unfolds.eq_atom {a : Atom} (h : s.Unfolds v (.atom a)) : v = .atom a := by
  cases h
  rfl

/-- A list of data is a list of values that stand for them. -/
lemma Unfolds.exists_list {ds : List Datum} (h : s.Unfolds v (.ofList ds .nil)) :
    ∃ vs, s.list? v = some vs ∧ List.Forall₂ s.Unfolds vs ds := by
  obtain ⟨cs, hspine, hmembers⟩ : ∃ cs, s.Spine v cs .nil ∧
      List.Forall₂ s.Unfolds (cs.map fun c => (s.cell c).car) ds := by
    induction ds generalizing v with
    | nil =>
      cases h.eq_atom
      exact ⟨[], .last nofun, .nil⟩
    | cons d ds ih =>
      cases h with
      | pair hc hcar hcdr =>
        obtain ⟨cs, hspine, hmembers⟩ := ih hcdr
        exact ⟨_ :: cs, .pair hc hspine, .cons hcar hmembers⟩
  exact ⟨_, by rw [list?, hspine.chain?_eq], hmembers⟩

/-- A list with a first member is a pair. -/
lemma Unfolds.exists_pair {d : Datum} {ds : List Datum} (h : s.Unfolds v (.ofList (d :: ds) .nil)) :
    ∃ c w ws, v = .pair c ∧ s.list? (.pair c) = some (w :: ws) ∧ s.Unfolds w d ∧
      List.Forall₂ s.Unfolds ws ds := by
  obtain ⟨vs, hlist, hmembers⟩ := h.exists_list
  cases hmembers with
  | cons hw hws =>
    cases h with
    | pair => exact ⟨_, _, _, rfl, hlist, hw, hws⟩

lemma Unfolds.list?_symbols {names : List Symbol}
    (h : s.Unfolds v (.ofList (names.map .symbol) .nil)) :
    s.list? v = some (names.map .symbol) := by
  obtain ⟨vs, hlist, hmembers⟩ := h.exists_list
  rw [hlist, Option.some.injEq]
  clear h hlist
  induction names generalizing vs with
  | nil =>
    cases hmembers
    rfl
  | cons x names ih =>
    cases hmembers with
    | cons hv hvs => rw [hv.eq_atom, ih _ hvs, List.map_cons]

/-! ## What is printed -/

/-- A value that stands for a datum is printed if the limit allows it. -/
lemma Unfolds.exists_render {d : Datum} (h : s.Unfolds v d) (hwritable : d.Writable) {limit : Nat}
    (hlimit : d.drawing.nesting ≤ limit) : ∃ text, s.render limit v = .ok text := by
  obtain ⟨text, htext⟩ := Option.isSome_iff_exists.mp (hwritable.isSome_text? s)
  refine ⟨text, ?_⟩
  rw [render, renderWithin_of_draws h.unrolls.draws hlimit, htext]
  rfl

/-! ## What stays -/

/-- The closure of a number is there, with the given parameters, body and frame. -/
structure HasClosure (s : Store) (k : ClosureId) (params : List Symbol) (body : List Value)
    (env : FrameId) : Prop where
  lt : k < s.closures.size
  params_eq : (s.closure k).params = params
  body_eq : (s.closure k).body = body
  env_eq : (s.closure k).env = env

/-- The second store has all that the first one has.  Only the frames of the given kind may have other
bindings. -/
structure Keeps (s : Store) (P : FrameId → Prop) (t : Store) : Prop where
  cells : s.Extends t
  frames_le : s.frames.size ≤ t.frames.size
  frame_eq : ∀ f < s.frames.size, ¬P f → t.frame f = s.frame f
  closure : ∀ {k params body env}, s.HasClosure k params body env → t.HasClosure k params body env

namespace Keeps

lemma trans (h : s.Keeps P t) (h' : t.Keeps P u) : s.Keeps P u where
  cells := h.cells.trans h'.cells
  frames_le := h.frames_le.trans h'.frames_le
  frame_eq f hf hP := (h'.frame_eq f (hf.trans_le h.frames_le) hP).trans (h.frame_eq f hf hP)
  closure hk := h'.closure (h.closure hk)

lemma mono (h : s.Keeps P t) (hPQ : ∀ f, P f → Q f) : s.Keeps Q t :=
  ⟨h.cells, h.frames_le, fun f hf hQ => h.frame_eq f hf fun hP => hQ (hPQ f hP), h.closure⟩

end Keeps

lemma AddsFresh.keeps (h : s.AddsFresh t) (P : FrameId → Prop) : s.Keeps P t where
  cells := h.cells
  frames_le := h.frames ▸ le_rfl
  frame_eq f _ _ := by rw [frame, h.frames, frame]
  closure hk := by
    have heq := h.closure_eq _ hk.lt
    exact ⟨hk.lt.trans_le h.closures_le, heq ▸ hk.params_eq, heq ▸ hk.body_eq, heq ▸ hk.env_eq⟩

lemma keeps_addFrame (bindings : List (Symbol × Value)) (outer : Option FrameId) (s : Store)
    (P : FrameId → Prop) : s.Keeps P (s.addFrame bindings outer).2 where
  cells := ⟨le_rfl, fun _ _ => rfl⟩
  frames_le := by simp [addFrame]
  frame_eq _ hf _ := frame_addFrame_of_lt bindings outer hf
  closure hk := ⟨hk.lt, hk.params_eq, hk.body_eq, hk.env_eq⟩

lemma keeps_events (events : Array Event) (s : Store) (P : FrameId → Prop) :
    s.Keeps P { s with events := events } where
  cells := ⟨le_rfl, fun _ _ => rfl⟩
  frames_le := le_rfl
  frame_eq _ _ _ := rfl
  closure hk := ⟨hk.lt, hk.params_eq, hk.body_eq, hk.env_eq⟩

lemma keeps_nameClosure (k : ClosureId) (x : Symbol) (s : Store) (P : FrameId → Prop) :
    s.Keeps P (s.nameClosure k x) where
  cells := ⟨le_rfl, fun _ _ => rfl⟩
  frames_le := le_rfl
  frame_eq _ _ _ := rfl
  closure {j _ _ _} hj := by
    have hlt : j < (s.nameClosure k x).closures.size := by simpa [nameClosure] using hj.lt
    have hsame : ∃ name, (s.nameClosure k x).closure j = { s.closure j with name := name } := by
      by_cases hk : k = j
      · subst hk
        exact ⟨(s.closure k).name.or (some x), by
          simp [nameClosure, Store.closure, Array.getElem_modify, hj.lt]⟩
      · exact ⟨(s.closure j).name, by simp [nameClosure, Store.closure, Array.getElem?_modify, hk]⟩
    obtain ⟨name, hname⟩ := hsame
    exact ⟨hlt, by rw [hname]; exact hj.params_eq, by rw [hname]; exact hj.body_eq,
      by rw [hname]; exact hj.env_eq⟩

lemma frame_define_self (hf : f < s.frames.size) (x : Symbol) (v : Value) :
    (s.define f x v).frame f = ⟨(s.frame f).bindings.put x v, (s.frame f).outer⟩ := by
  rw [define, frame_defineAll _ hf, if_pos rfl]
  rfl

lemma keeps_define (hf : f < s.frames.size) (hP : P f) (x : Symbol) (v : Value) :
    s.Keeps P (s.define f x v) where
  cells := ⟨le_rfl, fun _ _ => rfl⟩
  frames_le := by simp [define, defineAll]
  frame_eq g _ hg := by
    have hne : g ≠ f := by
      rintro rfl
      exact hg hP
    rw [define, frame_defineAll _ hf, if_neg hne]
  closure hk := ⟨hk.lt, hk.params_eq, hk.body_eq, hk.env_eq⟩

lemma hasClosure_addClosure (k : Closure) (s : Store) :
    (s.addClosure k).2.HasClosure s.closures.size k.params k.body k.env := by
  have hself := closure_addClosure_self k s
  exact ⟨by simp [addClosure], by rw [hself], by rw [hself], by rw [hself]⟩

/-- The second store has all that the first one has, and nothing but new nodes, names of closures and
events. -/
structure Grows (s t : Store) : Prop extends s.Keeps (fun _ => False) t where
  printed_eq : t.printed = s.printed

lemma AddsFresh.grows (h : s.AddsFresh t) : s.Grows t :=
  ⟨h.keeps _, h.printed⟩

namespace Grows

lemma refl (s : Store) : s.Grows s :=
  (AddsFresh.refl s).grows

lemma trans (h : s.Grows t) (h' : t.Grows u) : s.Grows u :=
  ⟨h.toKeeps.trans h'.toKeeps, h'.printed_eq.trans h.printed_eq⟩

end Grows

lemma grows_addFrame (bindings : List (Symbol × Value)) (outer : Option FrameId) (s : Store) :
    s.Grows (s.addFrame bindings outer).2 :=
  ⟨s.keeps_addFrame bindings outer _, rfl⟩

lemma grows_nameClosure (k : ClosureId) (x : Symbol) (s : Store) : s.Grows (s.nameClosure k x) :=
  ⟨s.keeps_nameClosure k x _, rfl⟩

lemma grows_events (events : Array Event) (s : Store) : s.Grows { s with events := events } :=
  ⟨s.keeps_events events _, rfl⟩

/-! ## Names -/

/-- A frame that binds a name is the nearest one. -/
lemma find?_self (h : (s.frame f).bindings.get? x = some v) : s.find? f x = some f := by
  obtain ⟨rest, hscopes⟩ : ∃ rest, s.scopes f = f :: rest := by
    rw [scopes]
    split
    · exact ⟨_, rfl⟩
    · split
      · exact ⟨_, rfl⟩
      · exact ⟨_, rfl⟩
  rw [find?, hscopes, List.find?_cons_of_pos (by rw [h]; rfl)]

lemma lookup?_self (h : (s.frame f).bindings.get? x = some v) : s.lookup? f x = some v := by
  rw [lookup?_of_find? (find?_self h), h]

/-- A name that a frame does not bind is looked up in the frame around it. -/
lemma find?_outer (houter : (s.frame f).outer = some g) (hlt : g < f)
    (h : (s.frame f).bindings.get? x = none) : s.find? f x = s.find? g x := by
  rw [find?, scopes_of_outer houter hlt, List.find?_cons_of_neg (by simp [h]), find?]

/-- What a name stands for does not change while the store grows. -/
lemma Grows.find?_eq (h : s.Grows t) (hf : f < s.frames.size) (x : Symbol) :
    t.find? f x = s.find? f x := by
  induction f using Nat.strongRecOn with
  | ind f ih =>
    have hframe : t.frame f = s.frame f := h.frame_eq f hf id
    rw [find?, find?, scopes, scopes, hframe]
    split
    · rw [List.find?_singleton, List.find?_singleton, hframe]
    · split
      · rename_i g _ hlt
        rw [List.find?_cons, List.find?_cons, hframe]
        have hg := ih g hlt (hlt.trans hf)
        rw [find?, find?] at hg
        rw [hg]
      · rw [List.find?_singleton, List.find?_singleton, hframe]

lemma Grows.lookup?_eq (h : s.Grows t) (hf : f < s.frames.size) (x : Symbol) :
    t.lookup? f x = s.lookup? f x := by
  cases hfind : s.find? f x with
  | none =>
    rw [lookup?, lookup?, h.find?_eq hf, hfind]
    rfl
  | some g =>
    rw [lookup?_of_find? hfind, lookup?_of_find? ((h.find?_eq hf x).trans hfind),
      h.frame_eq g (lt_of_find? hfind) id]

end Store

/-! ## Values of expressions -/

section Rules

variable {mode : Mode} {limit : Nat} {s t : Store} {env f : FrameId} {c d : CellId} {x : Symbol}
  {v expr : Value} {exprs vs body : List Value} {k : ClosureId} {ev : Evaluator}
  {params : List Symbol}

lemma eval_number (huntraced : mode.traced = false) (limit : Nat) (n : Int) (env : FrameId)
    (s : Store) : eval mode (limit + 1) (.number n) env s = .ok (.number n) s := by
  rw [eval_succ, Eval.step, reportEval_untraced huntraced, pure_bind]
  rfl

lemma eval_symbol (huntraced : mode.traced = false) (h : s.lookup? env x = some v) (limit : Nat) :
    eval mode (limit + 1) (.symbol x) env s = .ok v s := by
  rw [eval_succ, Eval.step, reportEval_untraced huntraced, pure_bind]
  exact readName_of_lookup? h mode

lemma eval_special (huntraced : mode.traced = false) {form : SpecialForm}
    (hlist : s.list? (.pair c) = some (Derived.keyword form :: exprs)) (limit : Nat) (env : FrameId) :
    eval mode (limit + 1) (.pair c) env s =
      Eval.special limit (eval mode limit) form exprs env s := by
  rw [eval_succ, step_special huntraced (keyword?_car hlist) hlist]

/-! ### Procedures -/

lemma operands_cons (h : ev expr env s = .ok v t) {u : Store}
    (h' : Eval.operands ev env exprs t = .ok vs u) :
    Eval.operands ev env (expr :: exprs) s = .ok (v :: vs) u := by
  rw [Eval.operands, Effect.bind_ok h, Effect.bind_ok h']
  rfl

lemma sequence_cons (h : ev expr env s = .ok v t) (w : Value) (rest : List Value) :
    Eval.sequence ev env (expr :: w :: rest) s = Eval.sequence ev env (w :: rest) t := by
  have hfirst : (discard (ev expr env) : Effect PUnit) s = .ok () t := Effect.bind_ok h
  exact Effect.bind_ok hfirst

/-- The body of a closure is evaluated in a new frame inside its own one. -/
lemma callClosure_eq (hk : s.HasClosure k params body f) (hlength : params.length ≤ vs.length)
    (ev : Evaluator) :
    callClosure ev k vs s =
      Eval.sequence ev s.frames.size body (s.addFrame (params.zip vs) (some f)).2 := by
  have henter : Eval.enter (s.closure k) vs s =
      .ok s.frames.size (s.addFrame (params.zip vs) (some f)).2 := by
    rw [Eval.enter, hk.params_eq, List.getElem?_eq_none hlength, hk.env_eq]
    rfl
  rw [callClosure, Effect.get_bind, Effect.bind_ok henter, hk.body_eq]

/-- The operands are evaluated first. -/
lemma callWith_eq (hargs : Eval.operands ev env exprs s = .ok vs t)
    (hk : t.HasClosure k params body f) (hlength : params.length ≤ vs.length) :
    callWith ev k exprs env s =
      Eval.sequence ev t.frames.size body (t.addFrame (params.zip vs) (some f)).2 := by
  rw [callWith, Effect.bind_ok hargs, callClosure_eq hk hlength]

/-- The application of a name that stands for a closure. -/
lemma eval_call (huntraced : mode.traced = false)
    (hlist : s.list? (.pair c) = some (.symbol x :: exprs))
    (hx : Eval.keyword? (.symbol x) = none) (hlookup : s.lookup? env x = some (.closure k))
    (limit : Nat) :
    eval mode (limit + 2) (.pair c) env s = callWith (eval mode (limit + 1)) k exprs env s := by
  rw [eval_succ, step_operator huntraced hx hlist (eval_symbol huntraced hlookup limit) rfl]
  have hcall : Eval.apply mode (limit + 1) (eval mode (limit + 1)) (.closure k) =
      callClosure (eval mode (limit + 1)) k :=
    funext fun vs => apply_closure_eq huntraced (limit + 1) _ k vs
  rw [hcall]
  rfl

/-- The application of a name that stands for a closure without parameters. -/
lemma eval_callThunk (huntraced : mode.traced = false)
    (hlist : s.list? (.pair c) = some [.symbol x]) (hx : Eval.keyword? (.symbol x) = none)
    (hlookup : s.lookup? env x = some (.closure k)) (hk : s.HasClosure k [] body f)
    (limit : Nat) :
    eval mode (limit + 2) (.pair c) env s =
      Eval.sequence (eval mode (limit + 1)) s.frames.size body (s.addFrame [] (some f)).2 := by
  rw [eval_call huntraced hlist hx hlookup]
  exact callWith_eq rfl hk le_rfl

/-- The application of a name that stands for a native procedure. -/
lemma eval_native (huntraced : mode.traced = false) {b : Builtin}
    (hlist : s.list? (.pair c) = some (.symbol x :: exprs))
    (hx : Eval.keyword? (.symbol x) = none) (hlookup : s.lookup? env x = some (.builtin b))
    (hargs : Eval.operands (eval mode (limit + 1)) env exprs s = .ok vs t) :
    eval mode (limit + 2) (.pair c) env s = b.apply (limit + 1) vs t := by
  rw [eval_succ, step_operator huntraced hx hlist (eval_symbol huntraced hlookup limit) rfl,
    Effect.bind_ok hargs, Eval.apply]
  have hnothing : mode.reportApply (limit + 1) (.builtin b) vs = pure () := by
    unfold Mode.reportApply
    rw [huntraced]
    rfl
  rw [hnothing, pure_bind]

/-! ### Special forms -/

/-- The value of the test decides between two expressions. -/
lemma eval_choice (huntraced : mode.traced = false) {test consequent alternative : Value}
    (hlist : s.list? (.pair c) = some [Derived.keyword .choice, test, consequent, alternative])
    (htest : eval mode limit test env s = .ok v t) :
    eval mode (limit + 1) (.pair c) env s =
      eval mode limit (if v == .bool false then alternative else consequent) env t := by
  rw [eval_special huntraced hlist]
  refine (Effect.bind_ok htest).trans ?_
  split <;> rfl

/-- A `cond` with one clause and an `else` is the choice between their expressions. -/
lemma eval_condElse (huntraced : mode.traced = false) {test consequent alternative w : Value}
    (hlist : s.list? (.pair c) = some [Derived.keyword .cond, v, w])
    (hv : s.list? v = some [test, consequent])
    (hw : s.list? w = some [.symbol ⟨"else"⟩, alternative])
    (htest : test ≠ .symbol ⟨"else"⟩) :
    ∃ d t, s.AddsFresh t ∧
      t.list? (.pair d) = some [Derived.keyword .choice, test, consequent, alternative] ∧
      ∀ limit env, eval mode (limit + 1) (.pair c) env s = eval mode limit (.pair d) env t := by
  have hclauses : s.Clauses [v, w]
      [(test, [consequent]), (.symbol ⟨"else"⟩, [alternative])] :=
    ⟨.cons ⟨hv, nofun⟩ (.cons ⟨hw, nofun⟩ .nil), by simpa using htest⟩
  obtain ⟨d, t, hd, hfresh, hchoice⟩ := Store.exists_newList (Derived.keyword .choice)
    [test, consequent, alternative] s
  have hnot : Derived.isElse test = false := (Derived.isElse_eq_false_iff test).mpr htest
  have hchoices : Derived.choices
      [(test, [consequent]), (.symbol ⟨"else"⟩, [alternative])] s = .ok (.pair d) t := by
    rw [← hd]
    simp only [Derived.choices, hnot]
    rfl
  refine ⟨d, t, hfresh, hchoice.list?_eq, fun limit env => ?_⟩
  have hexpanded : Derived.cond limit [v, w] s = .ok (.pair d) t :=
    (Effect.bind_ok (hclauses.clauses_eq limit)).trans hchoices
  rw [eval_special huntraced hlist]
  exact Effect.bind_ok hexpanded

/-- A procedure is made. -/
lemma eval_lambda (huntraced : mode.traced = false) {names : Value}
    (hlist : s.list? (.pair c) = some (Derived.keyword .lambda :: names :: body))
    (hnames : s.list? names = some (params.map .symbol)) (hbody : body ≠ []) (limit : Nat)
    (env : FrameId) :
    ∃ k t, eval mode (limit + 1) (.pair c) env s = .ok (.closure k) t ∧ s.AddsFresh t ∧
      t.HasClosure k params body env := by
  refine ⟨_, _, (eval_special huntraced hlist limit env).trans (lambda_eq limit hnames hbody),
    Store.addsFresh_addClosure _ s, Store.hasClosure_addClosure _ s⟩

/-- The nearest binding of a name is changed. -/
lemma eval_assign (huntraced : mode.traced = false)
    (hlist : s.list? (.pair c) = some [Derived.keyword .assign, .symbol x, expr])
    (hexpr : eval mode limit expr env s = .ok v t) (hfind : t.find? env x = some f) :
    eval mode (limit + 1) (.pair c) env s = .ok .nil (t.define f x v) := by
  rw [eval_special huntraced hlist]
  exact (Effect.bind_ok hexpr).trans (Effect.bind_ok (assignName_of_find? hfind v))

/-- A definition of a name as a procedure names this procedure, too. -/
lemma eval_define (huntraced : mode.traced = false)
    (hlist : s.list? (.pair c) = some [Derived.keyword .define, .symbol x, expr])
    (hexpr : eval mode limit expr env s = .ok (.closure k) t) :
    eval mode (limit + 1) (.pair c) env s =
      .ok .nil ((t.nameClosure k x).define env x (.closure k)) := by
  rw [eval_special huntraced hlist]
  exact Effect.bind_ok hexpr

/-- A definition with parameters defines a procedure. -/
lemma eval_defineProcedure (huntraced : mode.traced = false)
    (hlist : s.list? (.pair c) = some (Derived.keyword .define :: .pair d :: body))
    (hname : (s.cell d).car = .symbol x)
    (hparams : s.Unfolds (s.cell d).cdr (.ofList (params.map .symbol) .nil)) (hbody : body ≠ [])
    (limit : Nat) (env : FrameId) :
    ∃ k t, s.AddsFresh t ∧ t.HasClosure k params body env ∧
      eval mode (limit + 2) (.pair c) env s =
        .ok .nil ((t.nameClosure k x).define env x (.closure k)) := by
  obtain ⟨p, t, hdefinition, hfresh, hproc⟩ := exists_procedure hname hbody
  obtain ⟨k, u, hlambda, hfresh', hk⟩ := eval_lambda huntraced hproc.list?_eq
    (hparams.mono hfresh.cells).list?_symbols hbody limit env
  refine ⟨k, u, hfresh.trans hfresh', hk, ?_⟩
  rw [eval_special huntraced hlist, special_define_eq hdefinition]
  exact Effect.bind_ok hlambda

/-- Where the definition is a datum, the procedure has the body of the datum. -/
lemma eval_procedure (huntraced : mode.traced = false) {e : Value} {d : Datum}
    (he : s.Unfolds e (.procedure x params d)) (limit : Nat) (env : FrameId) :
    ∃ k e' t, s.Grows t ∧ t.HasClosure k params [e'] env ∧ t.Unfolds e' d ∧
      eval mode (limit + 2) e env s = .ok .nil (t.define env x (.closure k)) := by
  obtain ⟨c, keyword, operands, rfl, hdefine, hkeyword, hoperands⟩ := he.exists_pair
  obtain _ | ⟨htarget, _ | ⟨hbody, ⟨⟩⟩⟩ := hoperands
  cases hkeyword.eq_atom
  cases htarget with
  | pair hd hname hparams =>
    obtain ⟨k, t, hfresh, hk, heval⟩ :=
      eval_defineProcedure huntraced hdefine hname.eq_atom hparams nofun limit env
    have hnamed := t.grows_nameClosure k x
    exact ⟨k, _, _, hfresh.grows.trans hnamed, hnamed.closure hk,
      hbody.mono (hfresh.cells.trans hnamed.cells), heval⟩

/-- A `let` makes a procedure and applies it to the values of its expressions. -/
lemma eval_letIn (huntraced : mode.traced = false) {bindings : Value} {bound : List (Symbol × Value)}
    (hlist : s.list? (.pair c) = some (Derived.keyword .letIn :: bindings :: body))
    (hbindings : s.BindingList bindings bound) (hbody : body ≠ []) (limit : Nat) (env : FrameId) :
    ∃ k t, s.AddsFresh t ∧ t.HasClosure k (bound.map Prod.fst) body env ∧
      eval mode (limit + 3) (.pair c) env s =
        callWith (eval mode (limit + 1)) k (bound.map Prod.snd) env t := by
  obtain ⟨d, p, params, t, hexpanded, hfresh, happlication, hlambda, hparams⟩ :=
    Store.exists_letIn hbindings hbody
  have hnames : t.list? params = some ((bound.map Prod.fst).map .symbol) := by
    rw [hparams.list?_eq, List.map_map]
    rfl
  have hspecial : Eval.special (limit + 2) (eval mode (limit + 2)) .letIn (bindings :: body) env s =
      eval mode (limit + 2) (.pair d) env t := Effect.bind_ok (hexpanded _)
  have hproc := (eval_special huntraced hlambda.list?_eq limit env).trans
    (lambda_eq limit hnames hbody)
  refine ⟨_, _, hfresh.trans (Store.addsFresh_addClosure _ t),
    Store.hasClosure_addClosure ⟨bound.map Prod.fst, body, env, none⟩ t, ?_⟩
  rw [eval_special huntraced hlist, hspecial, eval_succ,
    step_application huntraced happlication.list?_eq hproc rfl]

end Rules

/-- A text with one expression is evaluated by evaluating this expression in the global frame.  It may
be shown before. -/
lemma Interpreter.exists_growth_of_read {i : Interpreter} {text : List Char} {d : Datum}
    (h : read i.limit text = .ok [d]) (hwritable : d.Writable)
    (hlimit : d.drawing.nesting ≤ i.limit) (s : Store) :
    ∃ v t, t.Unfolds v d ∧ s.Grows t ∧
      i.eval text s = SmallScheme.eval i.mode i.limit v i.globals t := by
  have hunfolds := Store.unfolds_load d s
  have hgrows : s.Grows (s.load d).2 := (Store.addsFresh_load d s).grows
  have heval : i.eval text s = i.interpret (s.load d).1 (s.load d).2 :=
    Effect.bind_ok (parse_of_read s h)
  cases hannounced : i.announced with
  | false =>
    refine ⟨_, _, hunfolds, hgrows, heval.trans ?_⟩
    rw [interpret, hannounced]
    rfl
  | true =>
    obtain ⟨form, hform⟩ := hunfolds.exists_render hwritable hlimit
    have hevents := Store.grows_events ((s.load d).2.events.push (.interpret form)) (s.load d).2
    refine ⟨_, _, hunfolds.mono hevents.cells, hgrows.trans hevents, heval.trans ?_⟩
    have hshown : Effect.shown i.limit (s.load d).1 (s.load d).2 = .ok form (s.load d).2 :=
      Effect.ask_ok hform
    rw [interpret, hannounced, if_pos rfl]
    exact (Effect.bind_ok hshown).trans rfl

lemma Interpreter.exists_eval_of_read {i : Interpreter} {text : List Char} {d : Datum}
    (h : read i.limit text = .ok [d]) (hwritable : d.Writable)
    (hlimit : d.drawing.nesting ≤ i.limit) (s : Store) :
    ∃ v t, t.Unfolds v d ∧ s.Keeps (fun _ => False) t ∧
      i.eval text s = SmallScheme.eval i.mode i.limit v i.globals t := by
  obtain ⟨v, t, hunfolds, hgrows, heval⟩ := exists_growth_of_read h hwritable hlimit s
  exact ⟨v, t, hunfolds, hgrows.toKeeps, heval⟩

end SmallScheme
