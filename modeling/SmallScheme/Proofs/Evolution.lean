import SmallScheme.Proofs.Calls
import SmallScheme.Proofs.StoreReading

/-!
# Evolution of stores

What an evaluation can do to the store in which it starts: nothing disappears, output is only
appended to, and cells, frames and closures that are there change in few ways, each by a deed that
some call of the evaluation does (`Store.Evolves`).  The outer frame of a frame and everything about
a closure but a missing name never change; names stay bound; and a part of a pair, the value of a
name or the name of a closure is another one only if it was put there by the deed for it.

This is a discipline (`Store.evolution`) whose worlds are the stores themselves, and which permits
the deeds that are counted.  The main result is `eval_evolves`.
-/

namespace SmallScheme

variable {A : Deed → Prop}

/-! ## Cells, frames and closures -/

/-- What may become of a cell if certain deeds are done. -/
structure Cell.Evolves (A : Deed → Prop) (c : CellId) (before after : Cell) : Prop where
  car : after.car = before.car ∨ A (.setCar c after.car)
  cdr : after.cdr = before.cdr ∨ A (.setCdr c after.cdr)

/-- What may become of a frame. -/
structure Frame.Evolves (A : Deed → Prop) (f : FrameId) (before after : Frame) : Prop where
  outer_eq : after.outer = before.outer
  bound : ∀ x, (before.bindings.get? x).isSome → (after.bindings.get? x).isSome
  value : ∀ x v, after.bindings.get? x = some v →
    before.bindings.get? x = some v ∨ A (.bind f x v)

/-- What may become of a closure. -/
structure Closure.Evolves (A : Deed → Prop) (k : ClosureId) (before after : Closure) : Prop where
  params_eq : after.params = before.params
  body_eq : after.body = before.body
  env_eq : after.env = before.env
  name_kept : ∀ x, before.name = some x → after.name = some x
  name_given : ∀ x, after.name = some x → before.name = some x ∨ A (.name k x)

lemma Cell.Evolves.refl (c : CellId) (cell : Cell) : cell.Evolves A c cell :=
  ⟨.inl rfl, .inl rfl⟩

lemma Cell.Evolves.trans {c : CellId} {cell₁ cell₂ cell₃ : Cell} (h : cell₁.Evolves A c cell₂)
    (h' : cell₂.Evolves A c cell₃) : cell₁.Evolves A c cell₃ := by
  constructor
  · rcases h'.car with heq | hdeed
    · rw [heq]
      exact h.car
    · exact .inr hdeed
  · rcases h'.cdr with heq | hdeed
    · rw [heq]
      exact h.cdr
    · exact .inr hdeed

lemma Frame.Evolves.refl (f : FrameId) (frame : Frame) : frame.Evolves A f frame :=
  ⟨rfl, fun _ => id, fun _ _ => .inl⟩

lemma Frame.Evolves.trans {f : FrameId} {frame₁ frame₂ frame₃ : Frame}
    (h : frame₁.Evolves A f frame₂) (h' : frame₂.Evolves A f frame₃) :
    frame₁.Evolves A f frame₃ := by
  refine ⟨h'.outer_eq.trans h.outer_eq, fun x hx => h'.bound x (h.bound x hx), fun x v hv => ?_⟩
  rcases h'.value x v hv with hv | hdeed
  · exact h.value x v hv
  · exact .inr hdeed

lemma Closure.Evolves.refl (k : ClosureId) (closure : Closure) : closure.Evolves A k closure :=
  ⟨rfl, rfl, rfl, fun _ => id, fun _ => .inl⟩

lemma Closure.Evolves.trans {k : ClosureId} {closure₁ closure₂ closure₃ : Closure}
    (h : closure₁.Evolves A k closure₂) (h' : closure₂.Evolves A k closure₃) :
    closure₁.Evolves A k closure₃ where
  params_eq := h'.params_eq.trans h.params_eq
  body_eq := h'.body_eq.trans h.body_eq
  env_eq := h'.env_eq.trans h.env_eq
  name_kept x hx := h'.name_kept x (h.name_kept x hx)
  name_given x hx := (h'.name_given x hx).elim (h.name_given x) .inr

namespace Store

/-! ## Stores -/

/-- What may become of a node. -/
def EvolvesAt (A : Deed → Prop) (s s' : Store) : Node → Prop
  | .cell c => (s.cell c).Evolves A c (s'.cell c)
  | .frame f => (s.frame f).Evolves A f (s'.frame f)
  | .closure k => (s.closure k).Evolves A k (s'.closure k)

/-- What may become of a store if certain deeds are done. -/
structure Evolves (A : Deed → Prop) (s s' : Store) : Prop where
  extent_le : s.extent.Le s'.extent
  at_node : ∀ n, s.extent.Has n → s.EvolvesAt A s' n
  new_name : ∀ k, ¬s.extent.Has (.closure k) → ∀ x, (s'.closure k).name = some x → A (.name k x)
  output : s.Precedes s'

variable {s s' s'' : Store} {n touched : Node}

lemma EvolvesAt.trans (h : s.EvolvesAt A s' n) (h' : s'.EvolvesAt A s'' n) :
    s.EvolvesAt A s'' n := by
  cases n with
  | cell c => exact Cell.Evolves.trans h h'
  | frame f => exact Frame.Evolves.trans h h'
  | closure k => exact Closure.Evolves.trans h h'

lemma SameAt.evolvesAt (h : s.SameAt s' n) : s.EvolvesAt A s' n := by
  cases n with
  | cell c =>
    show (s.cell c).Evolves A c (s'.cell c)
    rw [show s'.cell c = s.cell c from h]
    exact .refl c _
  | frame f =>
    show (s.frame f).Evolves A f (s'.frame f)
    rw [show s'.frame f = s.frame f from h]
    exact .refl f _
  | closure k =>
    show (s.closure k).Evolves A k (s'.closure k)
    rw [show s'.closure k = s.closure k from h]
    exact .refl k _

/-- A closure that was never made has no name. -/
lemma name_of_not_has {k : ClosureId} (hk : ¬s.extent.Has (.closure k)) :
    (s.closure k).name = none := by
  have hsize : s.closures.size ≤ k := Nat.le_of_not_lt hk
  simp [Store.closure, hsize, default, instInhabitedClosure.default]

namespace Evolves

lemma refl (s : Store) : s.Evolves A s where
  extent_le := .refl _
  at_node n _ := (SameAt.refl s n).evolvesAt
  new_name k hk x hx := by
    rw [name_of_not_has hk] at hx
    cases hx
  output := .refl s

lemma trans (h : s.Evolves A s') (h' : s'.Evolves A s'') : s.Evolves A s'' where
  extent_le := h.extent_le.trans h'.extent_le
  at_node n hn := (h.at_node n hn).trans (h'.at_node n (hn.mono h.extent_le))
  new_name := by
    intro k hk x hx
    -- the closure is made in the first part of the evolution or in the second one
    by_cases hk' : s'.extent.Has (.closure k)
    · have hclosure : (s'.closure k).Evolves A k (s''.closure k) := h'.at_node _ hk'
      rcases hclosure.name_given x hx with hname | hdeed
      · exact h.new_name k hk x hname
      · exact hdeed
    · exact h'.new_name k hk' x hx
  output := h.output.trans h'.output

/-! ## Single operations -/

/-- An operation that touches one node and prints nothing. -/
lemma of_sameExcept (hexcept : s.SameExcept s' touched)
    (htouched : s.extent.Has touched → s.EvolvesAt A s' touched)
    (hname : ∀ k, touched = .closure k → ¬s.extent.Has touched → (s'.closure k).name = none)
    (hprinted : s'.printed = s.printed) : s.Evolves A s' where
  extent_le := hexcept.le
  at_node := by
    intro n hn
    by_cases hne : n = touched
    · subst hne
      exact htouched hn
    · exact (hexcept.same n hne).evolvesAt
  new_name := by
    intro k hk x hx
    by_cases hne : .closure k = touched
    · rw [hname k hne.symm (hne ▸ hk)] at hx
      cases hx
    · have hsame : s'.closure k = s.closure k := hexcept.same _ hne
      rw [hsame, name_of_not_has hk] at hx
      cases hx
  output := precedes_of_printed_eq hprinted

/-- An operation that changes no node. -/
lemma of_same (hextent : s'.extent = s.extent) (hsame : ∀ n, s.SameAt s' n)
    (houtput : s.Precedes s') : s.Evolves A s' where
  extent_le := hextent ▸ .refl _
  at_node n _ := (hsame n).evolvesAt
  new_name := by
    intro k hk x hx
    have hsame : s'.closure k = s.closure k := hsame (.closure k)
    rw [hsame, name_of_not_has hk] at hx
    cases hx
  output := houtput

lemma cons (car cdr : Value) (s : Store) : s.Evolves A (s.cons car cdr).2 :=
  of_sameExcept (sameExcept_cons s car cdr) (fun h => absurd h (lt_irrefl _)) nofun rfl

lemma addFrame (bindings : List (Symbol × Value)) (outer : Option FrameId) (s : Store) :
    s.Evolves A (s.addFrame bindings outer).2 :=
  of_sameExcept (sameExcept_addFrame s bindings outer) (fun h => absurd h (lt_irrefl _)) nofun rfl

/-- A new closure has no name as long as no definition names it. -/
lemma addClosure {closure : Closure} (s : Store) (hname : closure.name = none) :
    s.Evolves A (s.addClosure closure).2 := by
  refine of_sameExcept (sameExcept_addClosure s closure) (fun h => absurd h (lt_irrefl _))
    (fun k hk _ => ?_) rfl
  cases hk
  rw [closure_addClosure_self]
  exact hname

lemma addForeign (v : ForeignValue) (s : Store) : s.Evolves A (s.addForeign v).2 := by
  unfold Store.addForeign
  split
  · exact refl s
  · exact of_same rfl (fun n => by cases n <;> rfl) (precedes_of_printed_eq rfl)

lemma print (channel : Channel) (text : String) (s : Store) :
    s.Evolves A (s.print channel text) :=
  of_same rfl (fun n => by cases n <;> rfl) (precedes_print channel text s)

lemma report (event : Event) (s : Store) : s.Evolves A (s.report event) :=
  of_same rfl (fun n => by cases n <;> rfl) (precedes_of_printed_eq rfl)

lemma setCar {c : CellId} {v : Value} (s : Store) (h : A (.setCar c v)) :
    s.Evolves A (s.setCar c v) := by
  refine of_sameExcept (sameExcept_setCar s c v) (fun hc => ?_) nofun rfl
  show (s.cell c).Evolves A c ((s.setCar c v).cell c)
  rw [cell_setCar v hc, if_pos rfl]
  exact ⟨.inr h, .inl rfl⟩

lemma setCdr {c : CellId} {v : Value} (s : Store) (h : A (.setCdr c v)) :
    s.Evolves A (s.setCdr c v) := by
  refine of_sameExcept (sameExcept_setCdr s c v) (fun hc => ?_) nofun rfl
  show (s.cell c).Evolves A c ((s.setCdr c v).cell c)
  rw [cell_setCdr v hc, if_pos rfl]
  exact ⟨.inl rfl, .inr h⟩

lemma define {f : FrameId} {x : Symbol} {v : Value} (s : Store) (h : A (.bind f x v)) :
    s.Evolves A (s.define f x v) := by
  refine of_sameExcept (sameExcept_define s f x v) (fun hf => ?_) nofun rfl
  show (s.frame f).Evolves A f ((s.define f x v).frame f)
  have hget (y : Symbol) : (((s.frame f).bindings.putAll [(x, v)]).get? y) =
      if x = y then some v else (s.frame f).bindings.get? y := Bindings.get?_put x y v _
  rw [Store.define, frame_defineAll [(x, v)] hf, if_pos rfl]
  refine ⟨rfl, fun y hy => ?_, fun y w hw => ?_⟩
  · rw [hget]
    split
    · rfl
    · exact hy
  · rw [hget] at hw
    split at hw
    · rename_i heq
      cases hw
      exact .inr (heq ▸ h)
    · exact .inl hw

/-- Only a closure without name gets one. -/
lemma nameClosure {k : ClosureId} {x : Symbol} (s : Store) (h : A (.name k x)) :
    s.Evolves A (s.nameClosure k x) := by
  have hclosure (hk : s.extent.Has (.closure k)) : (s.nameClosure k x).closure k =
      { s.closure k with name := (s.closure k).name.or (some x) } := by
    have hlt : k < s.closures.size := hk
    simp [Store.nameClosure, Store.closure, Array.getElem_modify, hlt]
  refine of_sameExcept (sameExcept_nameClosure s k x) (fun hk => ?_) (fun j hj hk => ?_) rfl
  · show (s.closure k).Evolves A k ((s.nameClosure k x).closure k)
    rw [hclosure hk]
    refine ⟨rfl, rfl, rfl, fun y hy => ?_, fun y hy => ?_⟩
    · show (s.closure k).name.or (some x) = some y
      rw [hy, Option.some_or]
    · cases hname : (s.closure k).name with
      | some z =>
        rw [hname] at hy
        exact .inl hy
      | none =>
        rw [hname] at hy
        cases hy
        exact .inr h
  · cases hj
    have hextent : (s.nameClosure k x).extent = s.extent := by simp [extent, Store.nameClosure]
    exact name_of_not_has (hextent ▸ hk)

end Evolves

/-! ## Evaluations -/

/-- What is kept by an evaluation that does certain deeds only. -/
def evolution (A : Deed → Prop) : Discipline where
  World := Store
  le := Evolves A
  Holds w s := s = w
  Good _ _ _ := True
  Scope _ _ := True
  Fails _ := True
  Permits := A
  le_refl := .refl
  le_trans := .trans
  good_mono _ _ := trivial
  scope_mono _ _ := trivial
  good_atom _ _ _ := trivial
  good_foreign _ _ _ := trivial
  fails_ordinary _ := trivial
  fails_host _ _ := trivial
  good_refine _ _ := trivial
  good_car _ _ _ := trivial
  good_cdr _ _ _ := trivial
  good_binding _ _ _ := trivial
  scope_outer _ _ _ := trivial
  scope_env _ _ := trivial
  good_body _ _ _ := trivial
  cons := by
    rintro s _ r car cdr rfl _ _
    exact ⟨_, .cons car cdr _, rfl, trivial⟩
  addFrame := by
    rintro s _ f bindings rfl _ _
    exact ⟨_, .addFrame bindings (some f) _, rfl, trivial⟩
  addClosure := by
    rintro s _ closure rfl _ _ _ hname
    exact ⟨_, .addClosure _ hname, rfl, trivial⟩
  addForeign := by
    rintro s _ v rfl
    exact ⟨_, .addForeign v _, rfl⟩
  setCar := by
    rintro s _ c v rfl _ _ h
    exact ⟨_, .setCar _ h, rfl⟩
  setCdr := by
    rintro s _ c v rfl _ _ h
    exact ⟨_, .setCdr _ h, rfl⟩
  define := by
    rintro s _ f x v rfl _ _ h
    exact ⟨_, .define _ h, rfl⟩
  nameClosure := by
    rintro s _ k x rfl _ h
    exact ⟨_, .nameClosure _ h, rfl⟩
  print := by
    rintro s _ channel text rfl
    exact ⟨_, .print channel text _, rfl⟩
  report := by
    rintro s _ event rfl
    exact ⟨_, .report event _, rfl⟩

end Store

/-- An evaluation evolves the store by what its calls do, from its start to its end. -/
lemma evolves_run (mode : Mode) (limit : Nat) (call : Call) :
    call.store.Evolves (Does mode limit call) (Effect.final (call.run (eval mode limit))) := by
  have hmeets : (Store.evolution (Does mode limit call)).Meets call.store call :=
    ⟨rfl, trivial, trivial⟩
  obtain ⟨w, hruns⟩ := Discipline.exists_runsEval hmeets fun _ => id
  have hend : Effect.final (call.run (eval mode limit)) = w := hruns.outcome.holds
  rw [hend]
  exact hruns.le

/-- **Evolution of the store.**  An evaluation evolves the store by what its calls do, whether it
ends in a value or in an error.  So does each of its calls by what the calls inside it do, and what
comes before and after it in the evaluation evolves the store as well. -/
theorem eval_evolves (mode : Mode) (limit : Nat) (expr : Value) (env : FrameId) (s : Store) :
    s.Evolves (Does mode limit ⟨expr, env, s⟩) (Effect.final (eval mode limit expr env s)) ∧
    ∀ limit' call', Reaches mode limit ⟨expr, env, s⟩ limit' call' →
      s.Evolves (Does mode limit ⟨expr, env, s⟩) call'.store ∧
      call'.store.Evolves (Does mode limit' call') (Effect.final (call'.run (eval mode limit'))) ∧
      (Effect.final (call'.run (eval mode limit'))).Evolves (Does mode limit ⟨expr, env, s⟩)
        (Effect.final (eval mode limit expr env s)) := by
  have hmeets : (Store.evolution (Does mode limit ⟨expr, env, s⟩)).Meets s ⟨expr, env, s⟩ :=
    ⟨rfl, trivial, trivial⟩
  obtain ⟨w, hruns⟩ := Discipline.exists_runsEval hmeets fun _ => id
  have hend : Effect.final (eval mode limit expr env s) = w := hruns.outcome.holds
  refine ⟨evolves_run mode limit ⟨expr, env, s⟩, fun limit' call' hreaches => ?_⟩
  obtain ⟨w₁, w₂, hle₁, hmeets', -, hout, hle₂⟩ := hruns.reaches limit' call' hreaches
  have hstart : call'.store = w₁ := hmeets'.holds
  have hfinal : Effect.final (call'.run (eval mode limit')) = w₂ := hout.holds
  refine ⟨hstart ▸ hle₁, evolves_run mode limit' call', ?_⟩
  rw [hfinal, hend]
  exact hle₂

end SmallScheme
