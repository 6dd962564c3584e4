import SmallScheme.Proofs.Deed
import SmallScheme.Proofs.Node
import SmallScheme.Proofs.PrintingError
import SmallScheme.Proofs.Role

/-!
# Disciplines

A discipline says what is kept while programs run.  It has worlds that only grow, an invariant that
relates a world to the store, and for each world the values that may be used in each role and the
frames that may be current.  Its laws are about the single operations on a store: what is found in
a good cell, frame or closure is good again, and when something good is added or written, the
invariant holds again in some later world.  A discipline may forbid deeds (`Discipline.Permits`); it
is kept where only deeds are done that it permits.

`Discipline.Ensures` says of a step that it keeps a discipline: it ends, in a value or an error, in
a later world.  The rules for sequences of steps are here, and so is what follows from the laws for
chains, scopes and new lists.
-/

namespace SmallScheme

/-- What is kept while programs run. -/
structure Discipline where
  /-- What is known of a store. -/
  World : Type
  /-- A later world. -/
  le : World → World → Prop
  /-- The invariant. -/
  Holds : World → Store → Prop
  /-- The values that may be used in a role. -/
  Good : World → Role → Value → Prop
  /-- The frames that may be current. -/
  Scope : World → FrameId → Prop
  /-- The errors that may arise. -/
  Fails : Error → Prop
  /-- The deeds that may be done. -/
  Permits : Deed → Prop
  le_refl : ∀ w, le w w
  le_trans : ∀ {w₁ w₂ w₃}, le w₁ w₂ → le w₂ w₃ → le w₁ w₃
  good_mono : ∀ {w w' r v}, le w w' → Good w r v → Good w' r v
  scope_mono : ∀ {w w' f}, le w w' → Scope w f → Scope w' f
  -- values that need no store
  good_atom : ∀ w r a, Good w r (.atom a)
  good_foreign : ∀ w v id, Good w .data (.foreign v id)
  fails_ordinary : ∀ {e}, e.Ordinary → Fails e
  fails_host : ∀ {w b fault message}, Good w .data (.builtin b) →
    b.primitive = .foreign (.fails fault message) → Fails (.host fault message)
  -- what is found in a store
  good_refine : ∀ {w s r c}, Holds w s → Good w r (.pair c) →
    Good w (r.refine (s.cell c).car) (.pair c)
  good_car : ∀ {w s r c}, Holds w s → Good w r (.pair c) → r ≠ .expr →
    Good w r.first (s.cell c).car
  good_cdr : ∀ {w s r c}, Holds w s → Good w r (.pair c) → r ≠ .expr →
    Good w r.rest (s.cell c).cdr
  good_binding : ∀ {w s f b}, Holds w s → Scope w f → b ∈ (s.frame f).bindings → Good w .data b.2
  scope_outer : ∀ {w s f g}, Holds w s → Scope w f → (s.frame f).outer = some g → Scope w g
  scope_env : ∀ {w s k}, Holds w s → Good w .data (.closure k) → Scope w (s.closure k).env
  good_body : ∀ {w s k form}, Holds w s → Good w .data (.closure k) →
    form ∈ (s.closure k).body → Good w .expr form
  -- what is added to a store
  cons : ∀ {w s r car cdr}, Holds w s → Good w (r.refine car).first car →
    Good w (r.refine car).rest cdr →
    ∃ w', le w w' ∧ Holds w' (s.cons car cdr).2 ∧ Good w' r (s.cons car cdr).1
  addFrame : ∀ {w s f bindings}, Holds w s → Scope w f → (∀ b ∈ bindings, Good w .data b.2) →
    ∃ w', le w w' ∧ Holds w' (s.addFrame bindings (some f)).2 ∧
      Scope w' (s.addFrame bindings (some f)).1
  addClosure : ∀ {w s k}, Holds w s → Scope w k.env → (∀ form ∈ k.body, Good w .expr form) →
    k.body ≠ [] → k.name = none →
    ∃ w', le w w' ∧ Holds w' (s.addClosure k).2 ∧ Good w' .data (s.addClosure k).1
  addForeign : ∀ {w s v}, Holds w s → ∃ w', le w w' ∧ Holds w' (s.addForeign v).2
  -- what is changed in a store
  setCar : ∀ {w s c v}, Holds w s → Good w .data (.pair c) → Good w .data v →
    Permits (.setCar c v) → ∃ w', le w w' ∧ Holds w' (s.setCar c v)
  setCdr : ∀ {w s c v}, Holds w s → Good w .data (.pair c) → Good w .data v →
    Permits (.setCdr c v) → ∃ w', le w w' ∧ Holds w' (s.setCdr c v)
  define : ∀ {w s f x v}, Holds w s → Scope w f → Good w .data v →
    Permits (.bind f x v) → ∃ w', le w w' ∧ Holds w' (s.define f x v)
  nameClosure : ∀ {w s k x}, Holds w s → Good w .data (.closure k) →
    Permits (.name k x) → ∃ w', le w w' ∧ Holds w' (s.nameClosure k x)
  print : ∀ {w s channel text}, Holds w s → ∃ w', le w w' ∧ Holds w' (s.print channel text)
  report : ∀ {w s event}, Holds w s → ∃ w', le w w' ∧ Holds w' (s.report event)

namespace Discipline

variable {D : Discipline} {α β : Type}

/-- A step has ended in a world: the invariant holds, and the value or the error is as it should
be. -/
def Outcome (D : Discipline) (w : D.World) (Q : D.World → α → Prop) :
    EStateM.Result Error Store α → Prop
  | .ok a s => D.Holds w s ∧ Q w a
  | .error e s => D.Holds w s ∧ D.Fails e

/-- From every store of a world, the step ends in a later world. -/
def Ensures (D : Discipline) (w : D.World) (x : Effect α) (Q : D.World → α → Prop) : Prop :=
  ∀ s, D.Holds w s → ∃ w', D.le w w' ∧ D.Outcome w' Q (x s)

/-! ## Rules -/

section Rules

variable {w : D.World} {x : Effect α} {f : α → Effect β} {P : D.World → α → Prop}
  {Q : D.World → β → Prop} {a : α}

lemma ensures_pure (h : P w a) : D.Ensures w (pure a) P := by
  intro s hs
  exact ⟨w, D.le_refl w, hs, h⟩

lemma ensures_throw {e : Error} (h : D.Fails e) : D.Ensures w (throw e : Effect α) P := by
  intro s hs
  exact ⟨w, D.le_refl w, hs, h⟩

lemma Ensures.bind (hx : D.Ensures w x P)
    (hf : ∀ w' a, D.le w w' → P w' a → D.Ensures w' (f a) Q) : D.Ensures w (x >>= f) Q := by
  intro s hs
  obtain ⟨w₁, hle₁, hout₁⟩ := hx s hs
  cases hr : x s with
  | error e s₁ =>
    rw [hr] at hout₁
    refine ⟨w₁, hle₁, ?_⟩
    rw [Effect.bind_error hr]
    exact hout₁
  | ok a s₁ =>
    rw [hr] at hout₁
    obtain ⟨w₂, hle₂, hout₂⟩ := hf w₁ a hle₁ hout₁.2 s₁ hout₁.1
    refine ⟨w₂, D.le_trans hle₁ hle₂, ?_⟩
    rw [Effect.bind_ok hr]
    exact hout₂

/-- The store that a step looks at is one of the present world. -/
lemma ensures_get : D.Ensures w (get : Effect Store) D.Holds := by
  intro s hs
  exact ⟨w, D.le_refl w, hs, hs⟩

lemma ensures_ask {g : Store → Except Error α}
    (hok : ∀ s a, D.Holds w s → g s = .ok a → P w a)
    (herror : ∀ s e, g s = .error e → D.Fails e) : D.Ensures w (Effect.ask g) P := by
  intro s hs
  refine ⟨w, D.le_refl w, ?_⟩
  unfold Effect.ask
  cases hg : g s with
  | error e => exact ⟨hs, herror s e hg⟩
  | ok a => exact ⟨hs, hok s a hs hg⟩

lemma ensures_modifyGet {g : Store → α × Store}
    (h : ∀ s, D.Holds w s → ∃ w', D.le w w' ∧ D.Holds w' (g s).2 ∧ P w' (g s).1) :
    D.Ensures w (modifyGet g : Effect α) P := by
  intro s hs
  obtain ⟨w', hle, hs', hP⟩ := h s hs
  exact ⟨w', hle, hs', hP⟩

lemma ensures_modify {g : Store → Store}
    (h : ∀ s, D.Holds w s → ∃ w', D.le w w' ∧ D.Holds w' (g s)) :
    D.Ensures w (modify g : Effect PUnit) fun _ _ => True := by
  intro s hs
  obtain ⟨w', hle, hs'⟩ := h s hs
  exact ⟨w', hle, hs', trivial⟩

/-- A step for each member of a list. -/
lemma ensures_mapM {g : α → Effect β} {as : List α} (hmono : ∀ {w w' b}, D.le w w' → Q w b → Q w' b)
    (h : ∀ a ∈ as, ∀ w', D.le w w' → D.Ensures w' (g a) Q) :
    D.Ensures w (as.mapM g) fun w' bs => ∀ b ∈ bs, Q w' b := by
  induction as generalizing w with
  | nil => exact ensures_pure (by simp)
  | cons a as ih =>
    rw [List.mapM_cons]
    refine (h a (by simp) w (D.le_refl w)).bind fun w₁ b hle₁ hb => ?_
    have hrest := ih fun a' ha' w' hle => h a' (by simp [ha']) w' (D.le_trans hle₁ hle)
    refine hrest.bind fun w₂ bs hle₂ hbs => ensures_pure fun b' hb' => ?_
    rcases List.mem_cons.mp hb' with rfl | hb'
    · exact hmono hle₂ hb
    · exact hbs b' hb'

end Rules

/-! ## Messages -/

section Messages

variable {w : D.World} {limit : Nat} {v : Value} {P : D.World → α → Prop}

lemma ensures_shown : D.Ensures w (Effect.shown limit v) fun _ _ => True :=
  ensures_ask (fun _ _ _ _ => trivial) fun _ _ h =>
    D.fails_ordinary (Store.ofLimit_of_render h).ordinary

lemma ensures_display :
    D.Ensures w (Effect.ask fun s => s.display limit v) fun _ _ => True :=
  ensures_ask (fun _ _ _ _ => trivial) fun _ _ h =>
    D.fails_ordinary (Store.ofLimit_of_display h).ordinary

lemma ensures_malformed {fault : FormFault} :
    D.Ensures w (Effect.malformed fault : Effect α) P :=
  ensures_throw (D.fails_ordinary trivial)

lemma ensures_malformedBy {fault : String → FormFault} :
    D.Ensures w (Effect.malformedBy limit fault v : Effect α) P :=
  Ensures.bind ensures_shown fun _ _ _ _ => ensures_malformed

end Messages

/-! ## Members of chains -/

/-- The values may be used as the members of a chain with a role. -/
def GoodMembers (D : Discipline) (w : D.World) : Role → List Value → Prop
  | _, [] => True
  | r, v :: vs => D.Good w (r.refine v).first v ∧ D.GoodMembers w (r.refine v).rest vs

section Members

variable {w : D.World} {s : Store} {r : Role} {v last : Value} {vs : List Value}

@[simp] lemma goodMembers_nil : D.GoodMembers w r [] := trivial

lemma goodMembers_listOf : D.GoodMembers w (.listOf r) vs ↔ ∀ v ∈ vs, D.Good w r v := by
  induction vs with
  | nil => simp
  | cons v vs ih =>
    rw [List.forall_mem_cons, ← ih]
    rfl

lemma goodMembers_data : D.GoodMembers w .data vs ↔ ∀ v ∈ vs, D.Good w .data v := by
  induction vs with
  | nil => simp
  | cons v vs ih =>
    rw [List.forall_mem_cons, ← ih]
    rfl

/-- The members of a good chain are good. -/
lemma goodMembers_of_chainWithin? {limit : Nat} (hs : D.Holds w s) (hv : D.Good w r v)
    (h : s.chainWithin? limit v = some (vs, last)) : D.GoodMembers w r vs := by
  induction limit generalizing r v vs with
  | zero =>
    cases v with
    | pair c => simp at h
    | _ =>
      obtain ⟨rfl, -⟩ : [] = vs ∧ _ = last := by simpa [Store.chainWithin?] using h
      trivial
  | succ limit ih =>
    cases v with
    | pair c =>
      rw [Store.chainWithin?_pair_succ] at h
      obtain ⟨⟨ms, last'⟩, hrest, heq⟩ := Option.map_eq_some_iff.mp h
      cases heq
      -- the role of the cell has to be settled before its parts have roles
      have hcell := D.good_refine hs hv
      have hne := r.refine_ne_expr (s.cell c).car
      exact ⟨D.good_car hs hcell hne, ih (D.good_cdr hs hcell hne) hrest⟩
    | _ =>
      obtain ⟨rfl, -⟩ : [] = vs ∧ _ = last := by simpa [Store.chainWithin?] using h
      trivial

lemma goodMembers_of_list? (hs : D.Holds w s) (hv : D.Good w r v) (h : s.list? v = some vs) :
    D.GoodMembers w r vs := by
  unfold Store.list? at h
  split at h
  · rename_i hchain
    cases h
    exact goodMembers_of_chainWithin? hs hv hchain
  · cases h

lemma goodMembers_members (hs : D.Holds w s) (hv : D.Good w r v) :
    D.GoodMembers w r (s.members v) := by
  unfold Store.members
  split
  · rename_i hchain
    exact goodMembers_of_chainWithin? hs hv hchain
  · trivial

/-- A new list of good members is good. -/
lemma exists_list (hs : D.Holds w s) (h : D.GoodMembers w r vs) :
    ∃ w', D.le w w' ∧ D.Holds w' (s.list vs).2 ∧ D.Good w' r (s.list vs).1 := by
  unfold Store.list
  induction vs generalizing r with
  | nil => exact ⟨w, D.le_refl w, hs, D.good_atom w r _⟩
  | cons v vs ih =>
    obtain ⟨w₁, hle₁, hs₁, hrest⟩ := ih h.2
    obtain ⟨w₂, hle₂, hs₂, hlist⟩ := D.cons hs₁ (D.good_mono hle₁ h.1) hrest
    exact ⟨w₂, D.le_trans hle₁ hle₂, hs₂, hlist⟩

end Members

/-! ## Scopes -/

section Scopes

variable {w : D.World} {s : Store} {f g : FrameId} {x : Symbol} {v : Value}

lemma scope_of_mem_scopes (hs : D.Holds w s) (hf : D.Scope w f) (hg : g ∈ s.scopes f) :
    D.Scope w g := by
  induction f using Nat.strong_induction_on with
  | _ f ih =>
    rw [Store.scopes] at hg
    split at hg
    · rw [List.mem_singleton.mp hg]
      exact hf
    · rename_i outer houter
      split at hg
      · rename_i hlt
        rcases List.mem_cons.mp hg with rfl | hg
        · exact hf
        · exact ih outer hlt (D.scope_outer hs hf houter) hg
      · rw [List.mem_singleton.mp hg]
        exact hf

lemma scope_of_find? (hs : D.Holds w s) (hf : D.Scope w f) (h : s.find? f x = some g) :
    D.Scope w g :=
  scope_of_mem_scopes hs hf (List.mem_of_find?_eq_some h)

/-- What is looked up is good. -/
lemma good_of_lookup? (hs : D.Holds w s) (hf : D.Scope w f) (h : s.lookup? f x = some v) :
    D.Good w .data v := by
  obtain ⟨g, hg, hget⟩ := Option.bind_eq_some_iff.mp h
  obtain ⟨b, hb, rfl⟩ := Bindings.mem_of_get? hget
  exact D.good_binding hs (scope_of_find? hs hf hg) hb

lemma exists_assign? {s' : Store} (hs : D.Holds w s) (hf : D.Scope w f) (hv : D.Good w .data v)
    (hdeed : ∀ g, s.find? f x = some g → D.Permits (.bind g x v))
    (h : s.assign? f x v = some s') : ∃ w', D.le w w' ∧ D.Holds w' s' := by
  obtain ⟨g, hg, hset⟩ := Option.bind_eq_some_iff.mp h
  cases hset
  exact D.define hs (scope_of_find? hs hf hg) hv (hdeed g hg)

end Scopes

end Discipline

end SmallScheme
