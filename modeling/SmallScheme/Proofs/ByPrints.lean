import SmallScheme.Proofs.Access
import SmallScheme.Proofs.PrintingError

/-!
# Only printing runs out of digits

A number that is too long to be written stops a program only where it is printed.  To say which
printing it is, a host is made to fail at one printing (`Host.stopAt`): a step prints a value in a
store if it then stops there (`Prints`).  A step that is written for any host runs out of digits
by printing (`ByPrints`) if that is only because of a value that it prints, in the store in which it
ends.  This is kept by sequences of steps, choices between them, and reporting errors anew.
-/

namespace SmallScheme

/-- A value that is printed: the value, how deeply it may nest, and the present store. -/
structure Printing where
  /-- How deeply the value may nest. -/
  limit : Nat
  /-- The value. -/
  value : Value
  /-- The store. -/
  store : Store
  deriving DecidableEq

/-- What a host does with a printing. -/
def Printing.run (p : Printing) (h : Host) : EStateM.Result Error Store String :=
  h.print p.limit p.value p.store

/-- The host that fails at one printing, and otherwise does the same. -/
def Host.stopAt (p : Printing) (e : Error) (h : Host) : Host where
  missing := h.missing
  print limit v := fun s => if ⟨limit, v, s⟩ = p then .error e s else h.print limit v s

/-- From the given store, the step comes to the printing: it stops there if printing fails there,
whatever ordinary error that is. -/
def Prints {α : Type} (x : Host → Effect α) (h : Host) (s : Store) (p : Printing) : Prop :=
  ∀ e, e.Ordinary → x (h.stopAt p e) s = .error e p.store

/-- The step does not run out of digits. -/
def Quiet {α : Type} (x : Effect α) : Prop :=
  ∀ s t, x s ≠ .error .tooManyDigits t

/-- The step gets over no printing that fails, and it runs out of digits only where it prints. -/
structure ByPrints {α : Type} (missing : HostFault → Error) (x : Host → Effect α) : Prop where
  survives : ∀ {s t : Store} {a : α} {p : Printing} {e e' : Error},
    p.run (.usual missing) = .error e' p.store → x (.usual missing) s = .ok a t →
    x ((Host.usual missing).stopAt p e) s = .ok a t
  blames : ∀ {s t : Store}, x (.usual missing) s = .error .tooManyDigits t →
    ∃ p, p.store = t ∧ Prints x (.usual missing) s p ∧
      p.run (.usual missing) = .error .tooManyDigits t

/-! ## Steps without printing -/

section Quiet

variable {α β : Type}

lemma quiet_pure (a : α) : Quiet (pure a) := nofun

lemma quiet_throw {e : Error} (he : e ≠ .tooManyDigits) : Quiet (throw e : Effect α) := by
  rintro s t h
  cases h
  exact he rfl

lemma quiet_get : Quiet (get : Effect Store) := nofun

lemma quiet_modifyGet (f : Store → α × Store) : Quiet (modifyGet f : Effect α) := by
  intro s t h
  cases h

lemma quiet_modify (f : Store → Store) : Quiet (modify f : Effect PUnit) :=
  quiet_modifyGet _

lemma Quiet.bind {x : Effect α} {f : α → Effect β} (hx : Quiet x) (hf : ∀ a, Quiet (f a)) :
    Quiet (x >>= f) := by
  intro s t h
  cases hr : x s with
  | ok a s' => exact hf a s' t ((Effect.bind_ok hr).symm.trans h)
  | error e s' =>
    cases (Effect.bind_error hr).symm.trans h
    exact hx s t hr

end Quiet

/-! ## Sequences of steps -/

section Rules

variable {missing : HostFault → Error} {α β : Type} {x : Host → Effect α}
  {f : α → Host → Effect β}

/-- A step that uses the host for missing parts only. -/
lemma byPrints_access {x : (HostFault → Error) → Effect α} (hx : Quiet (x missing)) :
    ByPrints missing fun h => x h.missing where
  survives _ h := h
  blames h := absurd h (hx _ _)

/-- A step that does not use the host. -/
lemma byPrints_const {x : Effect α} (hx : Quiet x) : ByPrints missing fun _ => x :=
  byPrints_access (x := fun _ => x) hx

lemma byPrints_print (limit : Nat) (v : Value) : ByPrints missing fun h => h.print limit v where
  survives {s t a p e e'} hp h := by
    have hne : (⟨limit, v, s⟩ : Printing) ≠ p := by
      rintro rfl
      cases h.symm.trans hp
    exact (if_neg hne).trans h
  blames {s t} h := by
    have hst : s = t := by
      rcases Effect.shown_cases limit v s with ⟨text, hok⟩ | ⟨e, -, herror⟩
      · cases hok.symm.trans h
      · cases herror.symm.trans h
        rfl
    subst hst
    exact ⟨⟨limit, v, s⟩, rfl, fun e _ => if_pos rfl, h⟩

lemma byPrints_pure (a : α) : ByPrints missing fun _ => (pure a : Effect α) :=
  byPrints_const (quiet_pure a)

lemma byPrints_throw {e : Error} (he : e ≠ .tooManyDigits) :
    ByPrints missing fun _ => (throw e : Effect α) :=
  byPrints_const (quiet_throw he)

lemma byPrints_get : ByPrints missing fun _ => (get : Effect Store) :=
  byPrints_const quiet_get

lemma byPrints_modifyGet (f : Store → α × Store) :
    ByPrints missing fun _ => (modifyGet f : Effect α) :=
  byPrints_const (quiet_modifyGet f)

lemma byPrints_modify (f : Store → Store) : ByPrints missing fun _ => (modify f : Effect PUnit) :=
  byPrints_const (quiet_modify f)

lemma ByPrints.bind (hx : ByPrints missing x) (hf : ∀ a, ByPrints missing (f a)) :
    ByPrints missing fun h => x h >>= fun a => f a h where
  survives {s t b p e e'} hp h := by
    cases hr : x (.usual missing) s with
    | error e'' s' => cases (Effect.bind_error hr).symm.trans h
    | ok a s' =>
      have hf' := (hf a).survives (e := e) hp ((Effect.bind_ok hr).symm.trans h)
      exact (Effect.bind_ok (hx.survives hp hr)).trans hf'
  blames {s t} h := by
    cases hr : x (.usual missing) s with
    | error e s' =>
      cases (Effect.bind_error hr).symm.trans h
      obtain ⟨p, hp, hprints, hrun⟩ := hx.blames hr
      exact ⟨p, hp, fun e he => Effect.bind_error (hprints e he), hrun⟩
    | ok a s' =>
      obtain ⟨p, rfl, hprints, hrun⟩ := (hf a).blames ((Effect.bind_ok hr).symm.trans h)
      refine ⟨p, rfl, fun e he => ?_, hrun⟩
      exact (Effect.bind_ok (hx.survives hrun hr)).trans (hprints e he)

lemma ByPrints.discard (hx : ByPrints missing x) : ByPrints missing fun h => discard (x h) :=
  hx.bind fun _ => byPrints_pure _

lemma ByPrints.ite {y : Host → Effect α} {p : Prop} [Decidable p] (hx : ByPrints missing x)
    (hy : ByPrints missing y) : ByPrints missing fun h => if p then x h else y h := by
  by_cases hp : p
  · simpa only [if_pos hp] using hx
  · simpa only [if_neg hp] using hy

/-- Something is done first, or not. -/
lemma ByPrints.check {y : Host → Effect β} {p : Prop} [Decidable p] (hx : ByPrints missing x)
    (hy : ByPrints missing y) :
    ByPrints missing fun h => if p then (x h >>= fun _ => y h) else y h :=
  .ite (hx.bind fun _ => hy) hy

/-- Errors are reported anew, but ordinary errors stay what they are. -/
lemma ByPrints.tryCatch {g : Error → Error} (hx : ByPrints missing x)
    (hordinary : ∀ e, e.Ordinary → g e = e)
    (hdigits : ∀ e, g e = .tooManyDigits → e = .tooManyDigits) :
    ByPrints missing fun h => tryCatch (x h) fun e => throw (g e) where
  survives {s t a p e e'} hp h := by
    cases hr : x (.usual missing) s with
    | error e'' s' => cases (Effect.tryCatch_error hr).symm.trans h
    | ok a' s' =>
      cases (Effect.tryCatch_ok hr).symm.trans h
      exact Effect.tryCatch_ok (hx.survives hp hr)
  blames {s t} h := by
    cases hr : x (.usual missing) s with
    | ok a s' => cases (Effect.tryCatch_ok hr).symm.trans h
    | error e s' =>
      have hg := (Effect.tryCatch_error hr).symm.trans h
      rw [EStateM.Result.error.injEq] at hg
      obtain ⟨he, rfl⟩ := hg
      rw [hdigits e he] at hr
      obtain ⟨p, hp, hprints, hrun⟩ := hx.blames hr
      refine ⟨p, hp, fun e he => ?_, hrun⟩
      exact (Effect.tryCatch_error (hprints e he)).trans (by rw [hordinary e he])

lemma byPrints_mapM {g : Host → α → Effect β} (as : List α)
    (hg : ∀ a, ByPrints missing fun h => g h a) : ByPrints missing fun h => as.mapM (g h) := by
  induction as with
  | nil => exact byPrints_pure _
  | cons a as ih =>
    simp only [List.mapM_cons]
    exact (hg a).bind fun b => ih.bind fun bs => byPrints_pure _

lemma byPrints_forM {g : Host → α → Effect PUnit} (as : List α)
    (hg : ∀ a, ByPrints missing fun h => g h a) : ByPrints missing fun h => forM as (g h) := by
  induction as with
  | nil => exact byPrints_pure _
  | cons a as ih =>
    simp only [List.forM_cons]
    exact (hg a).bind fun _ => ih

end Rules

end SmallScheme
