import SmallScheme.Proofs.ByPrintsEval
import SmallScheme.Proofs.NativeStores

/-!
# Only ordinary errors escape

An interpreter that is new with the standard library, and that is given native values only, fails
with ordinary errors only: with a fault that the program has made, with the limit of nesting, or
because a number is too long to be printed (`Interpreter.only_ordinary_errors`).  Neither the rules
nor the native procedures ever ask for something that is not there.
-/

namespace SmallScheme

/-- The host that has nothing to say about missing parts. -/
def Host.plain : Host :=
  .usual fun fault => .host fault ""

namespace Interpreter

variable {i : Interpreter} {channel : Channel} {mode : Mode} {announced : Bool} {limit : Nat}
  {s₀ s t : Store}

/-- Running out of digits is due to a number that is printed where the evaluation ends. -/
lemma exists_printing {text : List Char} (h : i.eval text s = .error .tooManyDigits t) :
    ∃ p : Printing, p.store = t ∧
      Prints (fun h => ByAccess.evalText h i text) .plain s p ∧
      p.run .plain = .error .tooManyDigits t ∧ t.HasLongNumber p.value := by
  have hmissing (fault : HostFault) : Error.host fault "" ≠ .tooManyDigits := nofun
  rw [← ByAccess.evalText_eq fun fault => .host fault ""] at h
  obtain ⟨p, rfl, hprints, hrun⟩ := (ByAccess.byPrints_evalText hmissing i text).blames h
  refine ⟨p, rfl, hprints, hrun, ?_⟩
  rcases Effect.shown_cases p.limit p.value p.store with ⟨text, hok⟩ | ⟨e, he, herror⟩
  · cases hok.symm.trans hrun
  · cases herror.symm.trans hrun
    exact (Store.unprintable_of_render he).hasLongNumber

/-- **Only ordinary errors escape**, in each state of an interpreter with the standard library and
for each text.  An error is a fault of the program or the limit of nesting, or else it arises where
a value with a number of too many digits is printed.  Whatever would be the answer if a part that is
missing were asked for, evaluation does the same: so no part is ever missing, be it the characters
of a token, a token, a member of a list, a part of a pair, a special form or a binding.  A division
by zero becomes a complaint where it arises.  When a native procedure fails, its error has nothing
to do with missing parts either, and it is reported as it is. -/
theorem only_ordinary_errors (hs₀ : s₀.Native)
    (hnew : Interpreter.new (.standard channel) mode announced limit s₀ = .ok i s)
    (ht : i.NativelyReached s t) (text : List Char) :
    (∀ e t', i.eval text t = .error e t' → e.Ordinary ∧
      (e = .tooManyDigits → ∃ p : Printing, p.store = t' ∧
        Prints (fun h => ByAccess.evalText h i text) .plain t p ∧
        p.run .plain = .error .tooManyDigits t' ∧ t'.HasLongNumber p.value)) ∧
    (∀ missing, ByAccess.evalText (.usual missing) i text = i.eval text) ∧
    ∀ (b : Builtin) args u u' e, (Value.builtin b).IsNative → (∀ v ∈ args, v.IsNative) →
      u.Native → b.primitive.run limit args u = .error e u' → b.report e = e := by
  have hnative := native_of_reached (native_of_new (Library.native_standard channel) hs₀ hnew) ht
  refine ⟨fun e t' h => ⟨ordinary_of_eval hnative h, ?_⟩, fun missing => ?_, ?_⟩
  · rintro rfl
    exact exists_printing h
  · exact ByAccess.evalText_eq missing i text
  · exact fun b args u u' e hb hargs hu h => Builtin.report_of_run hb hargs hu h

/-- A number with ten thousand digits is no pair, but it is too long to say so. -/
theorem only_ordinary_errors_car : ∃ text t,
    small.eval text smallStart = .error .tooManyDigits t ∧ ∃ p : Printing, p.store = t ∧
      Prints (fun h => ByAccess.evalText h small text) .plain smallStart p ∧
      p.run .plain = .error .tooManyDigits t ∧ t.HasLongNumber p.value := by
  set text := "(define (f n) (* n n n n n n n n n n)) (car (f (f (f (f 10)))))".toList
  have hlong : Effect.error? (small.eval text smallStart) = some .tooManyDigits := by
    decide +kernel
  have hnew : Interpreter.new (.standard .standard) .plain false 30 .empty = .ok small smallStart :=
    rfl
  obtain ⟨herrors, -⟩ := only_ordinary_errors Store.native_empty hnew .start text
  have hstop := Effect.eq_error_of_error? hlong
  exact ⟨text, _, hstop, (herrors _ _ hstop).2 rfl⟩

end Interpreter

end SmallScheme
