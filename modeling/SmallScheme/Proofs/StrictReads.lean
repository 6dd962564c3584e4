import SmallScheme.Proofs.AbridgedEval
import SmallScheme.Proofs.Session

/-!
# Strict reads

Where reads are strict, it is an error to read a name that is not bound; otherwise its value is the
empty list.  This is all that strictness changes: an evaluation that ends without such an error ends
in the same way if reads are lenient, and if it ends with such an error, then whatever it has printed
is printed by the lenient one first.

Limits do not count here, so an evaluation ends (`Ends`) if it does so with some limit.  With larger
limits it ends in the same way (`eval_mono`).
-/

namespace SmallScheme

variable {mode : Mode} {limit limit' : Nat} {expr : Value} {env : FrameId} {s t : Store}
  {r r' : EStateM.Result Error Store Value}

/-! ## Limits -/

/-- A run with a smaller limit and one with a larger limit. -/
def RunPair.ofLimits (mode : Mode) : RunPair where
  mode := mode
  mode' := mode
  forget := id
  Stops e := e = .tooDeep
  stops_ordinary := Error.ordinary_of_eq_tooDeep
  strict := .inl rfl
  traced := .inl ⟨rfl, fun _ _ => rfl⟩

/-- If no event is forgotten, the second run has the same result. -/
lemma RunPair.viewResult_eq {α : Type} {P : RunPair} {r : EStateM.Result Error Store α}
    (hforget : P.forget = id) : P.viewResult r = r := by
  have hview (s : Store) : P.view s = s := by
    rw [view, hforget]
    rfl
  cases r with
  | ok v s => rw [viewResult, hview]
  | error e s => rw [viewResult, hview]

/-- **A larger limit changes nothing** for an evaluation that has not been nested too deeply. -/
theorem eval_mono (hle : limit ≤ limit') (hr : ∀ t, r ≠ .error .tooDeep t)
    (h : eval mode limit expr env s = r) : eval mode limit' expr env s = r := by
  have hlimits : Limits (RunPair.ofLimits mode).Stops limit limit' := .inr ⟨hle, rfl⟩
  rcases (RunPair.abridges_eval hlimits expr env).run s with heq | ⟨e, t, hstop, he, -⟩
  · have hsame : eval mode limit' expr env s = (RunPair.ofLimits mode).viewResult r := h ▸ heq
    rwa [RunPair.viewResult_eq rfl] at hsame
  · have hdeep : e = .tooDeep := he
    subst hdeep
    exact absurd (h.symm.trans hstop) (hr t)

/-- The evaluation ends in this way, unless the limit is too small. -/
def Ends (mode : Mode) (expr : Value) (env : FrameId) (s : Store)
    (r : EStateM.Result Error Store Value) : Prop :=
  (∀ t, r ≠ .error .tooDeep t) ∧ ∃ limit, eval mode limit expr env s = r

/-- Some limit is large enough for two evaluations. -/
lemma Ends.exists_limit {mode' : Mode} {expr' : Value} {env' : FrameId} {s' : Store}
    (h : Ends mode expr env s r) (h' : Ends mode' expr' env' s' r') :
    ∃ limit, eval mode limit expr env s = r ∧ eval mode' limit expr' env' s' = r' := by
  obtain ⟨hr, limit, hlimit⟩ := h
  obtain ⟨hr', limit', hlimit'⟩ := h'
  exact ⟨max limit limit', eval_mono (le_max_left _ _) hr hlimit,
    eval_mono (le_max_right _ _) hr' hlimit'⟩

/-- An evaluation ends in one way only. -/
theorem Ends.unique (h : Ends mode expr env s r) (h' : Ends mode expr env s r') : r = r' := by
  obtain ⟨limit, hr, hr'⟩ := h.exists_limit h'
  exact hr.symm.trans hr'

/-! ## Strictness -/

/-- A run with strict reads and one with lenient reads. -/
def RunPair.ofStrictness (traced : Bool) : RunPair where
  mode := ⟨true, traced⟩
  mode' := ⟨false, traced⟩
  forget := id
  Stops e := ∃ x, e = .unbound x
  stops_ordinary := by
    rintro _ ⟨x, rfl⟩
    trivial
  strict := .inr ⟨rfl, fun x => ⟨x, rfl⟩⟩
  traced := .inl ⟨rfl, fun _ _ => rfl⟩

/-- With the same limit, lenient reads change nothing unless an unbound name is read. -/
lemma eval_lenient (traced : Bool) (limit : Nat) (expr : Value) (env : FrameId) (s : Store) :
    eval ⟨false, traced⟩ limit expr env s = eval ⟨true, traced⟩ limit expr env s ∨
      ∃ x t, eval ⟨true, traced⟩ limit expr env s = .error (.unbound x) t ∧
        t.Precedes (Effect.final (eval ⟨false, traced⟩ limit expr env s)) := by
  have hrun := (RunPair.abridges_eval (P := RunPair.ofStrictness traced) (.refl limit) expr env).run s
  rcases hrun with heq | ⟨e, t, hstop, ⟨x, rfl⟩, hle⟩
  · rw [RunPair.viewResult_eq rfl] at heq
    exact .inl heq
  · exact .inr ⟨x, t, hstop, hle⟩

/-- **Strict reads only turn reads of unbound names into errors.**  An evaluation with strict reads
that ends in a value or in another error ends in the same way with lenient reads.  If it ends because
a name is unbound, whatever it has printed is a prefix of what is printed with lenient reads. -/
theorem ends_strict (traced : Bool) (expr : Value) (env : FrameId) (s : Store) :
    (∀ r, Ends ⟨true, traced⟩ expr env s r → (∀ x t, r ≠ .error (.unbound x) t) →
      Ends ⟨false, traced⟩ expr env s r) ∧
    ∀ x t r, Ends ⟨true, traced⟩ expr env s (.error (.unbound x) t) →
      Ends ⟨false, traced⟩ expr env s r → t.Precedes (Effect.final r) := by
  constructor
  · rintro r ⟨hr, limit, hlimit⟩ hbound
    refine ⟨hr, limit, ?_⟩
    rcases eval_lenient traced limit expr env s with heq | ⟨x, t, hstop, -⟩
    · exact heq.trans hlimit
    · exact absurd (hlimit.symm.trans hstop) (hbound x t)
  · intro x t r hstrict hlenient
    obtain ⟨limit, hstop, hr⟩ := hstrict.exists_limit hlenient
    rcases eval_lenient traced limit expr env s with heq | ⟨x', t', hstop', hle⟩
    · -- the lenient run fails as well, as it does where the name is assigned
      rw [← hr, heq, hstop]
      exact .refl t
    · cases hstop.symm.trans hstop'
      exact hr ▸ hle

/-- The expression `(begin (write 1) y (write 2))`. -/
def readingUnbound : Datum :=
  .ofList [.symbol ⟨"begin"⟩, .ofList [.symbol ⟨"write"⟩, .atom (.number 1)] .nil,
    .symbol ⟨"y"⟩, .ofList [.symbol ⟨"write"⟩, .atom (.number 2)] .nil] .nil

/-- The error in which a step has ended, if it has. -/
def Effect.error? : EStateM.Result Error Store Value → Option Error
  | .ok _ _ => none
  | .error e _ => some e

lemma Effect.eq_error_of_error? {e : Error} (h : error? r = some e) : r = .error e (final r) := by
  cases r with
  | ok v s => cases h
  | error e' s =>
    cases h
    rfl

/-- With strict reads nothing is printed after the unbound name, with lenient reads all is. -/
theorem ends_strict_readingUnbound : ∃ expr s t r,
    Ends ⟨true, false⟩ expr 0 s (.error (.unbound "y") t) ∧ Ends ⟨false, false⟩ expr 0 s r ∧
    t.output .standard = "1\n" ∧ (Effect.final r).output .standard = "1\n2\n" ∧
    t.Precedes (Effect.final r) := by
  set expr := (Interpreter.smallStart.load readingUnbound).1
  set s := (Interpreter.smallStart.load readingUnbound).2
  have herror : Effect.error? (eval ⟨true, false⟩ 10 expr 0 s) = some (.unbound "y") := by
    decide +kernel
  have hok : Effect.error? (eval ⟨false, false⟩ 10 expr 0 s) = none := by decide +kernel
  have hstrict : Ends ⟨true, false⟩ expr 0 s
      (.error (.unbound "y") (Effect.final (eval ⟨true, false⟩ 10 expr 0 s))) :=
    ⟨nofun, 10, Effect.eq_error_of_error? herror⟩
  have hlenient : Ends ⟨false, false⟩ expr 0 s (eval ⟨false, false⟩ 10 expr 0 s) := by
    refine ⟨fun t ht => ?_, 10, rfl⟩
    rw [ht] at hok
    cases hok
  exact ⟨expr, s, _, _, hstrict, hlenient, by decide +kernel, by decide +kernel,
    (ends_strict false expr 0 s).2 _ _ _ hstrict hlenient⟩

end SmallScheme
