import SmallScheme.Proofs.StrictReads

/-!
# Larger limits

How deeply lists, evaluation and printing may nest is bounded by one limit.  A text that is read and
evaluated with a larger limit gives the same value or error, the same output and the same store,
unless something has been nested too deeply with the smaller one.  In that case nothing is done any
more, and whatever has been printed until then is printed first with the larger limit as well.

The main result is `Interpreter.eval_larger_limit`.
-/

namespace SmallScheme

/-! ## Reading -/

section Reading

variable {Stops : Error → Prop} {limit limit' : Nat}

namespace Reading

lemma push_shortens (hlimits : Limits Stops limit limit') (inner : Opened) (r : Reading) :
    Shortens Stops (r.push limit inner) (r.push limit' inner) := by
  rcases hlimits with rfl | ⟨hle, hstops⟩
  · exact .refl _
  · unfold push
    split
    · rename_i hlt
      rw [if_pos (hlt.trans_le hle)]
      exact .refl _
    · exact .inr ⟨_, hstops, rfl⟩

lemma next_shortens (hlimits : Limits Stops limit limit') (text : List Char) (r : Reading)
    (token : Token) : Shortens Stops (next limit text r token) (next limit' text r token) := by
  unfold next
  split
  · exact push_shortens hlimits _ r
  · exact push_shortens hlimits _ r
  · exact .refl _
  · exact .refl _

lemma foldlM_next_shortens (hlimits : Limits Stops limit limit') (text : List Char) (r : Reading)
    (tokens : List Token) :
    Shortens Stops (tokens.foldlM (next limit text) r) (tokens.foldlM (next limit' text) r) := by
  induction tokens generalizing r with
  | nil => exact .refl _
  | cons token tokens ih => exact (next_shortens hlimits text r token).bind ih

end Reading

/-- **Reading with a larger limit gives the same**, unless too many lists and quote marks are open
at once for the smaller one. -/
lemma read_shortens (hlimits : Limits Stops limit limit') (text : List Char) :
    Shortens Stops (read limit text) (read limit' text) :=
  (Reading.foldlM_next_shortens hlimits text .empty _).bind fun _ => .refl _

lemma read_mono (hle : limit ≤ limit') {text : List Char}
    (hdeep : read limit text ≠ .error .tooDeep) : read limit' text = read limit text := by
  have hlimits : Limits (· = .tooDeep) limit limit' := .inr ⟨hle, rfl⟩
  rcases read_shortens hlimits text with heq | ⟨_, rfl, herror⟩
  · exact heq
  · exact absurd herror hdeep

lemma read_ok_of_le (hle : limit ≤ limit') {text : List Char} {ds : List Datum}
    (h : read limit text = .ok ds) : read limit' text = .ok ds := by
  have hdeep : read limit text ≠ .error .tooDeep := by
    rw [h]
    exact nofun
  rw [read_mono hle hdeep, h]

end Reading

/-! ## Storing data -/

namespace RunPair

variable {P : RunPair}

lemma view_load (d : Datum) (s : Store) :
    (P.view s).load d = ((s.load d).1, P.view (s.load d).2) := by
  induction d generalizing s with
  | atom a => rfl
  | cons car cdr ihcar ihcdr =>
    simp only [Store.load, ihcar, ihcdr]
    rfl

lemma printed_load (d : Datum) (s : Store) : (s.load d).2.printed = s.printed := by
  induction d generalizing s with
  | atom a => rfl
  | cons car cdr ihcar ihcdr => exact (ihcdr _).trans (ihcar s)

lemma view_loadAll (ds : List Datum) (s : Store) :
    (P.view s).loadAll ds = ((s.loadAll ds).1, P.view (s.loadAll ds).2) := by
  induction ds generalizing s with
  | nil => rfl
  | cons d ds ih => simp only [Store.loadAll, view_load, ih]

lemma printed_loadAll (ds : List Datum) (s : Store) : (s.loadAll ds).2.printed = s.printed := by
  induction ds generalizing s with
  | nil => rfl
  | cons d ds ih => exact (ih _).trans (printed_load d s)

end RunPair

/-! ## Texts -/

namespace Interpreter

variable {i : Interpreter} {limit : Nat}

lemma abridges_interpret (hlimits : Limits (RunPair.ofLimits i.mode).Stops i.limit limit)
    (expr : Value) :
    (RunPair.ofLimits i.mode).Abridges (i.interpret expr)
      ({ i with limit := limit }.interpret expr) := by
  have heval := RunPair.abridges_eval hlimits expr i.globals
  unfold interpret
  split
  · refine (RunPair.abridges_shown hlimits expr).bind fun form => ?_
    exact (RunPair.abridges_report (fun _ _ => rfl) _).bind fun _ => heval
  · exact heval

lemma abridges_interpretAll (hlimits : Limits (RunPair.ofLimits i.mode).Stops i.limit limit)
    (exprs : List Value) :
    (RunPair.ofLimits i.mode).Abridges (i.interpretAll exprs)
      ({ i with limit := limit }.interpretAll exprs) := by
  induction exprs with
  | nil => exact RunPair.abridges_pure _
  | cons expr exprs ih =>
    have hfirst := abridges_interpret hlimits expr
    cases exprs with
    | nil => exact hfirst
    | cons expr' exprs => exact hfirst.discard.bind fun _ => ih

lemma abridges_parse (hlimits : Limits (RunPair.ofLimits i.mode).Stops i.limit limit)
    (text : List Char) :
    (RunPair.ofLimits i.mode).Abridges (i.parse text) ({ i with limit := limit }.parse text) := by
  refine (RunPair.abridges_ask fun _ _ _ => read_shortens hlimits text).bind fun data => ?_
  exact RunPair.abridges_modifyGet (RunPair.view_loadAll data) fun s =>
    Store.precedes_of_printed_eq (RunPair.printed_loadAll data s)

lemma abridges_eval (hlimits : Limits (RunPair.ofLimits i.mode).Stops i.limit limit)
    (text : List Char) :
    (RunPair.ofLimits i.mode).Abridges (i.eval text) ({ i with limit := limit }.eval text) :=
  (abridges_parse hlimits text).bind fun exprs => abridges_interpretAll hlimits exprs

/-- **A limit only ever shows as the error of nesting too deeply.**  A text that ends in a value or
in another error ends in the same way with a larger limit, with the same output and in the same
store.  If it is nested too deeply, whatever it has printed until then is a prefix of what is
printed with the larger limit. -/
theorem eval_larger_limit (i : Interpreter) (hle : i.limit ≤ limit) (text : List Char) (s : Store) :
    ((∀ t, i.eval text s ≠ .error .tooDeep t) →
      { i with limit := limit }.eval text s = i.eval text s) ∧
    ∀ t, i.eval text s = .error .tooDeep t →
      t.Precedes (Effect.final ({ i with limit := limit }.eval text s)) := by
  have hlimits : Limits (RunPair.ofLimits i.mode).Stops i.limit limit := .inr ⟨hle, rfl⟩
  rcases (abridges_eval hlimits text).run s with heq | ⟨e, t, hstop, he, hprecedes⟩
  · have hsame : { i with limit := limit }.eval text s = i.eval text s :=
      heq.trans (RunPair.viewResult_eq rfl)
    refine ⟨fun _ => hsame, fun t hdeep => ?_⟩
    rw [hsame, hdeep]
    exact .refl t
  · have hdeep : e = .tooDeep := he
    subst hdeep
    refine ⟨fun hr => absurd hstop (hr t), fun t' hdeep => ?_⟩
    cases hstop.symm.trans hdeep
    exact hprecedes

/-- The text `(write 1) (write (car (cons 2 3)))`. -/
def nestingText : List Char :=
  "(write 1) (write (car (cons 2 3)))".toList

/-- With the limit 3 only the first number is printed, with the limit 4 both are, and with the limit
30 nothing else happens. -/
theorem eval_larger_limit_nesting : ∃ t,
    { small with limit := 3 }.eval nestingText smallStart = .error .tooDeep t ∧
    t.output .standard = "1\n" ∧
    t.Precedes (Effect.final ({ small with limit := 4 }.eval nestingText smallStart)) ∧
    (Effect.final ({ small with limit := 4 }.eval nestingText smallStart)).output .standard =
      "1\n2\n" ∧
    small.eval nestingText smallStart =
      { small with limit := 4 }.eval nestingText smallStart := by
  have hdeep : Effect.error? ({ small with limit := 3 }.eval nestingText smallStart) =
      some .tooDeep := by decide +kernel
  have hok : Effect.error? ({ small with limit := 4 }.eval nestingText smallStart) = none := by
    decide +kernel
  have hstop := Effect.eq_error_of_error? hdeep
  have hfour : { small with limit := 3 }.limit ≤ 4 := by decide
  have hthirty : { small with limit := 4 }.limit ≤ 30 := by decide
  have hprecedes := (eval_larger_limit _ hfour nestingText smallStart).2 _ hstop
  have hsame := (eval_larger_limit _ hthirty nestingText smallStart).1 fun t ht => by
    rw [ht] at hok
    cases hok
  exact ⟨_, hstop, by decide +kernel, hprecedes, by decide +kernel, hsame⟩

end Interpreter

end SmallScheme
