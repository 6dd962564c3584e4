import Mathlib.Data.Nat.Factorial.Basic
import Mathlib.Data.Nat.Fib.Basic
import SmallScheme.Proofs.GrowingStores
import SmallScheme.Proofs.LargerLimits
import SmallScheme.Proofs.NumberProcedures
import SmallScheme.Proofs.RoundTrip

/-!
# Recursion

Two programs that define procedures of one number by recursion.  A procedure finds itself in the global
frame, and each of its calls gets a frame of its own there (`InCall`), so the store grows by these
frames.  What the body evaluates to in the frame of a call is shown by induction on the number
(`evaluates_factorialBody`, `evaluates_fibonacciBody`).  Each recursive call needs a bounded number of
levels more, so the depth is linear in the number.

The main result is `computes_factorial_fib`.
-/

namespace SmallScheme

namespace Recursion

/-! ## The programs -/

/-- The number that a procedure is called with. -/
def n : Symbol := ⟨"n"⟩

/-- The name of the procedure for factorials. -/
def fact : Symbol := ⟨"fact"⟩

/-- The name of the procedure for Fibonacci numbers. -/
def fib : Symbol := ⟨"fib"⟩

/-- The application of a name to some expressions. -/
def application (x : Symbol) (operands : List Datum) : Datum :=
  .ofList (.symbol x :: operands) .nil

/-- The application of an operation to two expressions. -/
def arithmetic (operation : Arithmetic) (first second : Datum) : Datum :=
  application ⟨operation.name⟩ [first, second]

/-- The comparison of `n` with a number. -/
def compared (relation : Comparison) (m : Int) : Datum :=
  application ⟨relation.name⟩ [.symbol n, .atom (.number m)]

/-- The application of a procedure to a number that is smaller than `n`. -/
def recursive (x : Symbol) (less : Int) : Datum :=
  application x [arithmetic .sub (.symbol n) (.atom (.number less))]

/-- The expression `(if (= n 0) 1 (* n (fact (- n 1))))`. -/
def factorialBody : Datum :=
  .ofList [.symbol ⟨"if"⟩, compared .equal 0, .atom (.number 1),
    arithmetic .mul (.symbol n) (recursive fact 1)] .nil

/-- The expression `(cond ((< n 2) n) (else (+ (fib (- n 1)) (fib (- n 2)))))`. -/
def fibonacciBody : Datum :=
  .ofList [.symbol ⟨"cond"⟩, .ofList [compared .less 2, .symbol n] .nil,
    .ofList [.symbol ⟨"else"⟩,
      arithmetic .add (recursive fib 1) (recursive fib 2)] .nil] .nil

/-- The names that stand for something else in the bodies. -/
def used : List Symbol :=
  n :: [Arithmetic.add, .sub, .mul, .quotient, .modulo].map (⟨·.name⟩) ++
    [Comparison.equal, .atLeast, .atMost, .greater, .less].map (⟨·.name⟩)

lemma arithmetic_mem_used (operation : Arithmetic) : ⟨operation.name⟩ ∈ used := by
  cases operation <;> decide

lemma comparison_mem_used (relation : Comparison) : ⟨relation.name⟩ ∈ used := by
  cases relation <;> decide

lemma nameable_fact : fact.Nameable used where
  readable := by decide +kernel
  keyword := by decide
  not_mem := by decide

lemma nameable_fib : fib.Nameable used where
  readable := by decide +kernel
  keyword := by decide
  not_mem := by decide

/-! ## Stores with the procedures -/

section Stores

variable {mode : Mode} {s t : Store} {f g : FrameId} {x : Symbol} {body d d' : Datum}
  {depth m : Nat} {a b : Int} {v : Value}

/-- In the frame `g` the operations and relations have their names. -/
structure Natives (g : FrameId) (s : Store) : Prop where
  lt : g < s.frames.size
  arithmetic : ∀ operation : Arithmetic, ∃ installation,
    (s.frame g).bindings.get? ⟨operation.name⟩ =
      some (.builtin (operation.procedure installation))
  comparison : ∀ relation : Comparison, ∃ installation,
    (s.frame g).bindings.get? ⟨relation.name⟩ =
      some (.builtin (relation.procedure installation))

/-- In the frame `g` the name is defined as the procedure with the given body. -/
def Defines (g : FrameId) (x : Symbol) (body : Datum) (s : Store) : Prop :=
  ∃ k e, (s.frame g).bindings.get? x = some (.closure k) ∧ s.HasClosure k [n] [e] g ∧
    s.Unfolds e body

/-- The frame `f` is the one of a call with the number `m`, inside the frame `g`. -/
structure InCall (g f : FrameId) (m : Nat) (s : Store) : Prop where
  inner : g < f
  lt : f < s.frames.size
  frame_eq : s.frame f = ⟨[(n, .number m)], some g⟩

lemma Natives.mono (h : Natives g s) (hgrows : s.Grows t) : Natives g t := by
  have hg : t.frame g = s.frame g := hgrows.frame_eq g h.lt id
  exact ⟨h.lt.trans_le hgrows.frames_le, hg ▸ h.arithmetic, hg ▸ h.comparison⟩

lemma Defines.mono (h : Defines g x body s) (hg : g < s.frames.size) (hgrows : s.Grows t) :
    Defines g x body t := by
  obtain ⟨k, e, hbound, hk, he⟩ := h
  exact ⟨k, e, (hgrows.frame_eq g hg id) ▸ hbound, hgrows.closure hk, he.mono hgrows.cells⟩

namespace InCall

lemma lookup?_n (h : InCall g f m s) : s.lookup? f n = some (.number m) :=
  Store.lookup?_self (by rw [h.frame_eq]; rfl)

/-- Other names are found in the frame `g`. -/
lemma lookup?_of_ne (h : InCall g f m s) (hx : n ≠ x)
    (hbound : (s.frame g).bindings.get? x = some v) : s.lookup? f x = some v := by
  have hnone : (s.frame f).bindings.get? x = none := by
    rw [h.frame_eq]
    exact if_neg hx
  rw [Store.lookup?_of_find? ((Store.find?_outer (congrArg Frame.outer h.frame_eq) h.inner
    hnone).trans (Store.find?_self hbound)), hbound]

end InCall

/-! ## Values in a call -/

lemma evaluates_n (huntraced : mode.traced = false) (h : InCall g f m s) :
    Evaluates mode s f (.symbol n) 1 (.number m) :=
  .symbol huntraced h.lt h.lookup?_n

lemma evaluates_arithmetic (huntraced : mode.traced = false) (hg : Natives g s)
    (h : InCall g f m s) (operation : Arithmetic) (hdivides : ¬operation.Divides)
    (hd : Evaluates mode s f d (depth + 1) (.number a))
    (hd' : Evaluates mode s f d' (depth + 1) (.number b)) :
    Evaluates mode s f (arithmetic operation d d') (depth + 2)
      (.number (operation.exact a b)) := by
  obtain ⟨installation, hbound⟩ := hg.arithmetic operation
  have hname : n ≠ ⟨operation.name⟩ := by cases operation <;> decide
  have hkeyword : Eval.keyword? (.symbol ⟨operation.name⟩) = none := by
    cases operation <;> decide
  have hargs : List.Forall₂ (Evaluates mode s f · (depth + 1) ·) [d, d']
      ([a, b].map .number) := .cons hd (.cons hd' .nil)
  refine .native huntraced h.lt hkeyword (h.lookup?_of_ne hname hbound) hargs fun limit t => ?_
  exact Arithmetic.apply_numbers (absurd · hdivides) installation limit a t

lemma evaluates_compared (huntraced : mode.traced = false) (hg : Natives g s)
    (h : InCall g f m s) (relation : Comparison) (b : Int) :
    Evaluates mode s f (compared relation b) 2 (.bool (decide (relation.exact m b))) := by
  obtain ⟨installation, hbound⟩ := hg.comparison relation
  have hname : n ≠ ⟨relation.name⟩ := by cases relation <;> decide
  have hkeyword : Eval.keyword? (.symbol ⟨relation.name⟩) = none := by
    cases relation <;> decide
  have hargs : List.Forall₂ (Evaluates mode s f · 1 ·) [.symbol n, .atom (.number b)]
      [.number m, .number b] :=
    .cons (evaluates_n huntraced h) (.cons (.number huntraced s f b) .nil)
  refine .native huntraced h.lt hkeyword (h.lookup?_of_ne hname hbound) hargs fun limit t => ?_
  refine Comparison.apply_of_compareAll installation ?_ t
  rw [Comparison.compareAll_numbers]
  by_cases h : relation.exact m b
  · rw [if_pos h, decide_eq_true h]
    rfl
  · rw [if_neg h, decide_eq_false h]

/-- A call with a natural number evaluates to what the body does in the frame of the call. -/
lemma evaluates_application (huntraced : mode.traced = false) (hg : g < s.frames.size)
    (hdefines : Defines g x body s) (hx : x.Nameable used) (hf : f < s.frames.size)
    (hlookup : ∀ w, (s.frame g).bindings.get? x = some w → s.lookup? f x = some w)
    (hd : Evaluates mode s f d (depth + 1) (.number m))
    (hbody : ∀ t h, s.Grows t → InCall g h m t → Evaluates mode t h body (depth + 1) v) :
    Evaluates mode s f (application x [d]) (depth + 2) v := by
  obtain ⟨k, e, hbound, hk, he⟩ := hdefines
  have hargs : List.Forall₂ (Evaluates mode s f · (depth + 1) ·) [d] [.number m] :=
    .cons hd .nil
  refine .call huntraced hf hx.keyword (hlookup _ hbound) hk he le_rfl hargs
    fun t h hgrows hle hlt hframe => ?_
  exact hbody t h hgrows ⟨hg.trans_le hle, hlt, hframe⟩

/-- A recursive call. -/
lemma evaluates_recursive (huntraced : mode.traced = false) (hg : Natives g s)
    (hdefines : Defines g x body s) (hx : x.Nameable used) {less : Nat}
    (h : InCall g f (m + less) s)
    (hbody : ∀ t h, s.Grows t → InCall g h m t → Evaluates mode t h body (depth + 2) v) :
    Evaluates mode s f (recursive x less) (depth + 3) v := by
  have harg : Evaluates mode s f (arithmetic .sub (.symbol n) (.atom (.number less))) 2
      (.number (Arithmetic.sub.exact (m + less : Nat) less)) :=
    evaluates_arithmetic huntraced hg h .sub (by simp [Arithmetic.Divides])
      (evaluates_n huntraced h) (.number huntraced s f less)
  have hvalue : Arithmetic.sub.exact (m + less : Nat) less = m := by
    simp [Arithmetic.exact]
  rw [hvalue] at harg
  have hne : n ≠ x := (hx.ne List.mem_cons_self).symm
  exact evaluates_application huntraced hg.lt hdefines hx h.lt (fun _ => h.lookup?_of_ne hne)
    (harg.mono (by omega)) hbody

/-- **The body for factorials.**  The induction is on the number; the store and the frame are those of the
call, so they change with it. -/
lemma evaluates_factorialBody (huntraced : mode.traced = false) (hg : Natives g s)
    (hdefines : Defines g fact factorialBody s) (h : InCall g f m s) :
    Evaluates mode s f factorialBody (3 * m + 3) (.number m.factorial) := by
  induction m generalizing s f with
  | zero =>
    have htest := evaluates_compared huntraced hg h .equal 0
    exact .choice huntraced htest ((Evaluates.number huntraced s f 1).mono (by decide))
  | succ m ih =>
    have htest := evaluates_compared huntraced hg h .equal 0
    have hcall : Evaluates mode s f (recursive fact 1) (3 * m + 4) (.number m.factorial) :=
      evaluates_recursive huntraced hg hdefines nameable_fact h fun t h' hgrows hcall =>
        ih (hg.mono hgrows) (hdefines.mono hg.lt hgrows) hcall
    have hproduct := evaluates_arithmetic huntraced hg h .mul (by simp [Arithmetic.Divides])
      ((evaluates_n huntraced h).mono (by omega)) hcall
    have hproduct' : Evaluates mode s f (arithmetic .mul (.symbol n) (recursive fact 1))
        (3 * m + 5) (.number (m + 1).factorial) := by
      have hvalue : Arithmetic.mul.exact (m + 1 : Nat) m.factorial = (m + 1).factorial := by
        simp [Arithmetic.exact, Nat.factorial_succ]
      exact hvalue ▸ hproduct
    have hnonzero : decide (Comparison.equal.exact (m + 1 : Nat) 0) = false :=
      decide_eq_false (show ((m + 1 : Nat) : Int) ≠ 0 by omega)
    rw [hnonzero] at htest
    exact .choice huntraced (htest.mono (by omega)) hproduct'

/-- **The body for Fibonacci numbers.** -/
lemma evaluates_fibonacciBody (huntraced : mode.traced = false) (hg : Natives g s)
    (hdefines : Defines g fib fibonacciBody s) (h : InCall g f m s) :
    Evaluates mode s f fibonacciBody (4 * m + 4) (.number m.fib) := by
  induction m using Nat.strongRecOn generalizing s f with
  | ind m ih =>
    have htest := evaluates_compared huntraced hg h .less 2
    by_cases hm : m < 2
    · have hless : decide (Comparison.less.exact m 2) = true :=
        decide_eq_true (show (m : Int) < 2 by omega)
      have hvalue : m.fib = m := by
        obtain rfl | rfl : m = 0 ∨ m = 1 := by omega
        · rfl
        · rfl
      rw [hless] at htest
      rw [hvalue]
      exact .condElse huntraced (by decide) (htest.mono (by omega))
        ((evaluates_n huntraced h).mono (by omega))
    · obtain ⟨m, rfl⟩ := Nat.exists_eq_add_of_le' (not_lt.mp hm)
      have hless : decide (Comparison.less.exact (m + 2 : Nat) 2) = false :=
        decide_eq_false (show ¬((m + 2 : Nat) : Int) < 2 by omega)
      -- both recursive calls are made with a number `j` that is smaller by `k`
      have hcall (j k : Nat) (hj : j < m + 2) (hjk : j + k = m + 2) :
          Evaluates mode s f (recursive fib k) (4 * j + 5) (.number j.fib) :=
        evaluates_recursive huntraced hg hdefines nameable_fib (hjk ▸ h)
          fun t h' hgrows hcall => ih j hj (hg.mono hgrows) (hdefines.mono hg.lt hgrows) hcall
      have hsum := evaluates_arithmetic huntraced hg h .add (by simp [Arithmetic.Divides])
        (hcall (m + 1) 1 (by omega) rfl)
        ((hcall m 2 (by omega) rfl).mono (by omega))
      have hvalue : Arithmetic.add.exact (m + 1).fib m.fib = (m + 2).fib := by
        simp [Arithmetic.exact, Nat.fib_add_two, add_comm]
      rw [hvalue] at hsum
      rw [hless] at htest
      exact .condElse huntraced (by decide) (htest.mono (by omega)) hsum

/-! ## Definitions -/

lemma Natives.define (h : Natives g s) (hx : x.Nameable used) (v : Value) :
    Natives g (s.define g x v) := by
  have hbound {y : Symbol} (hy : x ≠ y) :
      ((s.define g x v).frame g).bindings.get? y = (s.frame g).bindings.get? y := by
    rw [Store.get?_define h.lt, if_neg fun h => hy h.2.symm]
  have hkeeps := Store.keeps_define (P := (· = g)) h.lt rfl x v
  refine ⟨h.lt.trans_le hkeeps.frames_le, fun operation => ?_, fun relation => ?_⟩
  · have hsame := hbound (hx.ne (arithmetic_mem_used operation))
    exact (h.arithmetic operation).imp fun _ => hsame.trans
  · have hsame := hbound (hx.ne (comparison_mem_used relation))
    exact (h.comparison relation).imp fun _ => hsame.trans

lemma defines_define {k : ClosureId} {e : Value} (hg : g < s.frames.size)
    (hk : s.HasClosure k [n] [e] g) (he : s.Unfolds e body) (x : Symbol) :
    Defines g x body (s.define g x (.closure k)) := by
  have hkeeps := Store.keeps_define (P := (· = g)) hg rfl x (.closure k)
  refine ⟨k, e, ?_, hkeeps.closure hk, he.mono hkeeps.cells⟩
  rw [Store.get?_define hg, if_pos ⟨rfl, rfl⟩]

/-- Other procedures stay defined. -/
lemma Defines.define {y : Symbol} (h : Defines g x body s) (hg : g < s.frames.size) (hy : x ≠ y)
    (v : Value) : Defines g x body (s.define g y v) := by
  obtain ⟨k, e, hbound, hk, he⟩ := h
  have hkeeps := Store.keeps_define (P := (· = g)) hg rfl y v
  refine ⟨k, e, ?_, hkeeps.closure hk, he.mono hkeeps.cells⟩
  rw [Store.get?_define hg, if_neg fun h => hy h.2, hbound]

end Stores

/-! ## Texts -/

/-- The definition of the procedure for factorials. -/
def factorialText : String :=
  "(define (fact n) (if (= n 0) 1 (* n (fact (- n 1)))))"

/-- The definition of the procedure for Fibonacci numbers. -/
def fibonacciText : String :=
  "(define (fib n) (cond ((< n 2) n) (else (+ (fib (- n 1)) (fib (- n 2))))))"

/-- The text of the application of a name to a number. -/
def callText (x : Symbol) (m : Nat) : String :=
  "(" ++ x.name ++ " " ++ toString m ++ ")"

section Texts

variable {limit m : Nat} {x : Symbol} {body : Datum} {s t u : Store} {i : Interpreter}

lemma read_factorial (hlimit : 6 ≤ limit) :
    read limit factorialText.toList = .ok [.procedure fact [n] factorialBody] :=
  read_ok_of_le hlimit (by decide +kernel)

lemma read_fibonacci (hlimit : 6 ≤ limit) :
    read limit fibonacciText.toList = .ok [.procedure fib [n] fibonacciBody] :=
  read_ok_of_le hlimit (by decide +kernel)

lemma lt_decimalBound (hm : (toString m).length ≤ Numeral.maxDecimalDigits) :
    m < Numeral.decimalBound := by
  rw [← not_le, ← Numeral.tooLong_toString_iff, Numeral.TooLong, String.length_toList]
  exact fun h => not_lt.mpr hm h.2

lemma read_call (hx : x.Readable) (hm : m < Numeral.decimalBound) (hlimit : 1 ≤ limit) :
    read limit (callText x m).toList = .ok [application x [.atom (.number m)]] := by
  have hcall := Store.readsAs_list (readsAs_symbol 0 hx) (.cons (readsAs_number 0 hm) .nil)
  have htext : "(" ++ " ".intercalate [x.name, toString m] ++ ")" = callText x m := by
    simp [callText, ← String.toList_inj]
  rw [htext] at hcall
  exact read_joined (.cons hcall .nil) (.one _) hlimit

/-- A text that defines a procedure is run. -/
lemma exists_run {text : String} (huntraced : i.mode.traced = false) (hg : Natives i.globals s)
    (hx : x.Nameable used) (hread : read i.limit text.toList = .ok [.procedure x [n] body])
    (hwritable : (Datum.procedure x [n] body).Writable)
    (hnesting : (Datum.procedure x [n] body).drawing.nesting ≤ i.limit) (hlimit : 2 ≤ i.limit) :
    ∃ v t, s.Grows t ∧ i.run text.toList s = .ok () (t.define i.globals x v) ∧
      Natives i.globals (t.define i.globals x v) ∧
      Defines i.globals x body (t.define i.globals x v) := by
  obtain ⟨limit, hlimit'⟩ := Nat.exists_eq_add_of_le' hlimit
  obtain ⟨e, t, he, hgrows, heval⟩ :=
    Interpreter.exists_growth_of_read hread hwritable hnesting s
  obtain ⟨k, e', u, hgrows', hk, he', hdefined⟩ := eval_procedure huntraced he limit i.globals
  have hg' : Natives i.globals u := hg.mono (hgrows.trans hgrows')
  rw [← hlimit', ← heval] at hdefined
  exact ⟨_, u, hgrows.trans hgrows', Effect.bind_ok hdefined, hg'.define hx _,
    defines_define hg'.lt hk he' x⟩

/-- A procedure is called with a number. -/
lemma exists_call {depth : Nat} {v : Value} (huntraced : i.mode.traced = false)
    (hg : i.globals < s.frames.size) (hdefines : Defines i.globals x body s) (hx : x.Nameable used)
    (hm : m < Numeral.decimalBound) (hlimit : depth + 2 ≤ i.limit)
    (hbody : ∀ t f, s.Grows t → InCall i.globals f m t →
      Evaluates i.mode t f body (depth + 1) v) :
    ∃ t, i.eval (callText x m).toList s = .ok v t ∧ s.Grows t := by
  have hwritable : (application x [.atom (.number m)]).Writable :=
    ⟨rfl, Numeral.decimal?_isSome_iff.mpr hm, rfl⟩
  obtain ⟨e, t, he, hgrows, heval⟩ := Interpreter.exists_growth_of_read
    (read_call hx.readable hm (by omega)) hwritable (show 1 ≤ i.limit by omega) s
  have harg : Evaluates i.mode s i.globals (.atom (.number m)) (depth + 1) (.number m) :=
    (Evaluates.number huntraced s _ m).mono (by omega)
  obtain ⟨u, hvalue, hgrows'⟩ := evaluates_application huntraced hg hdefines hx hg
    (fun _ => Store.lookup?_self) harg hbody t e i.limit hgrows he hlimit
  exact ⟨u, heval.trans hvalue, hgrows.trans hgrows'⟩

/-- In the store, calls of a name give the values of a function.  This holds of each number that a text
may contain, with every limit from the bound on, and as long as the store has only grown.  A call does
not change the global frame, and it prints nothing. -/
def Computes (i : Interpreter) (s : Store) (x : Symbol) (value bound : Nat → Nat) : Prop :=
  ∀ m, (toString m).length ≤ Numeral.maxDecimalDigits → ∀ limit, bound m ≤ limit →
    ∀ t, s.Grows t → ∃ u,
      { i with limit := limit }.eval (callText x m).toList t = .ok (.number (value m)) u ∧
      s.Grows u ∧ u.frame i.globals = t.frame i.globals ∧ u.printed = t.printed

lemma computes_of_evaluates {value bound : Nat → Nat} (huntraced : i.mode.traced = false)
    (hg : i.globals < s.frames.size) (hdefines : Defines i.globals x body s) (hx : x.Nameable used)
    (hbody : ∀ m t f, s.Grows t → InCall i.globals f m t →
      Evaluates i.mode t f body (bound m + 1) (.number (value m))) :
    Computes i s x value (bound · + 2) := by
  intro m hm limit hlimit t hgrows
  have hg' : i.globals < t.frames.size := hg.trans_le hgrows.frames_le
  obtain ⟨u, heval, hgrows'⟩ := exists_call (i := { i with limit := limit }) huntraced hg'
    (hdefines.mono hg hgrows) hx (lt_decimalBound hm) hlimit
    fun u f hu => hbody m u f (hgrows.trans hu)
  exact ⟨u, heval, hgrows.trans hgrows', hgrows'.frame_eq _ hg' id, hgrows'.printed_eq⟩

/-- A new interpreter knows the operations and relations. -/
lemma natives_of_new {channel : Channel} {mode : Mode} {announced : Bool}
    (hnew : Interpreter.new (.standard channel) mode announced limit .empty = .ok i s) :
    i.mode = mode ∧ i.limit = limit ∧ Natives i.globals s := by
  obtain ⟨t, hstart, hnatives⟩ : ∃ t,
      Interpreter.new (.standard channel) mode announced limit .empty =
        .ok ⟨mode, announced, limit, 0⟩ t ∧ Natives 0 t := by
    cases channel <;>
      exact ⟨_, rfl, Nat.one_pos, fun operation => ⟨0, by cases operation <;> rfl⟩,
        fun relation => ⟨0, by cases relation <;> rfl⟩⟩
  cases hstart.symm.trans hnew
  exact ⟨rfl, rfl, hnatives⟩

end Texts

/-- **Recursive procedures compute what they define.**  A new interpreter runs the two definitions.
After that, calls of `fact` give the factorials and calls of `fib` the Fibonacci numbers, for each
number that is written with at most 4300 digits and with every limit from a linear bound on.  No call
changes what is bound globally, and none prints anything.  Steps are not traced, since the events would
show the numbers, and numbers with too many digits cannot be shown. -/
theorem computes_factorial_fib {channel : Channel} {strict announced : Bool} {limit : Nat}
    {i : Interpreter} {s : Store}
    (hnew : Interpreter.new (.standard channel) ⟨strict, false⟩ announced limit .empty = .ok i s)
    (hlimit : 6 ≤ limit) :
    ∃ t u, i.run factorialText.toList s = .ok () t ∧ i.run fibonacciText.toList t = .ok () u ∧
      Computes i u fact Nat.factorial (3 * · + 4) ∧ Computes i u fib Nat.fib (4 * · + 5) := by
  obtain ⟨hmode, rfl, hnatives⟩ := natives_of_new hnew
  have huntraced : i.mode.traced = false := by rw [hmode]
  obtain ⟨v, t, -, hrun, hnatives, hfact⟩ := exists_run huntraced hnatives nameable_fact
    (read_factorial hlimit) (by decide +kernel) (hlimit.trans' (by decide)) (by omega)
  obtain ⟨w, u, hgrows, hrun', hnatives', hfib⟩ := exists_run huntraced hnatives nameable_fib
    (read_fibonacci hlimit) (by decide +kernel) (hlimit.trans' (by decide)) (by omega)
  -- the first procedure is still there
  have hfact : Defines i.globals fact factorialBody (u.define i.globals fib w) :=
    (hfact.mono hnatives.lt hgrows).define (hnatives.mono hgrows).lt (by decide) w
  refine ⟨_, _, hrun, hrun', ?_, ?_⟩
  · refine computes_of_evaluates huntraced hnatives'.lt hfact nameable_fact fun m t f ht hcall => ?_
    exact evaluates_factorialBody huntraced (hnatives'.mono ht) (hfact.mono hnatives'.lt ht) hcall
  · refine computes_of_evaluates huntraced hnatives'.lt hfib nameable_fib fun m t f ht hcall => ?_
    exact evaluates_fibonacciBody huntraced (hnatives'.mono ht) (hfib.mono hnatives'.lt ht) hcall

/-- Two calls, one after the other. -/
theorem computes_factorial_fib_small : ∃ t u w w',
    Interpreter.small.run factorialText.toList Interpreter.smallStart = .ok () t ∧
    Interpreter.small.run fibonacciText.toList t = .ok () u ∧
    Interpreter.small.eval "(fact 5)".toList u = .ok (.number 120) w ∧
    Interpreter.small.eval "(fib 6)".toList w = .ok (.number 8) w' ∧
    w'.frame 0 = u.frame 0 ∧ w'.printed = u.printed := by
  have hnew : Interpreter.new (.standard .standard) ⟨false, false⟩ false 30 .empty =
      .ok Interpreter.small Interpreter.smallStart := rfl
  obtain ⟨t, u, hrun, hrun', hfact, hfib⟩ := computes_factorial_fib hnew (by decide)
  obtain ⟨w, hfive, hgrows, hframe, hprinted⟩ := hfact 5 (by decide) 30 (by decide) u (.refl u)
  obtain ⟨w', hsix, -, hframe', hprinted'⟩ := hfib 6 (by decide) 30 (by decide) w hgrows
  have htext : callText fact 5 = "(fact 5)" := by decide +kernel
  have htext' : callText fib 6 = "(fib 6)" := by decide +kernel
  rw [htext] at hfive
  rw [htext'] at hsix
  exact ⟨t, u, w, w', hrun, hrun', hfive, hsix, hframe'.trans hframe, hprinted'.trans hprinted⟩

end Recursion

end SmallScheme
