import SmallScheme.Proofs.Execution
import SmallScheme.Proofs.LargerLimits
import SmallScheme.Proofs.NumberProcedures
import SmallScheme.Proofs.RoundTrip

/-!
# Counters

A program that makes counters: each call of `make-counter` gives a procedure without parameters that
adds one to its own number and gives the result.

What holds between two texts that use the program is kept as an invariant (`Counting`).  Every counter
is a closure in a frame of its own.  That frame binds the number and lies in the empty frame of the
call that has made the counter, so the number is found there, and everything else in the global frame.
A definition of a counter adds these frames, and a call of a counter changes the number in one of them
(`eval_defineCounter`, `eval_callCounter`).  Hence counters do not notice each other, however calls
of them are mixed (`exists_calls`).

The main result is `private_counts`.
-/

namespace SmallScheme

namespace Counters

open Store (Unfolds)

/-! ## The program -/

/-- The variable of a counter. -/
def n : Symbol := ⟨"n"⟩

/-- The name of the addition. -/
def plus : Symbol := ⟨"+"⟩

/-- The name of the procedure that makes counters. -/
def maker : Symbol := ⟨"make-counter"⟩

/-- The global names that the program needs. -/
def used : List Symbol := [plus, maker]

/-- The expression `(+ n 1)`. -/
def successor : Datum := .ofList [.symbol plus, .symbol n, .atom (.number 1)] .nil

/-- The expression `(set! n (+ n 1))`. -/
def increment : Datum := .ofList [.symbol ⟨"set!"⟩, .symbol n, successor] .nil

/-- The expression `(lambda () (set! n (+ n 1)) n)`. -/
def counter : Datum := .ofList [.symbol ⟨"lambda"⟩, .nil, increment, .symbol n] .nil

/-- The expression `(let ((n 0)) (lambda () (set! n (+ n 1)) n))`. -/
def newCounter : Datum :=
  .ofList [.symbol ⟨"let"⟩, .ofList [.ofList [.symbol n, .atom (.number 0)] .nil] .nil, counter] .nil

/-- The definition of the procedure that makes counters. -/
def program : Datum :=
  .ofList [.symbol ⟨"define"⟩, .ofList [.symbol maker] .nil, newCounter] .nil

/-! ## Stores with counters -/

/-- In the frame `g` counters can be made. -/
structure Ready (g : FrameId) (s : Store) : Prop where
  lt : g < s.frames.size
  outermost : (s.frame g).outer = none
  plus_eq : ∃ installation, (s.frame g).bindings.get? plus =
    some (.builtin (Arithmetic.add.procedure installation))
  maker_eq : ∃ k e, (s.frame g).bindings.get? maker = some (.closure k) ∧
    s.HasClosure k [] [e] g ∧ s.Unfolds e newCounter

/-- The closure is a counter that has been called `count` times.  Its own frame, which holds the number,
lies in the frame of the call that has made it, and this one in the frame `g`. -/
structure IsCounter (g : FrameId) (k : ClosureId) (home : FrameId) (count : Nat) (s : Store) :
    Prop where
  closure : ∃ e, s.HasClosure k [] [e, .symbol n] home ∧ s.Unfolds e increment
  frame : ∃ a, g < a ∧ a < home ∧ home < s.frames.size ∧ s.frame a = ⟨[], some g⟩ ∧
    s.frame home = ⟨[(n, .number count)], some a⟩

/-- What the store is like after the given counters have been made in the frame `g` and been called.
They have frames of their own. -/
structure Counting (g : FrameId) (made : List Symbol) (home : Symbol → FrameId)
    (count : Symbol → Nat) (s : Store) : Prop extends Ready g s where
  counter_eq : ∀ x ∈ made, ∃ k, (s.frame g).bindings.get? x = some (.closure k) ∧
    IsCounter g k (home x) (count x) s
  apart : ∀ x ∈ made, ∀ y ∈ made, home x = home y → x = y

section Stores

variable {g home : FrameId} {k : ClosureId} {count : Nat} {s t : Store} {P : FrameId → Prop}
  {x : Symbol}

namespace Ready

lemma mono (h : Ready g s) (hkeeps : s.Keeps P t) (hg : t.frame g = s.frame g) : Ready g t := by
  obtain ⟨k, e, hbound, hk, he⟩ := h.maker_eq
  exact ⟨h.lt.trans_le hkeeps.frames_le, hg ▸ h.outermost, hg ▸ h.plus_eq,
    k, e, hg ▸ hbound, hkeeps.closure hk, he.mono hkeeps.cells⟩

/-- Other names can be defined. -/
lemma define (h : Ready g s) (hplus : x ≠ plus) (hmaker : x ≠ maker) (v : Value) :
    Ready g (s.define g x v) := by
  have hkeeps : s.Keeps (· = g) (s.define g x v) := Store.keeps_define (P := (· = g)) h.lt rfl x v
  have hbound {y : Symbol} (hy : x ≠ y) :
      ((s.define g x v).frame g).bindings.get? y = (s.frame g).bindings.get? y := by
    rw [Store.get?_define h.lt, if_neg fun h => hy h.2.symm]
  obtain ⟨k, e, hmade, hk, he⟩ := h.maker_eq
  exact ⟨h.lt.trans_le hkeeps.frames_le, (Store.outer_define ..).trans h.outermost,
    h.plus_eq.imp fun _ => (hbound hplus).trans, k, e, (hbound hmaker).trans hmade,
    hkeeps.closure hk, he.mono hkeeps.cells⟩

end Ready

namespace IsCounter

/-- A counter stays as it is while other frames are changed. -/
lemma mono (h : IsCounter g k home count s) (hkeeps : s.Keeps P t) (hhome : ¬P home)
    (hcall : ∀ a, P a → s.frame a ≠ ⟨[], some g⟩) : IsCounter g k home count t := by
  obtain ⟨e, hk, he⟩ := h.closure
  obtain ⟨a, hga, hah, hlt, ha, hhome'⟩ := h.frame
  refine ⟨⟨e, hkeeps.closure hk, he.mono hkeeps.cells⟩, a, hga, hah, hlt.trans_le hkeeps.frames_le,
    ?_, ?_⟩
  · rw [hkeeps.frame_eq a (hah.trans hlt) fun hP => hcall a hP ha, ha]
  · rw [hkeeps.frame_eq home hlt hhome, hhome']

/-- The frame `g` is not a part of the counter. -/
lemma define (h : IsCounter g k home count s) (houtermost : (s.frame g).outer = none) (x : Symbol)
    (v : Value) : IsCounter g k home count (s.define g x v) := by
  obtain ⟨a, hga, hah, hlt, -, -⟩ := h.frame
  have hkeeps := Store.keeps_define (P := (· = g)) (hga.trans (hah.trans hlt)) rfl x v
  refine h.mono hkeeps (hga.trans hah).ne' ?_
  rintro _ rfl heq
  rw [heq] at houtermost
  cases houtermost

/-- A frame inside the one of a counter finds the number there, and the addition as `g` does. -/
lemma find?_eq (h : IsCounter g k home count s) {f : FrameId}
    (hf : s.frame f = ⟨[], some home⟩) (hlt : home < f) :
    s.find? f n = some home ∧ s.find? f plus = s.find? g plus := by
  obtain ⟨a, hga, hah, -, ha, hhome⟩ := h.frame
  constructor
  · rw [Store.find?_outer (congrArg Frame.outer hf) hlt (by rw [hf]; rfl)]
    exact Store.find?_self (by rw [hhome]; rfl)
  · rw [Store.find?_outer (congrArg Frame.outer hf) hlt (by rw [hf]; rfl),
      Store.find?_outer (congrArg Frame.outer hhome) hah (by rw [hhome]; rfl),
      Store.find?_outer (congrArg Frame.outer ha) hga (by rw [ha]; rfl)]

/-- A counter has counted once more. -/
lemma increment (h : IsCounter g k home count s) (hkeeps : s.Keeps (· = home) t)
    (hnumber : t.frame home = ⟨[(n, .number (count + 1 : Nat))], (s.frame home).outer⟩) :
    IsCounter g k home (count + 1) t := by
  obtain ⟨e, hk, he⟩ := h.closure
  obtain ⟨a, hga, hah, hlt, ha, hhome⟩ := h.frame
  rw [hhome] at hnumber
  refine ⟨⟨e, hkeeps.closure hk, he.mono hkeeps.cells⟩, a, hga, hah,
    hlt.trans_le hkeeps.frames_le, ?_, hnumber⟩
  rw [hkeeps.frame_eq a (hah.trans hlt) hah.ne, ha]

end IsCounter

end Stores

namespace Counting

variable {g : FrameId} {made : List Symbol} {home : Symbol → FrameId} {count : Symbol → Nat}
  {s t : Store} {x : Symbol}

/-- What is added to the store does not matter. -/
lemma mono (h : Counting g made home count s) (hkeeps : s.Keeps (fun _ => False) t) :
    Counting g made home count t := by
  have hg : t.frame g = s.frame g := hkeeps.frame_eq g h.lt id
  refine ⟨h.toReady.mono hkeeps hg, fun x hx => ?_, h.apart⟩
  obtain ⟨k, hbound, hk⟩ := h.counter_eq x hx
  exact ⟨k, hg ▸ hbound, hk.mono hkeeps id nofun⟩

/-- Only the frame of one counter has been changed, where one has been added to the number. -/
lemma increment (h : Counting g made home count s) (hx : x ∈ made)
    (hkeeps : s.Keeps (· = home x) t)
    (hnumber : t.frame (home x) =
      ⟨[(n, .number (count x + 1 : Nat))], (s.frame (home x)).outer⟩) :
    Counting g made home (Function.update count x (count x + 1)) t := by
  obtain ⟨kx, -, hcounter⟩ := h.counter_eq x hx
  obtain ⟨a, hga, hah, -, -, hhome⟩ := hcounter.frame
  have hg : t.frame g = s.frame g := hkeeps.frame_eq g h.lt (hga.trans hah).ne
  refine ⟨h.toReady.mono hkeeps hg, fun y hy => ?_, h.apart⟩
  obtain ⟨k, hbound, hk⟩ := h.counter_eq y hy
  refine ⟨k, hg ▸ hbound, ?_⟩
  by_cases hyx : y = x
  · subst hyx
    rw [Function.update_self]
    exact hk.increment hkeeps hnumber
  · -- the other counters have other frames, and the frames of the calls that made them are empty
    rw [Function.update_of_ne hyx]
    refine hk.mono hkeeps (fun heq => hyx (h.apart y hy x hx heq)) ?_
    rintro _ rfl heq
    rw [hhome] at heq
    cases heq

/-- A name is defined as a counter that nobody has used. -/
lemma define (h : Counting g made home count s) {k : ClosureId} {new : FrameId}
    (hk : IsCounter g k new 0 s) (hnew : ∀ y ∈ made, home y ≠ new) (hplus : x ≠ plus)
    (hmaker : x ≠ maker) :
    Counting g (x :: made) (Function.update home x new) (Function.update count x 0)
      (s.define g x (.closure k)) := by
  have hother {y : Symbol} (hy : y ∈ x :: made) (hyx : y ≠ x) : y ∈ made :=
    (List.mem_cons.mp hy).resolve_left hyx
  refine ⟨h.toReady.define hplus hmaker _, fun y hy => ?_, fun y hy z hz heq => ?_⟩
  · rw [Store.get?_define h.lt, Function.update_apply, Function.update_apply]
    by_cases hyx : y = x
    · rw [if_pos ⟨rfl, hyx⟩, if_pos hyx, if_pos hyx]
      exact ⟨k, rfl, hk.define h.outermost x _⟩
    · rw [if_neg fun h => hyx h.2, if_neg hyx, if_neg hyx]
      obtain ⟨j, hbound, hj⟩ := h.counter_eq y (hother hy hyx)
      exact ⟨j, hbound, hj.define h.outermost x _⟩
  · simp only [Function.update_apply] at heq
    split_ifs at heq with hyx hzx hzx
    · exact hyx.trans hzx.symm
    · exact absurd heq.symm (hnew z (hother hz hzx))
    · exact absurd heq (hnew y (hother hy hyx))
    · exact h.apart y (hother hy hyx) z (hother hz hzx) heq

end Counting

/-! ### Making a counter -/

section Make

variable {mode : Mode} {g home : FrameId} {k : ClosureId} {count : Nat} {s : Store} {e : Value}

/-- The bindings `((n 0))`. -/
lemma bindingList (h : s.Unfolds e (.ofList [.ofList [.symbol n, .atom (.number 0)] .nil] .nil)) :
    s.BindingList e [(n, .number 0)] := by
  obtain ⟨members, hlist, hmembers⟩ := h.exists_list
  obtain _ | ⟨hbinding, ⟨⟩⟩ := hmembers
  obtain ⟨parts, hparts, hmembers⟩ := hbinding.exists_list
  obtain _ | ⟨hname, _ | ⟨hzero, ⟨⟩⟩⟩ := hmembers
  cases hname.eq_atom
  cases hzero.eq_atom
  exact ⟨_, hlist, .cons hparts .nil⟩

/-- The expression `(lambda () (set! n (+ n 1)) n)` makes a counter of the frame it is evaluated in. -/
lemma eval_counter (huntraced : mode.traced = false) (he : s.Unfolds e counter) (limit : Nat)
    (home : FrameId) :
    ∃ k t, eval mode (limit + 1) e home s = .ok (.closure k) t ∧ s.AddsFresh t ∧
      ∃ e, t.HasClosure k [] [e, .symbol n] home ∧ t.Unfolds e increment := by
  obtain ⟨c, keyword, operands, rfl, hlambda, hkeyword, hoperands⟩ := he.exists_pair
  obtain _ | ⟨hparams, _ | ⟨hincrement, _ | ⟨hname, ⟨⟩⟩⟩⟩ := hoperands
  cases hkeyword.eq_atom
  cases hname.eq_atom
  have hnames : s.list? _ = some (([] : List Symbol).map .symbol) := Unfolds.list?_symbols hparams
  obtain ⟨k, t, heval, hfresh, hk⟩ := eval_lambda huntraced hlambda hnames nofun limit home
  exact ⟨k, t, heval, hfresh, _, hk, hincrement.mono hfresh.cells⟩

/-- The body of the procedure that makes counters is evaluated in a frame inside `g`. -/
lemma eval_newCounter (huntraced : mode.traced = false) (he : s.Unfolds e newCounter) {a : FrameId}
    (ha : s.frame a = ⟨[], some g⟩) (hga : g < a) (hlt : a < s.frames.size) (limit : Nat) :
    ∃ k t, eval mode (limit + 3) e a s = .ok (.closure k) t ∧ s.Keeps (fun _ => False) t ∧
      IsCounter g k s.frames.size 0 t := by
  obtain ⟨c, keyword, operands, rfl, hlet, hkeyword, hoperands⟩ := he.exists_pair
  obtain _ | ⟨hbindings, _ | ⟨hcounter, ⟨⟩⟩⟩ := hoperands
  cases hkeyword.eq_atom
  obtain ⟨k, t, hfresh, hk, heval⟩ :=
    eval_letIn huntraced hlet (bindingList hbindings) nofun limit a
  have hzero : Eval.operands (eval mode (limit + 1)) a [.number 0] t = .ok [.number 0] t :=
    operands_cons (eval_number huntraced limit 0 a t) rfl
  -- the frame of the counter is made next
  set u := (t.addFrame [(n, .number 0)] (some a)).2
  have hframes : t.frames.size = s.frames.size := congrArg Array.size hfresh.frames
  have hkeeps : s.Keeps (fun _ => False) u := (hfresh.keeps _).trans (t.keeps_addFrame _ _ _)
  have hcall := heval.trans (callWith_eq hzero hk le_rfl)
  obtain ⟨k', t', hlambda, hfresh', hk'⟩ :=
    eval_counter huntraced (hcounter.mono hkeeps.cells) limit t.frames.size
  have hframe (f : FrameId) : t'.frame f = u.frame f := by
    rw [Store.frame, hfresh'.frames, Store.frame]
  rw [hframes] at hcall hlambda hk'
  refine ⟨k', t', hcall.trans hlambda, hkeeps.trans (hfresh'.keeps _), hk', a, hga, hlt, ?_, ?_, ?_⟩
  · rw [hfresh'.frames, ← hframes]
    simp [u, Store.addFrame]
  · rw [hframe, hkeeps.frame_eq a hlt id, ha]
  · rw [hframe, ← hframes]
    exact Store.frame_addFrame_self _ _ t

/-- The call `(make-counter)` makes a counter with the number zero. -/
lemma eval_makeCounter (huntraced : mode.traced = false) (h : Ready g s)
    (he : s.Unfolds e (.ofList [.symbol maker] .nil)) (limit : Nat) :
    ∃ k t, eval mode (limit + 4) e g s = .ok (.closure k) t ∧ s.Keeps (fun _ => False) t ∧
      IsCounter g k (s.frames.size + 1) 0 t := by
  obtain ⟨c, name, operands, rfl, hcall, hname, ⟨⟩⟩ := he.exists_pair
  cases hname.eq_atom
  obtain ⟨k, e, hbound, hk, he⟩ := h.maker_eq
  have hbody := eval_callThunk huntraced hcall (by decide) (Store.lookup?_self hbound) hk (limit + 2)
  -- the call has an empty frame
  set u := (s.addFrame [] (some g)).2
  have hkeeps : s.Keeps (fun _ => False) u := s.keeps_addFrame _ _ _
  have hsize : u.frames.size = s.frames.size + 1 := by simp [u, Store.addFrame]
  obtain ⟨k', t, heval, hkeeps', hk'⟩ := eval_newCounter huntraced (he.mono hkeeps.cells)
    (Store.frame_addFrame_self [] (some g) s) h.lt (hsize ▸ Nat.lt_succ_self _) limit
  refine ⟨k', t, hbody.trans heval, hkeeps.trans hkeeps', hsize ▸ hk'⟩

/-- The expression `(+ n 1)`, where `n` is a number. -/
lemma eval_successor (huntraced : mode.traced = false) (he : s.Unfolds e successor) {f : FrameId}
    {installation m : Nat} (hn : s.lookup? f n = some (.number m))
    (hplus : s.lookup? f plus = some (.builtin (Arithmetic.add.procedure installation)))
    (limit : Nat) : eval mode (limit + 2) e f s = .ok (.number (m + 1 : Nat)) s := by
  obtain ⟨c, name, operands, rfl, hcall, hname, hoperands⟩ := he.exists_pair
  obtain _ | ⟨hvariable, _ | ⟨hone, ⟨⟩⟩⟩ := hoperands
  cases hname.eq_atom
  cases hvariable.eq_atom
  cases hone.eq_atom
  have hargs : Eval.operands (eval mode (limit + 1)) f [.symbol n, .number 1] s =
      .ok ([(m : Int), 1].map .number) s :=
    operands_cons (eval_symbol huntraced hn limit)
      (operands_cons (eval_number huntraced limit 1 f s) rfl)
  rw [eval_native huntraced hcall (by decide) hplus hargs]
  exact Arithmetic.apply_numbers (fun _ => by decide) installation (limit + 1) m s

/-- The expression `(set! n (+ n 1))` in a frame inside the one of a counter. -/
lemma eval_increment (huntraced : mode.traced = false) (he : s.Unfolds e increment)
    (h : IsCounter g k home count s) {f : FrameId} (hf : s.frame f = ⟨[], some home⟩)
    (hlt : home < f) {installation : Nat}
    (hplus : (s.frame g).bindings.get? plus =
      some (.builtin (Arithmetic.add.procedure installation))) (limit : Nat) :
    eval mode (limit + 3) e f s = .ok .nil (s.define home n (.number (count + 1 : Nat))) := by
  obtain ⟨c, keyword, operands, rfl, hassign, hkeyword, hoperands⟩ := he.exists_pair
  obtain _ | ⟨hvariable, _ | ⟨hsuccessor, ⟨⟩⟩⟩ := hoperands
  cases hkeyword.eq_atom
  cases hvariable.eq_atom
  obtain ⟨a, -, -, -, -, hhome⟩ := h.frame
  obtain ⟨hfind, hfindplus⟩ := h.find?_eq hf hlt
  have hn : s.lookup? f n = some (.number count) := by
    rw [Store.lookup?_of_find? hfind, hhome]
    rfl
  have hplus' : s.lookup? f plus = some (.builtin (Arithmetic.add.procedure installation)) := by
    rw [Store.lookup?_of_find? (hfindplus.trans (Store.find?_self hplus)), hplus]
  exact eval_assign huntraced hassign (eval_successor huntraced hsuccessor hn hplus' limit) hfind

/-- A call of a counter gives the next number, and only the frame of the counter is changed. -/
lemma eval_callCounter {made : List Symbol} {home : Symbol → FrameId} {count : Symbol → Nat}
    {x : Symbol} (huntraced : mode.traced = false) (h : Counting g made home count s) (hx : x ∈ made)
    (hkeyword : Eval.keyword? (.symbol x) = none)
    (he : s.Unfolds e (.ofList [.symbol x] .nil)) (limit : Nat) :
    ∃ t, eval mode (limit + 4) e g s = .ok (.number (count x + 1 : Nat)) t ∧
      Counting g made home (Function.update count x (count x + 1)) t := by
  obtain ⟨c, name, operands, rfl, hcall, hname, ⟨⟩⟩ := he.exists_pair
  cases hname.eq_atom
  obtain ⟨k, hbound, hcounter⟩ := h.counter_eq x hx
  obtain ⟨installation, hplus⟩ := h.plus_eq
  obtain ⟨e, hk, he⟩ := hcounter.closure
  obtain ⟨a, -, -, hlt, -, hhome⟩ := hcounter.frame
  have hbody := eval_callThunk huntraced hcall hkeyword (Store.lookup?_self hbound) hk (limit + 2)
  -- the call has an empty frame inside the one of the counter
  set u := (s.addFrame [] (some (home x))).2
  have hkeeps : s.Keeps (fun _ => False) u := s.keeps_addFrame _ _ _
  have hcounter' : IsCounter g k (home x) (count x) u := hcounter.mono hkeeps id nofun
  have hself : u.frame s.frames.size = ⟨[], some (home x)⟩ := Store.frame_addFrame_self [] _ s
  have hg : u.frame g = s.frame g := hkeeps.frame_eq g h.lt id
  have hset := eval_increment huntraced (he.mono hkeeps.cells) hcounter' hself hlt
    (hg ▸ hplus) limit
  -- after the number is changed, it is given
  set w := u.define (home x) n (.number (count x + 1 : Nat))
  have hlt' : home x < u.frames.size := hlt.trans_le hkeeps.frames_le
  obtain ⟨hfind, -⟩ := hcounter'.find?_eq hself hlt
  have hvalue : w.lookup? s.frames.size n = some (.number (count x + 1 : Nat)) := by
    rw [Store.lookup?_define_of_find? hlt' _ ((Store.find?_define_of_find? hfind _ _ _).trans hfind),
      if_pos rfl]
  refine ⟨w, hbody.trans ((sequence_cons hset _ []).trans (eval_symbol huntraced hvalue _)), ?_⟩
  have hkeeps' : u.Keeps (· = home x) w := Store.keeps_define (P := (· = home x)) hlt' rfl n _
  refine h.increment hx ((hkeeps.mono nofun).trans hkeeps') ?_
  rw [Store.frame_define_self hlt', hkeeps.frame_eq _ hlt id, hhome]
  rfl

/-- The definition `(define x (make-counter))`. -/
lemma eval_defineCounter {made : List Symbol} {home : Symbol → FrameId} {count : Symbol → Nat}
    {x : Symbol} (huntraced : mode.traced = false) (h : Counting g made home count s)
    (hplus : x ≠ plus) (hmaker : x ≠ maker)
    (he : s.Unfolds e
      (.ofList [.symbol ⟨"define"⟩, .symbol x, .ofList [.symbol maker] .nil] .nil)) (limit : Nat) :
    ∃ home' t, eval mode (limit + 5) e g s = .ok .nil t ∧
      Counting g (x :: made) home' (Function.update count x 0) t := by
  obtain ⟨c, keyword, operands, rfl, hdefine, hkeyword, hoperands⟩ := he.exists_pair
  obtain _ | ⟨hname, _ | ⟨hcall, ⟨⟩⟩⟩ := hoperands
  cases hkeyword.eq_atom
  cases hname.eq_atom
  obtain ⟨k, t, hmake, hkeeps, hk⟩ := eval_makeCounter huntraced h.toReady hcall limit
  have hnamed : t.Keeps (fun _ => False) (t.nameClosure k x) := t.keeps_nameClosure k x _
  refine ⟨_, _, eval_define huntraced hdefine hmake, (h.mono (hkeeps.trans hnamed)).define
    (hk.mono hnamed id nofun) (fun y hy => ?_) hplus hmaker⟩
  -- the frames of the other counters were there before
  obtain ⟨j, -, hj⟩ := h.counter_eq y hy
  obtain ⟨a, -, -, hlt, -, -⟩ := hj.frame
  exact (hlt.trans (Nat.lt_succ_self _)).ne

/-- The definition of the procedure that makes counters. -/
lemma eval_program (huntraced : mode.traced = false) (hlt : g < s.frames.size)
    (houtermost : (s.frame g).outer = none) {installation : Nat}
    (hplus : (s.frame g).bindings.get? plus =
      some (.builtin (Arithmetic.add.procedure installation)))
    (he : s.Unfolds e program) (limit : Nat) :
    ∃ t, eval mode (limit + 2) e g s = .ok .nil t ∧ Ready g t := by
  have hprogram : s.Unfolds e (.procedure maker [] newCounter) := he
  obtain ⟨k, e', t, hgrows, hk, he', heval⟩ := eval_procedure huntraced hprogram limit g
  have hlt' : g < t.frames.size := hlt.trans_le hgrows.frames_le
  have hg : t.frame g = s.frame g := hgrows.frame_eq g hlt id
  have hkeeps : t.Keeps (· = g) (t.define g maker (.closure k)) :=
    Store.keeps_define (P := (· = g)) hlt' rfl maker _
  refine ⟨_, heval, hlt'.trans_le hkeeps.frames_le, ?_, ⟨installation, ?_⟩, ⟨k, e', ?_,
    hkeeps.closure hk, he'.mono hkeeps.cells⟩⟩
  · rw [Store.outer_define, hg]
    exact houtermost
  · rw [Store.get?_define hlt', if_neg fun h => absurd h.2 (by decide), hg]
    exact hplus
  · rw [Store.get?_define hlt', if_pos ⟨rfl, rfl⟩]

end Make

/-! ## Texts -/

/-- The text of the program. -/
def programText : String :=
  "(define (make-counter) (let ((n 0)) (lambda () (set! n (+ n 1)) n)))"

/-- The text `(define x (make-counter))`. -/
def definitionText (x : Symbol) : String :=
  "(define " ++ x.name ++ " (make-counter))"

/-- The text `(x)`. -/
def callText (x : Symbol) : String :=
  "(" ++ x.name ++ ")"

variable {limit : Nat} {x : Symbol}

lemma read_program (hlimit : 5 ≤ limit) : read limit programText.toList = .ok [program] :=
  read_ok_of_le hlimit (by decide +kernel)

lemma read_definition (hx : x.Readable) (hlimit : 2 ≤ limit) :
    read limit (definitionText x).toList =
      .ok [.ofList [.symbol ⟨"define"⟩, .symbol x, .ofList [.symbol maker] .nil] .nil] := by
  have hdefine : ReadsAs 1 "define".toList (.symbol ⟨"define"⟩) :=
    readsAs_symbol 1 (x := ⟨"define"⟩) (by decide +kernel)
  have hmaker := Store.readsAs_list (readsAs_symbol 0 (x := maker) (by decide +kernel)) .nil
  have hdefinition := Store.readsAs_list hdefine (.cons (readsAs_symbol 1 hx) (.cons hmaker .nil))
  have htext : "(" ++ " ".intercalate ["define", x.name,
      "(" ++ " ".intercalate [maker.name] ++ ")"] ++ ")" = definitionText x := by
    simp [definitionText, maker, ← String.toList_inj]
  rw [htext] at hdefinition
  exact read_joined (.cons hdefinition .nil) (.one _) hlimit

lemma read_call (hx : x.Readable) (hlimit : 1 ≤ limit) :
    read limit (callText x).toList = .ok [.ofList [.symbol x] .nil] := by
  have hcall := Store.readsAs_list (readsAs_symbol 0 hx) .nil
  have htext : "(" ++ " ".intercalate [x.name] ++ ")" = callText x := by
    simp [callText]
  rw [htext] at hcall
  exact read_joined (.cons hcall .nil) (.one _) hlimit

/-! ## Sessions -/

/-- The name of the counter with the given number. -/
def counterName (c : Nat) : Symbol := ⟨"c" ++ toString c⟩

lemma counterName_injective : Function.Injective counterName := by
  intro c d h
  have htext : toString c = toString d := by simpa [counterName] using h
  have hvalue := congrArg (fun text : String => Radix.decimal.value text.toList) htext
  simpa only [Numeral.value_toString] using hvalue

/-- The name of a counter has no character but `c` and digits. -/
lemma counterName_ne {x : Symbol} (hx : x.name.toList.all (fun d => d == 'c' || d.isDigit) = false)
    (c : Nat) : counterName c ≠ x := by
  rintro rfl
  have hall : (counterName c).name.toList.all (fun d => d == 'c' || d.isDigit) = true := by
    rw [List.all_eq_true]
    intro d hd
    have hmem : d = 'c' ∨ d ∈ Nat.toDigits 10 c := by simpa [counterName] using hd
    rcases hmem with rfl | hdigit
    · rfl
    · simp [Numeral.isDigit_of_mem_toDigits hdigit]
  rw [hall] at hx
  cases hx

lemma nameable_counterName (c : Nat) : (counterName c).Nameable used where
  readable := by
    refine Symbol.readable_of_spells (.inl ⟨'c', Nat.toDigits 10 c, by simp [counterName], rfl, ?_⟩)
      fun h => counterName_ne (x := ⟨"."⟩) (by decide) c (congrArg Symbol.mk h)
    intro d hd
    exact isSubsequent_of_isAlphanum (by simp [Char.isAlphanum, Numeral.isDigit_of_mem_toDigits hd])
  keyword := by
    rw [Option.eq_none_iff_forall_ne_some]
    intro form h
    refine counterName_ne ?_ c (SpecialForm.keyword_of_ofSymbol? h).symm
    cases form <;> decide
  not_mem := by
    simp only [used, List.mem_cons, List.not_mem_nil, or_false, not_or]
    exact ⟨counterName_ne (by decide) c, counterName_ne (by decide) c⟩

section Sessions

variable {i : Interpreter} {made : List Symbol} {home : Symbol → FrameId} {count : Symbol → Nat}

/-- One counter is made. -/
lemma exists_definition (huntraced : i.mode.traced = false) (hlimit : 5 ≤ i.limit)
    (h : Counting i.globals made home count s) (hx : x.Nameable used) :
    ∃ home' t, i.eval (definitionText x).toList s = .ok .nil t ∧
      Counting i.globals (x :: made) home' (Function.update count x 0) t := by
  obtain ⟨limit, hlimit'⟩ := Nat.exists_eq_add_of_le' hlimit
  obtain ⟨e, u, he, hkeeps, heval⟩ := Interpreter.exists_eval_of_read
    (read_definition hx.readable (by omega)) (by simp [Datum.Writable, Atom.text?])
    (show 2 ≤ i.limit by omega) s
  rw [heval, hlimit']
  exact eval_defineCounter huntraced (h.mono hkeeps) (hx.ne (by decide)) (hx.ne (by decide)) he limit

/-- One counter is called. -/
lemma exists_call (huntraced : i.mode.traced = false) (hlimit : 5 ≤ i.limit)
    (h : Counting i.globals made home count s) (hx : x.Nameable used) (hmade : x ∈ made) :
    ∃ t, i.eval (callText x).toList s = .ok (.number (count x + 1 : Nat)) t ∧
      Counting i.globals made home (Function.update count x (count x + 1)) t := by
  obtain ⟨limit, hlimit'⟩ := Nat.exists_eq_add_of_le' hlimit
  obtain ⟨e, u, he, hkeeps, heval⟩ := Interpreter.exists_eval_of_read
    (read_call hx.readable (by omega)) ⟨rfl, rfl⟩ (show 1 ≤ i.limit by omega) s
  rw [heval, hlimit']
  exact eval_callCounter huntraced (h.mono hkeeps) hmade hx.keyword he (limit + 1)

/-- Counters are made one after another. -/
lemma exists_definitions (huntraced : i.mode.traced = false) (hlimit : 5 ≤ i.limit)
    {xs : List Symbol} (hxs : ∀ x ∈ xs, x.Nameable used)
    (h : Counting i.globals made home (fun _ => 0) s) :
    ∃ home' t, (xs.mapM fun x => i.eval (definitionText x).toList) s =
        .ok (List.replicate xs.length .nil) t ∧
      Counting i.globals (xs.reverse ++ made) home' (fun _ => 0) t := by
  induction xs generalizing made home s with
  | nil => exact ⟨home, s, rfl, h⟩
  | cons x xs ih =>
    obtain ⟨hx, hxs⟩ := List.forall_mem_cons.mp hxs
    obtain ⟨home', t, heval, h'⟩ := exists_definition huntraced hlimit h hx
    rw [Function.update_eq_self_iff.mpr rfl] at h'
    obtain ⟨home'', u, hrest, h''⟩ := ih hxs h'
    refine ⟨home'', u, ?_, by simpa using h''⟩
    rw [List.mapM_cons, Effect.bind_ok heval, Effect.bind_ok hrest]
    rfl

/-- What calls of counters give, when the counters have been called as often as `count` says. -/
def results (count : Symbol → Nat) (calls : List Symbol) : List Value :=
  calls.mapIdx fun j x => .number (count x + (calls.take (j + 1)).count x : Nat)

lemma results_cons (count : Symbol → Nat) (x : Symbol) (calls : List Symbol) :
    results count (x :: calls) =
      .number (count x + 1 : Nat) :: results (Function.update count x (count x + 1)) calls := by
  rw [results, List.mapIdx_cons, results]
  congr 1
  · simp
  · refine congrArg (calls.mapIdx ·) (funext₂ fun j y => ?_)
    rw [List.take_succ_cons, List.count_cons, Function.update_apply]
    by_cases hyx : y = x
    · subst hyx
      simp
      omega
    · simp [hyx, Ne.symm hyx]

/-- What the calls give depends only on which of them are calls of the same counter. -/
lemma results_map {α : Type} [DecidableEq α] {f : α → Symbol} (hf : Function.Injective f)
    (calls : List α) : results (fun _ => 0) (calls.map f) =
      calls.mapIdx fun j x => .number ((calls.take (j + 1)).count x : Nat) := by
  refine List.ext_getElem (by simp [results]) fun j _ _ => ?_
  simp only [results, List.getElem_mapIdx, List.getElem_map, ← List.map_take, zero_add]
  rw [List.count_map_of_injective _ f hf]

/-- **Each call of a counter gives the number of its calls**, in whatever order the counters are
called. -/
lemma exists_calls (huntraced : i.mode.traced = false) (hlimit : 5 ≤ i.limit)
    {calls : List Symbol} (hcalls : ∀ x ∈ calls, x.Nameable used ∧ x ∈ made)
    (h : Counting i.globals made home count s) :
    ∃ t, (calls.mapM fun x => i.eval (callText x).toList) s =
      .ok (results count calls) t := by
  induction calls generalizing count s with
  | nil => exact ⟨s, rfl⟩
  | cons x calls ih =>
    obtain ⟨⟨hx, hmade⟩, hcalls⟩ := List.forall_mem_cons.mp hcalls
    obtain ⟨t, heval, h'⟩ := exists_call huntraced hlimit h hx hmade
    obtain ⟨u, hrest⟩ := ih hcalls h'
    refine ⟨u, ?_⟩
    rw [List.mapM_cons, Effect.bind_ok heval, Effect.bind_ok hrest]
    exact congrArg (EStateM.Result.ok · u) (results_cons count x calls).symm

/-- A new interpreter runs the program. -/
lemma exists_program {channel : Channel} {mode : Mode} {announced : Bool}
    (hnew : Interpreter.new (.standard channel) mode announced limit .empty = .ok i s)
    (huntraced : mode.traced = false) (hlimit : 5 ≤ limit) :
    i.mode = mode ∧ i.limit = limit ∧
      ∃ t, i.eval programText.toList s = .ok .nil t ∧ Ready i.globals t := by
  obtain ⟨t, hstart, hlt, houtermost, hplus⟩ : ∃ t,
      Interpreter.new (.standard channel) mode announced limit .empty =
        .ok ⟨mode, announced, limit, 0⟩ t ∧
      0 < t.frames.size ∧ (t.frame 0).outer = none ∧
      (t.frame 0).bindings.get? plus = some (.builtin (Arithmetic.add.procedure 0)) := by
    cases channel <;> exact ⟨_, rfl, Nat.one_pos, rfl, rfl⟩
  cases hstart.symm.trans hnew
  refine ⟨rfl, rfl, ?_⟩
  obtain ⟨k, rfl⟩ := Nat.exists_eq_add_of_le' hlimit
  obtain ⟨e, u, he, hkeeps, heval⟩ := Interpreter.exists_eval_of_read
    (i := ⟨mode, announced, k + 5, 0⟩) (read_program hlimit) (by decide +kernel) hlimit s
  have hframe : u.frame 0 = s.frame 0 := hkeeps.frame_eq 0 hlt id
  obtain ⟨t, hrun, hready⟩ := eval_program huntraced (hlt.trans_le hkeeps.frames_le)
    (hframe ▸ houtermost) (hframe ▸ hplus) he (k + 3)
  exact ⟨t, heval.trans hrun, hready⟩

end Sessions

/-- **Counters are private.**  A new interpreter runs the program, then any number of definitions of
counters, and then any sequence of calls of them.  Nothing fails, and a call gives the number of the
calls of the same counter up to it; other calls do not matter.  This is so with every limit that allows
for the nesting of the program.  Steps are not traced, since the events would show the numbers, and
numbers with too many digits cannot be shown. -/
theorem private_counts {channel : Channel} {strict announced : Bool} {limit : Nat} {i : Interpreter}
    {s : Store}
    (hnew : Interpreter.new (.standard channel) ⟨strict, false⟩ announced limit .empty = .ok i s)
    (hlimit : 5 ≤ limit) :
    ∃ t, i.eval programText.toList s = .ok .nil t ∧ ∀ k, ∃ u,
      ((List.range' 1 k).mapM fun c => i.eval (definitionText (counterName c)).toList) t =
        .ok (List.replicate k .nil) u ∧
      ∀ calls : List Nat, (∀ c ∈ calls, 1 ≤ c ∧ c ≤ k) → ∃ w,
        (calls.mapM fun c => i.eval (callText (counterName c)).toList) u =
          .ok (calls.mapIdx fun j c => .number ((calls.take (j + 1)).count c : Nat)) w := by
  obtain ⟨hmode, rfl, t, hprogram, hready⟩ := exists_program hnew rfl hlimit
  have huntraced : i.mode.traced = false := by rw [hmode]
  refine ⟨t, hprogram, fun k => ?_⟩
  have hcounting : Counting i.globals [] (fun _ => 0) (fun _ => 0) t := ⟨hready, nofun, nofun⟩
  have hnames : ∀ x ∈ (List.range' 1 k).map counterName, x.Nameable used :=
    List.forall_mem_map.mpr fun c _ => nameable_counterName c
  obtain ⟨home, u, hdefinitions, hcounting⟩ :=
    exists_definitions huntraced hlimit hnames hcounting
  rw [List.mapM_map, List.length_map, List.length_range'] at hdefinitions
  refine ⟨u, hdefinitions, fun calls hcalls => ?_⟩
  have hmade : ∀ x ∈ calls.map counterName,
      x.Nameable used ∧ x ∈ ((List.range' 1 k).map counterName).reverse ++ [] := by
    refine List.forall_mem_map.mpr fun c hc => ⟨nameable_counterName c, ?_⟩
    obtain ⟨hpos, hle⟩ := hcalls c hc
    simpa using ⟨c, ⟨hpos, by omega⟩, rfl⟩
  obtain ⟨w, hresults⟩ := exists_calls huntraced hlimit hmade hcounting
  rw [List.mapM_map, results_map counterName_injective] at hresults
  exact ⟨w, hresults⟩

/-- Two counters are called in turn. -/
theorem private_counts_alternating : ∃ t u w,
    Interpreter.small.eval programText.toList Interpreter.smallStart = .ok .nil t ∧
    (["(define c1 (make-counter))", "(define c2 (make-counter))"].mapM fun text =>
      Interpreter.small.eval text.toList) t = .ok [.nil, .nil] u ∧
    (["(c1)", "(c2)", "(c1)"].mapM fun text => Interpreter.small.eval text.toList) u =
      .ok [.number 1, .number 1, .number 2] w := by
  have hnew : Interpreter.new (.standard .standard) ⟨false, false⟩ false 30 .empty =
      .ok Interpreter.small Interpreter.smallStart := rfl
  obtain ⟨t, hprogram, hcounters⟩ := private_counts hnew (by decide)
  obtain ⟨u, hdefinitions, hcalls⟩ := hcounters 2
  obtain ⟨w, hresults⟩ := hcalls [1, 2, 1] (by decide)
  have hone : definitionText (counterName 1) = "(define c1 (make-counter))" := by decide +kernel
  have htwo : definitionText (counterName 2) = "(define c2 (make-counter))" := by decide +kernel
  have hone' : callText (counterName 1) = "(c1)" := by decide +kernel
  have htwo' : callText (counterName 2) = "(c2)" := by decide +kernel
  refine ⟨t, u, w, hprogram, ?_, ?_⟩
  · rw [← hone, ← htwo]
    exact hdefinitions
  · rw [← hone', ← htwo']
    exact hresults

end Counters

end SmallScheme
