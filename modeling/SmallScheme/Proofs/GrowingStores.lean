import SmallScheme.Proofs.Execution

/-!
# Values in growing stores

An expression of a program text is evaluated in many stores, always in one that has grown since the
text was loaded, and with many limits.  What it evaluates to is said for all of them at once
(`Evaluates`): the value is given in all stores that the given one has grown into, as soon as the limit
reaches a depth.  The rules for this are read off the expressions.  None of them mentions the stores that
come about in between, and the depth increases with each nesting.

The steps are not reported here.
-/

namespace SmallScheme

variable {mode : Mode} {s t : Store} {f g : FrameId} {d test consequent alternative : Datum}
  {ds : List Datum} {depth depth' limit : Nat} {v w : Value} {vs es : List Value} {x : Symbol}

/-- The expression has the value, and its evaluation lets the store grow at most. -/
def Yields (mode : Mode) (limit : Nat) (e : Value) (f : FrameId) (s : Store) (v : Value) : Prop :=
  ∃ t, eval mode limit e f s = .ok v t ∧ s.Grows t

/-- Whenever the store has grown, and with every limit from the depth on, the expression has the value
in the frame. -/
def Evaluates (mode : Mode) (s : Store) (f : FrameId) (d : Datum) (depth : Nat) (v : Value) : Prop :=
  ∀ t e limit, s.Grows t → t.Unfolds e d → depth ≤ limit → Yields mode limit e f t v

namespace Evaluates

lemma mono (h : Evaluates mode s f d depth v) (hdepth : depth ≤ depth') :
    Evaluates mode s f d depth' v :=
  fun t e limit hgrows he hlimit => h t e limit hgrows he (hdepth.trans hlimit)

lemma number (huntraced : mode.traced = false) (s : Store) (f : FrameId) (n : Int) :
    Evaluates mode s f (.atom (.number n)) 1 (.number n) := by
  intro t e limit hgrows he hlimit
  obtain ⟨limit, rfl⟩ := Nat.exists_eq_add_of_le' hlimit
  cases he.eq_atom
  exact ⟨t, eval_number huntraced limit n f t, .refl t⟩

lemma symbol (huntraced : mode.traced = false) (hf : f < s.frames.size)
    (hlookup : s.lookup? f x = some v) : Evaluates mode s f (.symbol x) 1 v := by
  intro t e limit hgrows he hlimit
  obtain ⟨limit, rfl⟩ := Nat.exists_eq_add_of_le' hlimit
  cases he.eq_atom
  exact ⟨t, eval_symbol huntraced ((hgrows.lookup?_eq hf x).trans hlookup) limit, .refl t⟩

/-- Operands are evaluated one after another. -/
lemma exists_operands (h : List.Forall₂ (Evaluates mode s f · depth ·) ds vs)
    (hgrows : s.Grows t) (hes : List.Forall₂ t.Unfolds es ds) (hlimit : depth ≤ limit) :
    ∃ u, Eval.operands (eval mode limit) f es t = .ok vs u ∧ t.Grows u := by
  induction h generalizing t es with
  | nil =>
    cases hes
    exact ⟨t, rfl, .refl t⟩
  | cons hv _ ih =>
    cases hes with
    | cons he hes =>
      obtain ⟨u, heval, hu⟩ := hv t _ limit hgrows he hlimit
      obtain ⟨w, hrest, hw⟩ := ih (hgrows.trans hu) (hes.imp fun _ _ he => he.mono hu.cells)
      exact ⟨w, operands_cons heval hrest, hu.trans hw⟩

/-- The application of a native procedure that changes nothing. -/
lemma native (huntraced : mode.traced = false) {b : Builtin} (hf : f < s.frames.size)
    (hx : Eval.keyword? (.symbol x) = none) (hlookup : s.lookup? f x = some (.builtin b))
    (hargs : List.Forall₂ (Evaluates mode s f · (depth + 1) ·) ds vs)
    (happly : ∀ limit t, b.apply limit vs t = .ok v t) :
    Evaluates mode s f (.ofList (.symbol x :: ds) .nil) (depth + 2) v := by
  intro t e limit hgrows he hlimit
  obtain ⟨limit, rfl⟩ := Nat.exists_eq_add_of_le' hlimit
  obtain ⟨c, name, operands, rfl, hlist, hname, hoperands⟩ := he.exists_pair
  cases hname.eq_atom
  obtain ⟨u, hvalues, hu⟩ := exists_operands hargs hgrows hoperands
    (show depth + 1 ≤ limit + depth + 1 by omega)
  refine ⟨u, ?_, hu⟩
  have hlookup' := (hgrows.lookup?_eq hf x).trans hlookup
  rw [← Nat.add_assoc, eval_native huntraced hlist hx hlookup' hvalues, happly]

/-- The application of a procedure whose body is one expression.  This is evaluated in a new frame. -/
lemma call (huntraced : mode.traced = false) {k : ClosureId} {params : List Symbol} {e : Value}
    (hf : f < s.frames.size) (hx : Eval.keyword? (.symbol x) = none)
    (hlookup : s.lookup? f x = some (.closure k)) (hk : s.HasClosure k params [e] g)
    (he : s.Unfolds e d) (hlength : params.length ≤ vs.length)
    (hargs : List.Forall₂ (Evaluates mode s f · (depth + 1) ·) ds vs)
    (hbody : ∀ t h, s.Grows t → s.frames.size ≤ h → h < t.frames.size →
      t.frame h = ⟨Bindings.putAll (params.zip vs) [], some g⟩ →
      Evaluates mode t h d (depth + 1) v) :
    Evaluates mode s f (.ofList (.symbol x :: ds) .nil) (depth + 2) v := by
  intro t call limit hgrows hcall hlimit
  obtain ⟨limit, rfl⟩ := Nat.exists_eq_add_of_le' hlimit
  obtain ⟨c, name, operands, rfl, hlist, hname, hoperands⟩ := hcall.exists_pair
  cases hname.eq_atom
  have hle : depth + 1 ≤ limit + depth + 1 := by omega
  obtain ⟨u, hvalues, hu⟩ := exists_operands hargs hgrows hoperands hle
  -- the call has a frame of its own
  set new := (u.addFrame (params.zip vs) (some g)).2
  have hnew : u.Grows new := Store.grows_addFrame _ _ u
  have hold : s.Grows new := (hgrows.trans hu).trans hnew
  have hsize : u.frames.size < new.frames.size := by simp [new, Store.addFrame]
  obtain ⟨w, heval, hw⟩ := hbody new u.frames.size hold (hgrows.trans hu).frames_le hsize
    (Store.frame_addFrame_self _ _ u) new e _ (.refl new) (he.mono hold.cells) hle
  refine ⟨w, ?_, (hu.trans hnew).trans hw⟩
  have hlookup' := (hgrows.lookup?_eq hf x).trans hlookup
  rw [← Nat.add_assoc, eval_call huntraced hlist hx hlookup',
    callWith_eq hvalues ((hgrows.trans hu).closure hk) hlength]
  exact heval

/-- The choice between two expressions, as a list of values. -/
lemma yields_choice (huntraced : mode.traced = false) {c : CellId} {e₁ e₂ e₃ : Value}
    (hlist : t.list? (.pair c) = some [Derived.keyword .choice, e₁, e₂, e₃])
    (he₁ : t.Unfolds e₁ test) (he₂ : t.Unfolds e₂ consequent)
    (he₃ : t.Unfolds e₃ alternative)
    (hgrows : s.Grows t) (hlimit : depth ≤ limit) (htest : Evaluates mode s f test depth w)
    (hbranch : Evaluates mode s f (if w == .bool false then alternative else consequent) depth v) :
    Yields mode (limit + 1) (.pair c) f t v := by
  obtain ⟨u, heval, hu⟩ := htest t e₁ limit hgrows he₁ hlimit
  have hbranch' : u.Unfolds (if w == .bool false then e₃ else e₂)
      (if w == .bool false then alternative else consequent) := by
    split
    · exact he₃.mono hu.cells
    · exact he₂.mono hu.cells
  obtain ⟨u', heval', hu'⟩ := hbranch u _ limit (hgrows.trans hu) hbranch' hlimit
  exact ⟨u', (eval_choice huntraced hlist heval).trans heval', hu.trans hu'⟩

/-- The expression `(if test consequent alternative)`. -/
lemma choice (huntraced : mode.traced = false) (htest : Evaluates mode s f test depth w)
    (hbranch : Evaluates mode s f (if w == .bool false then alternative else consequent) depth v) :
    Evaluates mode s f
      (.ofList [.symbol ⟨"if"⟩, test, consequent, alternative] .nil) (depth + 1) v := by
  intro t e limit hgrows he hlimit
  obtain ⟨limit, rfl⟩ := Nat.exists_eq_add_of_le' hlimit
  obtain ⟨c, keyword, operands, rfl, hlist, hkeyword, hoperands⟩ := he.exists_pair
  obtain _ | ⟨he₁, _ | ⟨he₂, _ | ⟨he₃, ⟨⟩⟩⟩⟩ := hoperands
  cases hkeyword.eq_atom
  exact yields_choice huntraced hlist he₁ he₂ he₃ hgrows (Nat.le_add_left ..) htest hbranch

/-- The expression `(cond (test consequent) (else alternative))`. -/
lemma condElse (huntraced : mode.traced = false)
    (hword : test ≠ .symbol ⟨"else"⟩) (htest : Evaluates mode s f test depth w)
    (hbranch : Evaluates mode s f (if w == .bool false then alternative else consequent) depth v) :
    Evaluates mode s f (.ofList [.symbol ⟨"cond"⟩, .ofList [test, consequent] .nil,
      .ofList [.symbol ⟨"else"⟩, alternative] .nil] .nil) (depth + 2) v := by
  intro t e limit hgrows he hlimit
  obtain ⟨limit, rfl⟩ := Nat.exists_eq_add_of_le' hlimit
  obtain ⟨c, keyword, operands, rfl, hlist, hkeyword, hoperands⟩ := he.exists_pair
  obtain _ | ⟨hfirst, _ | ⟨hlast, ⟨⟩⟩⟩ := hoperands
  cases hkeyword.eq_atom
  obtain ⟨first, hfirst, hmembers⟩ := hfirst.exists_list
  obtain _ | ⟨he₁, _ | ⟨he₂, ⟨⟩⟩⟩ := hmembers
  obtain ⟨last, hlast, hmembers⟩ := hlast.exists_list
  obtain _ | ⟨helse, _ | ⟨he₃, ⟨⟩⟩⟩ := hmembers
  cases helse.eq_atom
  have hnot {e : Value} (he : t.Unfolds e test) : e ≠ .symbol ⟨"else"⟩ := by
    rintro rfl
    cases he
    exact hword rfl
  obtain ⟨d, u, hfresh, hchoice, heval⟩ := eval_condElse huntraced hlist hfirst hlast (hnot he₁)
  have hext := hfresh.cells
  obtain ⟨u', heval', hu'⟩ := yields_choice huntraced hchoice (he₁.mono hext) (he₂.mono hext)
    (he₃.mono hext) (hgrows.trans hfresh.grows) (show depth ≤ limit + depth by omega) htest hbranch
  exact ⟨u', (heval _ f).trans heval', hfresh.grows.trans hu'⟩

end Evaluates

end SmallScheme
