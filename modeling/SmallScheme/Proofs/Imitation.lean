import SmallScheme.Proofs.RepeatedEval
import SmallScheme.Proofs.StrictReads

/-!
# Imitations

A derived form is expanded into other expressions, and these are evaluated.  It means a procedure that
is much simpler: one that evaluates some parts of the form in some order.  To compare both, the
procedure is written for any way to evaluate the parts.  Limits do not count, so the procedure ends
(`EndsBy`) if it does so with some limit, and with a larger one it ends in the same way if it is
steady (`Steady`).

The evaluation of the expanded form imitates the procedure if it ends in the same way in the second
store of a replication, and if it ends only if the procedure does (`Replication.Imitates`).  The
expressions of the expanded form are hidden: only the second store has their cells, and they cannot
be reached from what the program knows (`Replication.Hides`).
-/

namespace SmallScheme

variable {α β γ δ : Type} {mode : Mode} {limit limit' : Nat} {s t t' : Store}

/-! ## Procedures -/

section Procedures

variable {x : Evaluator → Effect α} {f : α → Evaluator → Effect β}
  {r : EStateM.Result Error Store α} {r₂ : EStateM.Result Error Store β}

/-- The procedure ends in this way, unless the limit is too small. -/
def EndsBy (mode : Mode) (x : Evaluator → Effect α) (s : Store)
    (r : EStateM.Result Error Store α) : Prop :=
  (∀ t, r ≠ .error .tooDeep t) ∧ ∃ limit, x (eval mode limit) s = r

/-- The procedure uses an evaluator by its calls only. -/
def Steady (x : Evaluator → Effect α) : Prop :=
  ∀ (P : RunPair) {ev ev' : Evaluator}, P.AbridgesEach ev ev' → P.Abridges (x ev) (x ev')

lemma steady_pure (a : α) : Steady fun _ => pure a :=
  fun _ _ _ _ => RunPair.abridges_pure a

lemma steady_call (expr : Value) (env : FrameId) : Steady fun ev => ev expr env :=
  fun _ _ _ hev => hev expr env

lemma Steady.bind (hx : Steady x) (hf : ∀ a, Steady (f a)) : Steady fun ev => x ev >>= (f · ev) :=
  fun P _ _ hev => (hx P hev).bind fun a => hf a P hev

lemma Steady.ite {y : Evaluator → Effect α} {p : Prop} [Decidable p] (hx : Steady x)
    (hy : Steady y) : Steady fun ev => if p then x ev else y ev := by
  by_cases hp : p
  · simpa only [if_pos hp] using hx
  · simpa only [if_neg hp] using hy

lemma steady_operands (env : FrameId) (exprs : List Value) :
    Steady fun ev => Eval.operands ev env exprs :=
  fun _ _ _ hev => RunPair.abridges_operands hev exprs

lemma steady_sequence (env : FrameId) (forms : List Value) :
    Steady fun ev => Eval.sequence ev env forms :=
  fun _ _ _ hev => RunPair.abridges_sequence hev forms

/-- A larger limit changes nothing for a procedure that has not been nested too deeply. -/
lemma Steady.eq_of_le (hx : Steady x) (hle : limit ≤ limit') (hr : ∀ t, r ≠ .error .tooDeep t)
    (h : x (eval mode limit) s = r) : x (eval mode limit') s = r := by
  have hlimits : Limits (RunPair.ofLimits mode).Stops limit limit' := .inr ⟨hle, rfl⟩
  have heval : (RunPair.ofLimits mode).AbridgesEach (eval mode limit) (eval mode limit') :=
    RunPair.abridges_eval hlimits
  rcases (hx (.ofLimits mode) heval).run s with heq | ⟨e, t, hstop, he, -⟩
  · have hsame : x (eval mode limit') s = (RunPair.ofLimits mode).viewResult r := h ▸ heq
    rwa [RunPair.viewResult_eq rfl] at hsame
  · have hdeep : e = .tooDeep := he
    subst hdeep
    exact absurd (h.symm.trans hstop) (hr t)

lemma endsBy_congr {y : Evaluator → Effect α} (h : ∀ ev, x ev s = y ev t) :
    EndsBy mode x s r ↔ EndsBy mode y t r := by
  simp only [EndsBy, h]

lemma EndsBy.bind_ok {a : α} (hx : Steady x) (hf : Steady (f a)) (h : EndsBy mode x s (.ok a t))
    (h' : EndsBy mode (f a) t r₂) : EndsBy mode (fun ev => x ev >>= (f · ev)) s r₂ := by
  obtain ⟨hr, limit, hlimit⟩ := h
  obtain ⟨hr', limit', hlimit'⟩ := h'
  refine ⟨hr', max limit limit', ?_⟩
  show (x (eval mode (max limit limit')) >>= (f · (eval mode (max limit limit')))) s = r₂
  rw [Effect.bind_ok (hx.eq_of_le (le_max_left _ _) hr hlimit)]
  exact hf.eq_of_le (le_max_right _ _) hr' hlimit'

lemma EndsBy.bind_error {e : Error} (h : EndsBy mode x s (.error e t)) :
    EndsBy mode (fun ev => x ev >>= (f · ev)) s (.error e t) := by
  obtain ⟨hr, limit, hlimit⟩ := h
  refine ⟨fun u hu => hr u ?_, limit, Effect.bind_error hlimit⟩
  cases hu
  rfl

lemma EndsBy.bind_cases (h : EndsBy mode (fun ev => x ev >>= (f · ev)) s r₂) :
    (∃ e t, EndsBy mode x s (.error e t) ∧ r₂ = .error e t) ∨
      ∃ a t, EndsBy mode x s (.ok a t) ∧ EndsBy mode (f a) t r₂ := by
  obtain ⟨hr, limit, hlimit⟩ := h
  cases hx : x (eval mode limit) s with
  | ok a t =>
    exact .inr ⟨a, t, ⟨nofun, limit, hx⟩, hr, limit, (Effect.bind_ok hx).symm.trans hlimit⟩
  | error e t =>
    have heq : r₂ = .error e t := hlimit.symm.trans (Effect.bind_error hx)
    refine .inl ⟨e, t, ⟨fun u hu => hr u (heq.trans ?_), limit, hx⟩, heq⟩
    cases hu
    rfl

/-- A special form is recognized by its keyword. -/
lemma keyword?_car {c : CellId} {form : SpecialForm} {args : List Value}
    (hlist : s.list? (.pair c) = some (Derived.keyword form :: args)) :
    Eval.keyword? (s.cell c).car = some form := by
  rw [(Store.parts_of_list? hlist).1]
  exact SpecialForm.ofSymbol?_keyword form

/-- Nothing is reported unless it is asked for. -/
lemma reportEval_untraced (huntraced : mode.traced = false) (limit : Nat) (v : Value) :
    mode.reportEval limit v = pure () := by
  unfold Mode.reportEval
  rw [huntraced]
  rfl

lemma step_pair (huntraced : mode.traced = false) (limit : Nat) (ev : Evaluator) (c : CellId)
    (env : FrameId) :
    Eval.step mode limit ev (.pair c) env = Eval.combination mode limit ev c env := by
  rw [Eval.step, reportEval_untraced huntraced, pure_bind]

/-- A special form is evaluated by its rule. -/
lemma step_special {c : CellId} {form : SpecialForm} {v : Value} {args : List Value}
    (huntraced : mode.traced = false) (hkeyword : Eval.keyword? (t.cell c).car = some form)
    (hlist : t.list? (.pair c) = some (v :: args)) (limit : Nat) (ev : Evaluator) (env : FrameId) :
    Eval.step mode limit ev (.pair c) env t = Eval.special limit ev form args env t := by
  rw [step_pair huntraced, Eval.combination, Effect.get_bind, hkeyword, hlist]
  rfl

/-- An expression ends as the procedure does by which it is evaluated, whatever limit is left for the
expression itself. -/
lemma ends_iff_of_step {expr : Value} {env : FrameId} {x : Evaluator → Effect Value}
    {r : EStateM.Result Error Store Value}
    (hstep : ∀ limit ev, Eval.step mode limit ev expr env t = x ev t') :
    Ends mode expr env t r ↔ EndsBy mode x t' r := by
  constructor
  · rintro ⟨hr, limit, hlimit⟩
    cases limit with
    | zero => exact absurd hlimit.symm (hr t)
    | succ limit => exact ⟨hr, limit, (hstep limit _).symm.trans hlimit⟩
  · rintro ⟨hr, limit, hlimit⟩
    exact ⟨hr, limit + 1, (hstep limit _).trans hlimit⟩

lemma ends_special_iff {c : CellId} {form : SpecialForm} {v : Value} {args : List Value}
    {env : FrameId} {x : Evaluator → Effect Value} {r : EStateM.Result Error Store Value}
    (huntraced : mode.traced = false) (hkeyword : Eval.keyword? (t.cell c).car = some form)
    (hlist : t.list? (.pair c) = some (v :: args))
    (hx : ∀ limit ev, Eval.special limit ev form args env t = x ev t') :
    Ends mode (.pair c) env t r ↔ EndsBy mode x t' r :=
  ends_iff_of_step fun limit ev =>
    (step_special huntraced hkeyword hlist limit ev env).trans (hx limit ev)

end Procedures

/-! ## Lists of given cells -/

namespace Store

variable {P P' : CellId → Prop} {v : Value} {vs : List Value}

/-- The value is a list with the given members, and all its cells are among the given ones. -/
def ListIn (s : Store) (P : CellId → Prop) (v : Value) (members : List Value) : Prop :=
  ∃ cs, s.Spine v cs .nil ∧ (∀ d ∈ cs, P d) ∧ members = cs.map fun d => (s.cell d).car

lemma ListIn.mono (h : s.ListIn P v vs) (hext : s.Extends t)
    (hcells : ∀ d < s.cells.size, P d → P' d) : t.ListIn P' v vs := by
  obtain ⟨cs, hspine, hcs, rfl⟩ := h
  exact ⟨cs, hspine.mono hext, fun d hd => hcells d (hspine.lt_of_mem hd) (hcs d hd),
    (hspine.map_car_eq hext).symm⟩

lemma ListIn.list?_eq (h : s.ListIn P v vs) : s.list? v = some vs := by
  obtain ⟨cs, hspine, -, rfl⟩ := h
  rw [list?, hspine.chain?_eq]

/-- A new pair in front of a list. -/
lemma ListIn.cons (h : s.ListIn P v vs) (w : Value) (hnew : P s.cells.size) :
    (s.cons w v).2.ListIn P (s.cons w v).1 (w :: vs) := by
  obtain ⟨cs, hspine, hcs, rfl⟩ := h
  exact ⟨s.cells.size :: cs, hspine.cons w, List.forall_mem_cons.mpr ⟨hnew, hcs⟩,
    (hspine.map_car_cons w).symm⟩

/-- A new list has new cells. -/
lemma listIn_list (vs : List Value) (s : Store) :
    (s.list vs).2.ListIn (s.cells.size ≤ ·) (s.list vs).1 vs := by
  have hnil : s.Spine .nil [] .nil := .last nofun
  obtain ⟨new, hspine, hmembers, hnew⟩ := hnil.exists_chain vs
  simp only [List.append_nil, List.map_nil] at hspine hmembers
  exact ⟨new, hspine, hnew, hmembers.symm⟩

end Store

namespace Replication

variable {R : Replication} {n : Nat} {v w : Value} {vs ws : List Value}

/-! ## Imitations -/

section Imitations

variable {Q : Nat → α → β → Prop} {Q' : Nat → γ → δ → Prop} {x : Evaluator → Effect α}
  {y y' : Evaluator → Effect β} {f : α → Evaluator → Effect γ} {g : β → Evaluator → Effect δ}

/-- The second procedure ends as the first one does, and only if it does. -/
structure Imitates (R : Replication) (mode : Mode) (n : Nat) (Q : Nat → α → β → Prop)
    (x : Evaluator → Effect α) (y : Evaluator → Effect β) : Prop where
  imitation : ∀ {s t}, R.Holds s t → n ≤ s.cells.size → ∀ {r}, EndsBy mode x s r →
    ∃ r', EndsBy mode y t r' ∧ R.Outcome n Q r r'
  original : ∀ {s t}, R.Holds s t → n ≤ s.cells.size → ∀ {r'}, EndsBy mode y t r' →
    ∃ r, EndsBy mode x s r ∧ R.Outcome n Q r r'

/-- What is nested too deeply in one store is so in the other one. -/
lemma Outcome.tooDeep_iff {r : EStateM.Result Error Store α} {r' : EStateM.Result Error Store β}
    (h : R.Outcome n Q r r') : (∀ t, r ≠ .error .tooDeep t) ↔ ∀ t, r' ≠ .error .tooDeep t := by
  cases h with
  | ok => exact ⟨fun _ => nofun, fun _ => nofun⟩
  | @error e s t =>
    constructor <;>
    · intro hr u hu
      cases hu
      exact hr _ rfl

lemma imitates_of_repeats (h : ∀ limit, R.Repeats n Q (x (eval mode limit)) (y (eval mode limit))) :
    R.Imitates mode n Q x y where
  imitation {s t} hs hn {r} hends := by
    obtain ⟨hr, limit, rfl⟩ := hends
    have hout := h limit s t hs hn
    exact ⟨_, ⟨hout.tooDeep_iff.mp hr, limit, rfl⟩, hout⟩
  original {s t} hs hn {r'} hends := by
    obtain ⟨hr, limit, rfl⟩ := hends
    have hout := h limit s t hs hn
    exact ⟨_, ⟨hout.tooDeep_iff.mpr hr, limit, rfl⟩, hout⟩

lemma imitates_call (env : FrameId) (hv : R.Copies n v w) :
    R.Imitates mode n R.Copies (fun ev => ev v env) fun ev => ev w env :=
  imitates_of_repeats fun limit => repeats_eval R mode limit env hv

lemma imitates_operands (env : FrameId) (hvs : R.CopiesAll n vs ws) :
    R.Imitates mode n R.CopiesAll (fun ev => Eval.operands ev env vs) fun ev =>
      Eval.operands ev env ws :=
  imitates_of_repeats fun limit => repeats_operands (repeats_eval R mode limit) hvs

lemma imitates_sequence (env : FrameId) (hvs : R.CopiesAll n vs ws) :
    R.Imitates mode n R.Copies (fun ev => Eval.sequence ev env vs) fun ev =>
      Eval.sequence ev env ws :=
  imitates_of_repeats fun limit => repeats_sequence (repeats_eval R mode limit) hvs

lemma imitates_const {x : Effect α} {y : Effect β} (h : R.Repeats n Q x y) :
    R.Imitates mode n Q (fun _ => x) fun _ => y :=
  imitates_of_repeats fun _ => h

/-- A sequence of procedures is imitated step by step. -/
lemma Imitates.bind (hx : R.Imitates mode n Q x y)
    (hf : ∀ k a b, n ≤ k → Q k a b → R.Imitates mode k Q' (f a) (g b)) (hsx : Steady x)
    (hsy : Steady y) (hsf : ∀ a, Steady (f a)) (hsg : ∀ b, Steady (g b)) :
    R.Imitates mode n Q' (fun ev => x ev >>= (f · ev)) fun ev => y ev >>= (g · ev) where
  imitation {s t} hs hn {r} hends := by
    rcases hends.bind_cases with ⟨e, u, he, rfl⟩ | ⟨a, u, ha, hends'⟩
    · obtain ⟨r', hr', hout⟩ := hx.imitation hs hn he
      cases hout with
      | error hs' hn' => exact ⟨_, hr'.bind_error, .error hs' hn'⟩
    · obtain ⟨r', hr', hout⟩ := hx.imitation hs hn ha
      cases hout with
      | ok hs' hn' hq =>
        obtain ⟨r'', hr'', hout⟩ := (hf _ _ _ hn' hq).imitation hs' le_rfl hends'
        exact ⟨r'', hr'.bind_ok hsy (hsg _) hr'', hout.mono hn'⟩
  original {s t} hs hn {r'} hends := by
    rcases hends.bind_cases with ⟨e, u, he, rfl⟩ | ⟨b, u, hb, hends'⟩
    · obtain ⟨r, hr, hout⟩ := hx.original hs hn he
      cases hout with
      | error hs' hn' => exact ⟨_, hr.bind_error, .error hs' hn'⟩
    · obtain ⟨r, hr, hout⟩ := hx.original hs hn hb
      cases hout with
      | ok hs' hn' hq =>
        obtain ⟨r'', hr'', hout⟩ := (hf _ _ _ hn' hq).original hs' le_rfl hends'
        exact ⟨r'', hr.bind_ok hsx (hsf _) hr'', hout.mono hn'⟩

/-- What ends like an imitation is an imitation. -/
lemma Imitates.congr (h : R.Imitates mode n Q x y)
    (hy : ∀ {s t}, R.Holds s t → n ≤ s.cells.size → ∀ r, EndsBy mode y' t r ↔ EndsBy mode y t r) :
    R.Imitates mode n Q x y' where
  imitation hs hn _ hends := by
    obtain ⟨r', hr', hout⟩ := h.imitation hs hn hends
    exact ⟨r', (hy hs hn r').mpr hr', hout⟩
  original hs hn r' hends := h.original hs hn ((hy hs hn r').mp hends)

end Imitations

/-! ## Hidden cells -/

/-- The cell is one that only the second store has. -/
def Hides (R : Replication) (d : CellId) : Prop :=
  ∀ c, R.cell c ≠ d

namespace Holds

/-- Hidden cells are not changed. -/
lemma spine_hidden (h : R.Holds s t) {cs : List CellId} {last : Value}
    (hspine : R.second.Spine v cs last) (hcs : ∀ d ∈ cs, R.Hides d) : t.Spine v cs last := by
  induction hspine with
  | last hne => exact .last hne
  | @pair d cs last _ _ ih =>
    rw [List.forall_mem_cons] at hcs
    have hcell : t.cell d = R.second.cell d := h.otherCell d hcs.1
    have hd : d < t.cells.size := by
      by_contra hd
      obtain ⟨i, hi⟩ := Nat.exists_eq_add_of_le (not_lt.mp hd)
      exact hcs.1 _ ((h.nextCell i).trans hi.symm)
    exact .pair hd (hcell ▸ ih hcs.2)

lemma list?_hidden (h : R.Holds s t) (hlist : R.second.ListIn R.Hides v vs) :
    t.list? v = some vs := by
  obtain ⟨cs, hspine, hcs, rfl⟩ := hlist
  refine Store.ListIn.list?_eq (P := R.Hides) ⟨cs, h.spine_hidden hspine hcs, hcs, ?_⟩
  exact List.map_congr_left fun d hd => congrArg Cell.car (h.otherCell d (hcs d hd)).symm

lemma car_hidden (h : R.Holds s t) {d : CellId}
    (hlist : R.second.ListIn R.Hides (.pair d) (v :: vs)) : (t.cell d).car = v := by
  obtain ⟨cs, hspine, hcs, hmembers⟩ := hlist
  obtain ⟨-, ds, rfl, -⟩ := hspine.pair_inv
  rw [h.otherCell d (hcs d (by simp))]
  exact (List.cons.inj hmembers).1.symm

end Holds

end Replication

end SmallScheme
