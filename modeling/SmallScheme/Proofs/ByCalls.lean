import SmallScheme.Proofs.Deed

/-!
# What a step does depends on its calls

The rules of evaluation use their evaluator by calling it and in no other way.  So a step does the
same with another evaluator that answers alike wherever the step calls it, and if one of its calls
fails, the step fails with the same error (`ByCalls`).

Here is the rule for sequences of steps, and then the rules of evaluation one by one, up to
`byCalls_step`.
-/

namespace SmallScheme

/-- What the step does depends only on the answers to the calls that it makes, and it does not
survive a call that fails. -/
structure ByCalls {α : Type} (x : Evaluator → Effect α) : Prop where
  congr : ∀ {ev ev' : Evaluator} {s : Store},
    (∀ call, Consults x ev s call → call.run ev' = call.run ev) → x ev' s = x ev s
  fails : ∀ {ev : Evaluator} {s t : Store} {call : Call} {e : Error}, Consults x ev s call →
    call.run ev = .error e t → x ev s = .error e t

/-! ## Sequences of steps -/

section Rules

variable {α β : Type} {x : Evaluator → Effect α} {f : α → Evaluator → Effect β}

/-- A breakpoint at a call that is not made changes no answer. -/
lemma ByCalls.consults_or_ignores (hx : ByCalls x) (ev : Evaluator) (s : Store) (call : Call) :
    Consults x ev s call ∨ Ignores x ev s call := by
  by_cases h : Consults x ev s call
  · exact .inl h
  · refine .inr fun e => hx.congr fun call' hcall' => ?_
    have hne : call' ≠ call := fun heq => h (heq ▸ hcall')
    exact if_neg hne

lemma byCalls_const (x : Effect α) : ByCalls fun _ => x where
  congr _ := rfl
  fails hconsults _ := absurd (ignores_const x) hconsults.not_ignores

lemma byCalls_call (expr : Value) (env : FrameId) : ByCalls fun ev => ev expr env where
  congr h := h _ fun _ => if_pos rfl
  fails {ev s _ call _} hconsults hcall := by
    rcases consults_or_ignores_call expr env ev s call with ⟨rfl, -⟩ | hignores
    · exact hcall
    · exact absurd hignores hconsults.not_ignores

lemma ByCalls.bind (hx : ByCalls x) (hf : ∀ a, ByCalls (f a)) :
    ByCalls fun ev => x ev >>= fun a => f a ev where
  congr {ev ev' s} h := by
    have hsame : x ev' s = x ev s := hx.congr fun call hcall => h call hcall.bind_left
    cases hok : x ev s with
    | error e t => exact (Effect.bind_error (hsame.trans hok)).trans (Effect.bind_error hok).symm
    | ok a t =>
      refine (Effect.bind_ok (hsame.trans hok)).trans (Eq.trans ?_ (Effect.bind_ok hok).symm)
      refine (hf a).congr fun call hcall => ?_
      rcases hx.consults_or_ignores ev s call with hfirst | hignores
      · exact h call hfirst.bind_left
      · exact h call (hcall.bind_right hignores hok)
  fails {ev s t call e} hconsults hcall := by
    rcases hx.consults_or_ignores ev s call with hfirst | hignores
    · exact Effect.bind_error (hx.fails hfirst hcall)
    · cases hok : x ev s with
      | error e' t' => exact absurd (hignores.bind_error hok) hconsults.not_ignores
      | ok a t' =>
        rcases (hf a).consults_or_ignores ev t' call with hsecond | hignores'
        · exact (Effect.bind_ok hok).trans ((hf a).fails hsecond hcall)
        · exact absurd (hignores.bind_ok hok hignores') hconsults.not_ignores

/-- Nothing is called to look at the store. -/
lemma byCalls_get_bind {f : Store → Evaluator → Effect β} (hf : ∀ s, ByCalls (f s)) :
    ByCalls fun ev => get >>= fun s => f s ev :=
  (byCalls_const get).bind hf

/-- Nothing is called before this step. -/
lemma byCalls_bind_const (x : Effect α) (hf : ∀ a, ByCalls (f a)) :
    ByCalls fun ev => x >>= fun a => f a ev :=
  (byCalls_const x).bind hf

end Rules

/-! ## The rules of evaluation -/

namespace Eval

variable {mode : Mode} {limit : Nat} {env : FrameId}

lemma byCalls_operands (vs : List Value) : ByCalls fun ev => operands ev env vs := by
  induction vs with
  | nil => exact byCalls_const _
  | cons v vs ih =>
    exact (byCalls_call v env).bind fun _ => ih.bind fun _ => byCalls_const _

lemma byCalls_sequence (vs : List Value) : ByCalls fun ev => sequence ev env vs := by
  induction vs with
  | nil => exact byCalls_const _
  | cons v vs ih =>
    cases vs with
    | nil => exact byCalls_call v env
    | cons v' vs =>
      have hfirst : ByCalls fun ev => discard (ev v env) :=
        (byCalls_call v env).bind fun _ => byCalls_const _
      exact hfirst.bind fun _ => ih

lemma byCalls_parts (c : CellId) : ByCalls fun ev => parts limit ev c env := by
  refine byCalls_get_bind fun s => ?_
  have hparts : ByCalls fun ev => (do
      let proc ← ev ((← get).cell c).car env
      let s ← get
      let args ← operands ev env (s.members (s.cell c).cdr)
      return (proc, args) : Effect (Value × List Value)) := by
    refine byCalls_get_bind fun s => (byCalls_call _ env).bind fun proc => ?_
    exact byCalls_get_bind fun s => (byCalls_operands _).bind fun args => byCalls_const _
  cases s.isList (.pair c) with
  | true => exact hparts
  | false =>
    exact byCalls_bind_const _ fun text => byCalls_bind_const _ fun _ => hparts

lemma byCalls_apply (proc : Value) (args : List Value) :
    ByCalls fun ev => apply mode limit ev proc args := by
  refine byCalls_bind_const _ fun _ => ?_
  cases proc with
  | closure k =>
    exact byCalls_get_bind fun s => byCalls_bind_const _ fun env => byCalls_sequence _
  | _ => exact byCalls_const _

lemma byCalls_application (c : CellId) : ByCalls fun ev => application mode limit ev c env := by
  simp only [application_eq]
  exact (byCalls_parts c).bind fun found => byCalls_apply found.1 found.2

lemma byCalls_assign (vs : List Value) : ByCalls fun ev => assign limit ev vs env := by
  unfold assign
  split
  · exact (byCalls_call _ env).bind fun v => byCalls_const _
  · exact byCalls_const _
  · exact byCalls_const _

lemma byCalls_define (vs : List Value) : ByCalls fun ev => define limit ev vs env := by
  refine byCalls_bind_const _ fun definition => ?_
  exact (byCalls_call definition.2 env).bind fun v => byCalls_const _

lemma byCalls_choice (vs : List Value) : ByCalls fun ev => choice ev vs env := by
  unfold choice
  split
  · refine (byCalls_call _ env).bind fun v => ?_
    split
    · exact byCalls_const _
    · exact byCalls_call _ env
  · refine (byCalls_call _ env).bind fun v => ?_
    split
    · exact byCalls_call _ env
    · exact byCalls_call _ env
  · exact byCalls_const _

lemma byCalls_special (form : SpecialForm) (vs : List Value) :
    ByCalls fun ev => special limit ev form vs env := by
  cases form with
  | quote => exact byCalls_const _
  | assign => exact byCalls_assign vs
  | define => exact byCalls_define vs
  | choice => exact byCalls_choice vs
  | cond => exact byCalls_bind_const _ fun expr => byCalls_call expr env
  | letIn =>
    cases vs with
    | nil => exact byCalls_const _
    | cons bindings body => exact byCalls_bind_const _ fun expr => byCalls_call expr env
  | lambda => exact byCalls_const _
  | sequence => exact byCalls_sequence vs

lemma byCalls_combination (c : CellId) : ByCalls fun ev => combination mode limit ev c env := by
  refine byCalls_get_bind fun s => ?_
  split
  · split
    · exact byCalls_special _ _
    · exact byCalls_const _
  · exact byCalls_application c

/-- **What a step of evaluation does depends on its calls only.** -/
theorem byCalls_step (mode : Mode) (limit : Nat) (expr : Value) (env : FrameId) :
    ByCalls fun ev => step mode limit ev expr env := by
  refine byCalls_bind_const _ fun _ => ?_
  split
  · exact byCalls_const _
  · exact byCalls_const _
  · exact byCalls_const _
  · exact byCalls_const _
  · exact byCalls_combination _
  · exact byCalls_const _

end Eval

end SmallScheme
