import SmallScheme.Eval
import SmallScheme.Proofs.ExceptBind

/-!
# Errors of printing

The errors that a program or a limit leads to without any help of an embedding program are called
ordinary (`Error.Ordinary`).  Printing fails only because of a limit, and so with ordinary errors: a
value is nested too deeply, or a number in it has too many digits (`Store.unprintable_of_render`).
Hence a report either adds its event, or fails because of a limit.
-/

namespace SmallScheme

/-- The errors that programs and limits lead to. -/
def Error.Ordinary : Error → Prop
  | .stated _ | .host .. | .emptyName | .invalidPath => False
  | _ => True

/-- The errors that limits lead to. -/
def Error.OfLimit : Error → Prop
  | .tooDeep | .tooManyDigits => True
  | _ => False

lemma Error.OfLimit.ordinary {e : Error} (h : e.OfLimit) : e.Ordinary := by
  cases e <;> trivial

lemma Error.ordinary_of_eq_tooDeep {e : Error} (h : e = .tooDeep) : e.Ordinary := by
  rw [h]
  trivial

/-- Ordinary errors of native procedures are reported as they are. -/
lemma Builtin.report_of_ordinary {b : Builtin} {e : Error} (h : e.Ordinary) : b.report e = e := by
  cases e with
  | host => exact h.elim
  | _ => rfl

namespace Store

/-- The number is found in the value by following the parts of pairs. -/
inductive Contains (s : Store) : Value → Int → Prop
  | here (n : Int) : Contains s (.number n) n
  | car {c : CellId} {n : Int} : Contains s (s.cell c).car n → Contains s (.pair c) n
  | cdr {c : CellId} {n : Int} : Contains s (s.cell c).cdr n → Contains s (.pair c) n

/-- A number in the value has more digits than a decimal numeral may have. -/
def HasLongNumber (s : Store) (v : Value) : Prop :=
  ∃ n, s.Contains v n ∧ Numeral.decimalBound ≤ n.natAbs

/-- Why a value cannot be printed. -/
inductive Unprintable (s : Store) : Value → Error → Prop
  | tooDeep (v : Value) : Unprintable s v .tooDeep
  | tooManyDigits {v : Value} : s.HasLongNumber v → Unprintable s v .tooManyDigits

variable {s : Store} {v : Value} {c : CellId} {limit : Nat} {e : Error}

lemma HasLongNumber.of_car (h : s.HasLongNumber (s.cell c).car) : s.HasLongNumber (.pair c) :=
  h.imp fun _ ⟨hcontains, hlong⟩ => ⟨.car hcontains, hlong⟩

lemma HasLongNumber.of_cdr (h : s.HasLongNumber (s.cell c).cdr) : s.HasLongNumber (.pair c) :=
  h.imp fun _ ⟨hcontains, hlong⟩ => ⟨.cdr hcontains, hlong⟩

namespace Unprintable

lemma of_car (h : s.Unprintable (s.cell c).car e) : s.Unprintable (.pair c) e := by
  cases h with
  | tooDeep => exact .tooDeep _
  | tooManyDigits hlong => exact .tooManyDigits hlong.of_car

lemma of_cdr (h : s.Unprintable (s.cell c).cdr e) : s.Unprintable (.pair c) e := by
  cases h with
  | tooDeep => exact .tooDeep _
  | tooManyDigits hlong => exact .tooManyDigits hlong.of_cdr

lemma ofLimit (h : s.Unprintable v e) : e.OfLimit := by
  cases h <;> trivial

lemma hasLongNumber (h : s.Unprintable v .tooManyDigits) : s.HasLongNumber v := by
  cases h with
  | tooManyDigits hlong => exact hlong

end Unprintable

/-- Only a number may have no written form. -/
lemma unprintable_atom {a : Atom} (h : writtenForm a.text? = .error e) :
    s.Unprintable (.atom a) e := by
  cases a with
  | number n =>
    cases hwritten : Numeral.decimal? n with
    | some text =>
      simp only [Atom.text?, hwritten, writtenForm] at h
      cases h
    | none =>
      simp only [Atom.text?, hwritten, writtenForm] at h
      cases h
      refine .tooManyDigits ⟨n, .here n, not_lt.mp fun hshort => ?_⟩
      have hsome := Numeral.decimal?_isSome_iff.mpr hshort
      rw [hwritten] at hsome
      cases hsome
  | bool b => cases b <;> cases h
  | nil | symbol x | text t => cases h

section Parts

variable {part : List CellId → Value → Except Error String} {active : List CellId}

lemma unprintable_of_lastPart (hpart : ∀ active v e, part active v = .error e → s.Unprintable v e)
    (h : (do return [".", ← part active v]) = .error e) : s.Unprintable v e := by
  rcases bind_eq_error.mp h with hv | ⟨_, _, h⟩
  · exact hpart _ _ _ hv
  · cases h

lemma unprintable_of_renderParts
    (hpart : ∀ active v e, part active v = .error e → s.Unprintable v e) {room : Nat}
    (h : s.renderParts part room active v = .error e) : s.Unprintable v e := by
  induction room generalizing active v with
  | zero =>
    unfold renderParts at h
    split at h
    · rename_i heq
      cases heq
    · cases h
    · cases h
    · split at h
      · cases h
      · exact unprintable_of_lastPart hpart h
    · exact unprintable_of_lastPart hpart h
  | succ room ih =>
    unfold renderParts at h
    split at h
    · rename_i heq
      cases heq
      split at h
      · cases h
      · rcases bind_eq_error.mp h with hfirst | ⟨_, _, h⟩
        · exact (hpart _ _ _ hfirst).of_car
        · rcases bind_eq_error.mp h with hrest | ⟨_, _, h⟩
          · exact (ih hrest).of_cdr
          · cases h
    · cases h
    · cases h
    · split at h
      · cases h
      · exact unprintable_of_lastPart hpart h
    · exact unprintable_of_lastPart hpart h

end Parts

lemma unprintable_of_renderWithin {active : List CellId}
    (h : s.renderWithin limit active v = .error e) : s.Unprintable v e := by
  induction limit generalizing active v e with
  | zero =>
    cases v with
    | atom a => exact unprintable_atom (by simpa [renderWithin] using h)
    | pair c =>
      cases h
      exact .tooDeep _
    | _ => simp [renderWithin] at h
  | succ limit ih =>
    cases v with
    | atom a => exact unprintable_atom (by simpa [renderWithin] using h)
    | pair c =>
      simp only [renderWithin] at h
      split at h
      · cases h
      · rcases bind_eq_error.mp h with hparts | ⟨_, _, h⟩
        · exact unprintable_of_renderParts (fun _ _ _ => ih) hparts
        · cases h
    | _ => simp [renderWithin] at h

/-- **Printing fails only because of a limit**: the value is nested too deeply, or a number in it
has too many digits. -/
theorem unprintable_of_render (h : s.render limit v = .error e) : s.Unprintable v e :=
  unprintable_of_renderWithin h

lemma ofLimit_of_render (h : s.render limit v = .error e) : e.OfLimit :=
  (unprintable_of_render h).ofLimit

lemma ofLimit_of_display (h : s.display limit v = .error e) : e.OfLimit := by
  cases v with
  | pair c =>
    rcases bind_eq_error.mp h with hrender | ⟨_, _, h⟩
    · exact ofLimit_of_render hrender
    · cases h
  | _ => exact ofLimit_of_render h

end Store

/-! ## Texts and reports -/

namespace Effect

variable {limit : Nat} {s : Store}

lemma shown_cases (limit : Nat) (v : Value) (s : Store) :
    (∃ text, shown limit v s = .ok text s) ∨
      ∃ e, s.render limit v = .error e ∧ shown limit v s = .error e s := by
  cases h : s.render limit v with
  | ok text => exact .inl ⟨text, ask_ok h⟩
  | error e => exact .inr ⟨e, rfl, ask_error h⟩

lemma mapM_shown_cases (limit : Nat) (vs : List Value) (s : Store) :
    (∃ texts, vs.mapM (shown limit) s = .ok texts s) ∨
      ∃ v ∈ vs, ∃ e, s.render limit v = .error e ∧ vs.mapM (shown limit) s = .error e s := by
  induction vs with
  | nil => exact .inl ⟨[], rfl⟩
  | cons v vs ih =>
    rw [List.mapM_cons]
    rcases shown_cases limit v s with ⟨text, hv⟩ | ⟨e, he, hv⟩
    · rw [bind_ok hv]
      rcases ih with ⟨texts, hvs⟩ | ⟨v', hv', e, he, hvs⟩
      · exact .inl ⟨text :: texts, bind_ok hvs⟩
      · exact .inr ⟨v', List.mem_cons_of_mem v hv', e, he, bind_error hvs⟩
    · exact .inr ⟨v, List.mem_cons_self, e, he, bind_error hv⟩

end Effect

namespace Mode

variable {mode : Mode}

lemma reportEval_cases (htraced : mode.traced = true) (limit : Nat) (expr : Value) (s : Store) :
    (∃ event, mode.reportEval limit expr s = .ok () (s.report event)) ∨
      ∃ e, s.render limit expr = .error e ∧ mode.reportEval limit expr s = .error e s := by
  unfold reportEval
  rw [if_pos htraced]
  rcases Effect.shown_cases limit expr s with ⟨form, hexpr⟩ | ⟨e, he, hexpr⟩
  · rw [Effect.bind_ok hexpr]
    exact .inl ⟨_, rfl⟩
  · exact .inr ⟨e, he, Effect.bind_error hexpr⟩

lemma reportApply_cases (htraced : mode.traced = true) (limit : Nat) (proc : Value)
    (args : List Value) (s : Store) :
    (∃ event, mode.reportApply limit proc args s = .ok () (s.report event)) ∨
      ∃ v ∈ proc :: args, ∃ e, s.render limit v = .error e ∧
        mode.reportApply limit proc args s = .error e s := by
  unfold reportApply
  rw [if_pos htraced]
  rcases Effect.shown_cases limit proc s with ⟨procedure, hproc⟩ | ⟨e, he, hproc⟩
  · rw [Effect.bind_ok hproc]
    rcases Effect.mapM_shown_cases limit args s with ⟨arguments, hargs⟩ | ⟨v, hv, e, he, hargs⟩
    · rw [Effect.bind_ok hargs]
      exact .inl ⟨_, rfl⟩
    · exact .inr ⟨v, List.mem_cons_of_mem proc hv, e, he, Effect.bind_error hargs⟩
  · exact .inr ⟨proc, List.mem_cons_self, e, he, Effect.bind_error hproc⟩

/-- In every mode, the report of an application changes nothing but the events. -/
lemma reportApply_outcome (mode : Mode) (limit : Nat) (proc : Value) (args : List Value)
    (s : Store) :
    (∃ events, mode.reportApply limit proc args s = .ok () { s with events := events }) ∨
      ∃ e, e.OfLimit ∧ mode.reportApply limit proc args s = .error e s := by
  cases htraced : mode.traced with
  | true =>
    rcases reportApply_cases htraced limit proc args s with ⟨event, hok⟩ | ⟨_, -, e, he, herror⟩
    · exact .inl ⟨_, hok⟩
    · exact .inr ⟨e, Store.ofLimit_of_render he, herror⟩
  | false =>
    unfold reportApply
    rw [htraced]
    exact .inl ⟨s.events, rfl⟩

end Mode

end SmallScheme
