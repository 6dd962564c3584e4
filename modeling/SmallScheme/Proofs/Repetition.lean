import SmallScheme.Proofs.Consultation
import SmallScheme.Proofs.RenamedReading

/-!
# Repetitions

A step is repeated in the second store of a replication if it ends there as it does in the first one:
with the same error, or with a result that is the same but for the numbers in it, and in stores of
which the replication holds again (`Replication.Repeats`).  Which results correspond is said for each
kind of result by a relation that depends on how many cells there are, since values that are used
later have to be among those of the store.

Here are the rules for sequences of steps, for messages and for reports; the rules of the language
follow.
-/

namespace SmallScheme

namespace Replication

variable {R : Replication} {α β : Type} {m n : Nat} {v w : Value} {vs ws : List Value}

/-! ## Results that correspond -/

/-- What does not mention any number is the same. -/
def Same (_ : Nat) (a b : α) : Prop :=
  b = a

/-- The value has the other number. -/
def Copies (R : Replication) (n : Nat) (v w : Value) : Prop :=
  w = R.value v ∧ v.Within n

/-- The values have the other numbers. -/
def CopiesAll (R : Replication) (n : Nat) (vs ws : List Value) : Prop :=
  ws = vs.map R.value ∧ ∀ v ∈ vs, v.Within n

/-- The cell has the other number. -/
def CopiesCell (R : Replication) (n : Nat) (c d : CellId) : Prop :=
  d = R.cell c ∧ c < n

lemma Copies.mono (h : R.Copies m v w) (hle : m ≤ n) : R.Copies n v w :=
  ⟨h.1, h.2.mono hle⟩

lemma CopiesAll.mono (h : R.CopiesAll m vs ws) (hle : m ≤ n) : R.CopiesAll n vs ws :=
  ⟨h.1, fun v hv => (h.2 v hv).mono hle⟩

lemma copies_atom (n : Nat) (a : Atom) : R.Copies n (.atom a) (.atom a) :=
  ⟨rfl, trivial⟩

lemma copiesAll_nil (n : Nat) : R.CopiesAll n [] [] :=
  ⟨rfl, List.forall_mem_nil _⟩

lemma CopiesAll.cons (hv : R.Copies n v w) (hvs : R.CopiesAll n vs ws) :
    R.CopiesAll n (v :: vs) (w :: ws) :=
  ⟨by rw [hv.1, hvs.1, List.map_cons], List.forall_mem_cons.mpr ⟨hv.2, hvs.2⟩⟩

lemma CopiesAll.of_cons (h : R.CopiesAll n (v :: vs) ws) :
    ∃ w ws', ws = w :: ws' ∧ R.Copies n v w ∧ R.CopiesAll n vs ws' := by
  obtain ⟨rfl, hwithin⟩ := h
  rw [List.forall_mem_cons] at hwithin
  exact ⟨_, _, rfl, ⟨rfl, hwithin.1⟩, rfl, hwithin.2⟩

lemma CopiesAll.of_nil (h : R.CopiesAll n [] ws) : ws = [] :=
  h.1

lemma CopiesAll.length_eq (h : R.CopiesAll n vs ws) : ws.length = vs.length := by
  rw [h.1, List.length_map]

/-! ## Steps that are repeated -/

/-- How a step and its repetition end. -/
inductive Outcome (R : Replication) (n : Nat) (Q : Nat → α → β → Prop) :
    EStateM.Result Error Store α → EStateM.Result Error Store β → Prop
  | ok {a : α} {b : β} {s t : Store} : R.Holds s t → n ≤ s.cells.size → Q s.cells.size a b →
      Outcome R n Q (.ok a s) (.ok b t)
  | error {e : Error} {s t : Store} : R.Holds s t → n ≤ s.cells.size →
      Outcome R n Q (.error e s) (.error e t)

/-- The second step repeats the first one wherever at least the given number of cells is there. -/
def Repeats (R : Replication) (n : Nat) (Q : Nat → α → β → Prop) (x : Effect α) (y : Effect β) :
    Prop :=
  ∀ s t, R.Holds s t → n ≤ s.cells.size → R.Outcome n Q (x s) (y t)

section Rules

variable {γ δ : Type} {Q : Nat → α → β → Prop} {Q' : Nat → γ → δ → Prop} {x : Effect α}
  {y : Effect β} {f : α → Effect γ} {g : β → Effect δ}

lemma Outcome.mono {r : EStateM.Result Error Store α} {r' : EStateM.Result Error Store β}
    (h : R.Outcome n Q r r') (hle : m ≤ n) : R.Outcome m Q r r' := by
  cases h with
  | ok h hn hq => exact .ok h (hle.trans hn) hq
  | error h hn => exact .error h (hle.trans hn)

lemma repeats_pure {a : α} {b : β} (h : ∀ k, n ≤ k → Q k a b) :
    R.Repeats n Q (pure a) (pure b) :=
  fun _ _ hs hn => .ok hs hn (h _ hn)

lemma repeats_throw (e : Error) : R.Repeats n Q (throw e) (throw e) :=
  fun _ _ hs hn => .error hs hn

lemma Repeats.bind (hx : R.Repeats n Q x y)
    (hf : ∀ k a b, n ≤ k → Q k a b → R.Repeats k Q' (f a) (g b)) :
    R.Repeats n Q' (x >>= f) (y >>= g) := by
  intro s t hs hn
  have hout := hx s t hs hn
  generalize hr : x s = r at hout
  generalize hr' : y t = r' at hout
  cases hout with
  | ok hs' hn' hq =>
    rw [Effect.bind_ok hr, Effect.bind_ok hr']
    exact (hf _ _ _ hn' hq _ _ hs' le_rfl).mono hn'
  | error hs' hn' =>
    rw [Effect.bind_error hr, Effect.bind_error hr']
    exact .error hs' hn'

lemma Repeats.discard (hx : R.Repeats n Q x y) :
    R.Repeats n Same (discard x : Effect PUnit) (discard y) :=
  hx.bind fun _ _ _ _ _ => repeats_pure fun _ _ => rfl

/-- Both steps look at the store. -/
lemma repeats_get_bind {f : Store → Effect γ} {g : Store → Effect δ}
    (h : ∀ s t, R.Holds s t → n ≤ s.cells.size → R.Repeats s.cells.size Q' (f s) (g t)) :
    R.Repeats n Q' (get >>= f) (get >>= g) :=
  fun s t hs hn => (h s t hs hn s t hs le_rfl).mono hn

lemma repeats_ask {f g : Store → Except Error α}
    (h : ∀ s t, R.Holds s t → n ≤ s.cells.size → g t = f s) :
    R.Repeats n Same (Effect.ask f) (Effect.ask g) := by
  intro s t hs hn
  have heq := h s t hs hn
  cases hf : f s with
  | ok a =>
    rw [Effect.ask_ok hf, Effect.ask_ok (heq.trans hf)]
    exact .ok hs hn rfl
  | error e =>
    rw [Effect.ask_error hf, Effect.ask_error (heq.trans hf)]
    exact .error hs hn

lemma repeats_modifyGet {f : Store → α × Store} {g : Store → β × Store}
    (h : ∀ s t, R.Holds s t → n ≤ s.cells.size →
      R.Holds (f s).2 (g t).2 ∧ n ≤ (f s).2.cells.size ∧ Q (f s).2.cells.size (f s).1 (g t).1) :
    R.Repeats n Q (modifyGet f) (modifyGet g) := by
  intro s t hs hn
  obtain ⟨hs', hn', hq⟩ := h s t hs hn
  exact .ok hs' hn' hq

lemma repeats_modify {f g : Store → Store}
    (h : ∀ s t, R.Holds s t → n ≤ s.cells.size → R.Holds (f s) (g t) ∧ n ≤ (f s).cells.size) :
    R.Repeats n Same (modify f : Effect PUnit) (modify g) :=
  repeats_modifyGet fun s t hs hn => ⟨(h s t hs hn).1, (h s t hs hn).2, rfl⟩

/-- A step for each member of a list. -/
lemma repeats_mapM {f : Value → Effect α} {vs ws : List Value} (hvs : R.CopiesAll n vs ws)
    {g : Value → Effect α}
    (h : ∀ k v w, n ≤ k → R.Copies k v w → R.Repeats k Same (f v) (g w)) :
    R.Repeats n Same (vs.mapM f) (ws.mapM g) := by
  induction vs generalizing n ws with
  | nil =>
    rw [hvs.of_nil]
    exact repeats_pure fun _ _ => rfl
  | cons v vs ih =>
    obtain ⟨w, ws, rfl, hv, hvs⟩ := hvs.of_cons
    rw [List.mapM_cons, List.mapM_cons]
    refine (h n v w le_rfl hv).bind fun k a _ hk heq => ?_
    obtain rfl := heq
    refine (ih (hvs.mono hk) fun k' v w hk' => h k' v w (hk.trans hk')).bind fun _ as _ _ heq => ?_
    obtain rfl := heq
    exact repeats_pure fun _ _ => rfl

end Rules

/-! ## Messages and reports -/

section Messages

variable {limit : Nat} {Q : Nat → α → β → Prop}

lemma repeats_shown (limit : Nat) (hv : R.Copies n v w) :
    R.Repeats n Same (Effect.shown limit v) (Effect.shown limit w) := by
  obtain ⟨rfl, hwithin⟩ := hv
  exact repeats_ask fun s t hs hn => hs.render_value limit (hwithin.mono hn)

lemma repeats_display (limit : Nat) (hv : R.Copies n v w) :
    R.Repeats n Same (Effect.ask fun s => s.display limit v)
      (Effect.ask fun s => s.display limit w) := by
  obtain ⟨rfl, hwithin⟩ := hv
  exact repeats_ask fun s t hs hn => hs.display_value limit (hwithin.mono hn)

/-- An error with a value that is shown in the message. -/
lemma repeats_throw_shown (limit : Nat) (hv : R.Copies n v w) (error : String → Error) :
    R.Repeats n Q (do throw (error (← Effect.shown limit v)))
      (do throw (error (← Effect.shown limit w))) := by
  refine (repeats_shown limit hv).bind fun _ text _ _ heq => ?_
  obtain rfl := heq
  exact repeats_throw _

lemma repeats_malformed (fault : FormFault) :
    R.Repeats n Q (Effect.malformed fault) (Effect.malformed fault) :=
  repeats_throw _

lemma repeats_malformedBy (limit : Nat) (fault : String → FormFault) (hv : R.Copies n v w) :
    R.Repeats n Q (Effect.malformedBy limit fault v) (Effect.malformedBy limit fault w) :=
  repeats_throw_shown limit hv fun text => .ofForm (fault text)

lemma repeats_report (event : Event) :
    R.Repeats n Same (modify fun s => s.report event : Effect PUnit)
      (modify fun s => s.report event) :=
  repeats_modify fun _ _ hs hn => ⟨hs.report event, hn⟩

lemma repeats_reportEval (mode : Mode) (limit : Nat) (hv : R.Copies n v w) :
    R.Repeats n Same (mode.reportEval limit v) (mode.reportEval limit w) := by
  unfold Mode.reportEval
  split
  · refine (repeats_shown limit hv).bind fun _ form _ _ heq => ?_
    obtain rfl := heq
    rw [hv.1, R.typeName_value]
    exact repeats_report _
  · exact repeats_pure fun _ _ => rfl

lemma repeats_reportApply (mode : Mode) (limit : Nat) (hv : R.Copies n v w)
    (hvs : R.CopiesAll n vs ws) :
    R.Repeats n Same (mode.reportApply limit v vs) (mode.reportApply limit w ws) := by
  unfold Mode.reportApply
  split
  · refine (repeats_shown limit hv).bind fun _ proc _ hk heq => ?_
    obtain rfl := heq
    have hargs := repeats_mapM (hvs.mono hk) fun _ v w _ hv => repeats_shown limit hv
    refine hargs.bind fun _ texts _ _ heq => ?_
    obtain rfl := heq
    exact repeats_report _
  · exact repeats_pure fun _ _ => rfl

end Messages

end Replication

end SmallScheme
