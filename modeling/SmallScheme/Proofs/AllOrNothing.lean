import SmallScheme.Proofs.Drawing
import SmallScheme.Proofs.FreshNodes
import SmallScheme.Proofs.NativeStores

/-!
# Native procedures do all or nothing

A native procedure of the standard library looks at its arguments before it does anything.  Either it
refuses them, with a complaint or because a number is too long to be shown, and then it has done
nothing, or it gives a value (`Builtin.all_or_nothing`).  Only replacements change a pair that was
there (`Store.Rewrites`), and only `write` prints anything (`Store.Prints`).

It always comes to an end.  No native procedure follows pairs any further than its name says, except
for printing them, and a printed value has no more lists inside one another than there are cells.  So
a limit that is larger than the number of cells is enough, whatever cycles there are, and the outcome
does not depend on it (`Settles`).
-/

namespace SmallScheme

/-- The step ends with the result if its limit is larger than the number of cells.  With a smaller
limit something may be nested too deeply instead, but nothing is done in that case either. -/
structure Settles {α : Type} (s : Store) (x : Nat → Effect α)
    (r : EStateM.Result Error Store α) : Prop where
  of_lt : ∀ {limit : Nat}, s.cells.size < limit → x limit s = r
  of_any : ∀ limit, x limit s = r ∨ x limit s = .error .tooDeep s

namespace Store

/-- A cell holds something new, and everything else is as it was. -/
structure Rewrites (s t : Store) (c : CellId) (new : Cell) : Prop where
  size : t.cells.size = s.cells.size
  cell_self : c < s.cells.size → t.cell c = new
  cell_of_ne : ∀ d, d ≠ c → t.cell d = s.cell d
  frames : t.frames = s.frames
  closures : t.closures = s.closures
  printed : t.printed = s.printed
  events : t.events = s.events
  foreigns : t.foreigns = s.foreigns
  installations : t.installations = s.installations

/-- A text follows what was printed on a channel, and everything else is as it was. -/
structure Prints (s t : Store) (channel : Channel) (text : String) : Prop where
  printed : t.printed = s.printed.push (channel, text)
  output_self : t.output channel = s.output channel ++ text
  output_of_ne : ∀ other, other ≠ channel → t.output other = s.output other
  cells : t.cells = s.cells
  frames : t.frames = s.frames
  closures : t.closures = s.closures
  events : t.events = s.events
  foreigns : t.foreigns = s.foreigns
  installations : t.installations = s.installations

lemma rewrites_modify (s : Store) (c : CellId) (f : Cell → Cell) :
    s.Rewrites { s with cells := s.cells.modify c f } c (f (s.cell c)) where
  size := Array.size_modify
  cell_self hc := by simp [cell, Array.getElem_modify, hc]
  cell_of_ne d hd := by simp [cell, Array.getElem?_modify, hd.symm]
  frames := rfl
  closures := rfl
  printed := rfl
  events := rfl
  foreigns := rfl
  installations := rfl

lemma rewrites_setCar (s : Store) (c : CellId) (v : Value) :
    s.Rewrites (s.setCar c v) c ⟨v, (s.cell c).cdr⟩ :=
  s.rewrites_modify c fun cell => { cell with car := v }

lemma rewrites_setCdr (s : Store) (c : CellId) (v : Value) :
    s.Rewrites (s.setCdr c v) c ⟨(s.cell c).car, v⟩ :=
  s.rewrites_modify c fun cell => { cell with cdr := v }

lemma prints_print (s : Store) (channel : Channel) (text : String) :
    s.Prints (s.print channel text) channel text where
  printed := rfl
  output_self := by rw [output_print, if_pos rfl]
  output_of_ne other hother := by rw [output_print, if_neg hother.symm]
  cells := rfl
  frames := rfl
  closures := rfl
  events := rfl
  foreigns := rfl
  installations := rfl

end Store

namespace Primitive

/-- Why a primitive refuses its arguments. -/
inductive Refuses (s : Store) (p : Primitive) (args : List Value) : Error → Prop
  /-- It complains. -/
  | complains (complaint : Complaint) : Refuses s p args (p.complain complaint)
  /-- A number in an argument is too long to be shown. -/
  | tooManyDigits {v : Value} : v ∈ args → s.HasLongNumber v → Refuses s p args .tooManyDigits

/-- What a primitive that gives a value has made of the store. -/
inductive Leaves (s : Store) : Primitive → List Value → Store → Prop
  /-- The first part of a pair is replaced. -/
  | setCar {c : CellId} {w : Value} {t : Store} (rest : List Value) :
      s.Rewrites t c ⟨w, (s.cell c).cdr⟩ → Leaves s .setCar (.pair c :: w :: rest) t
  /-- The second part of a pair is replaced. -/
  | setCdr {c : CellId} {w : Value} {t : Store} (rest : List Value) :
      s.Rewrites t c ⟨(s.cell c).car, w⟩ → Leaves s .setCdr (.pair c :: w :: rest) t
  /-- The first argument is printed, and the line is ended. -/
  | write {channel : Channel} {v : Value} {text : String} {t : Store} (rest : List Value) :
      (∀ limit, s.cells.size < limit → s.render limit v = .ok text) →
      s.Prints t channel (text ++ "\n") → Leaves s (.write channel) (v :: rest) t
  /-- All other primitives add pairs at most. -/
  | other {p : Primitive} {args : List Value} {t : Store} : p ≠ .setCar → p ≠ .setCdr →
      (∀ channel, p ≠ .write channel) → s.AddsFresh t → t.closures = s.closures →
      Leaves s p args t

/-- A result of a primitive: it gives something, or it refuses its arguments and has done nothing. -/
inductive Outcome {α : Type} (s : Store) (p : Primitive) (args : List Value)
    (Gives : α → Store → Prop) : EStateM.Result Error Store α → Prop
  | gives {a : α} {t : Store} : Gives a t → Outcome s p args Gives (.ok a t)
  | refuses {e : Error} : p.Refuses s args e → Outcome s p args Gives (.error e s)

/-- The step settles, and it does all or nothing. -/
def Answers {α : Type} (s : Store) (p : Primitive) (args : List Value) (x : Nat → Effect α)
    (Gives : α → Store → Prop) : Prop :=
  ∃ r, Settles s x r ∧ p.Outcome s args Gives r

/-- Something is given, and the store is as it was. -/
def Looks {α : Type} (s : Store) (P : α → Prop) (a : α) (t : Store) : Prop :=
  P a ∧ t = s

end Primitive

lemma Store.closures_list (vs : List Value) (s : Store) : (s.list vs).2.closures = s.closures := by
  induction vs with
  | nil => rfl
  | cons v vs ih => exact ih

/-! ## Rules -/

section Rules

variable {α β : Type} {s t : Store} {x : Nat → Effect α} {f : Nat → α → Effect β} {a : α} {e : Error}

lemma settles_const (x : Effect α) (s : Store) : Settles s (fun _ => x) (x s) :=
  ⟨fun _ => rfl, fun _ => .inl rfl⟩

namespace Settles

/-- A step after one that has only looked at the store. -/
lemma bind_ok {r : EStateM.Result Error Store β} (hx : Settles s x (.ok a s))
    (hf : Settles s (fun limit => f limit a) r) :
    Settles s (fun limit => x limit >>= f limit) r where
  of_lt hlimit := (Effect.bind_ok (hx.of_lt hlimit)).trans (hf.of_lt hlimit)
  of_any limit := by
    rcases hx.of_any limit with hok | hdeep
    · rw [Effect.bind_ok hok]
      exact hf.of_any limit
    · exact .inr (Effect.bind_error hdeep)

lemma bind_error (hx : Settles s x (.error e s)) :
    Settles s (fun limit => x limit >>= f limit) (.error e s) where
  of_lt hlimit := Effect.bind_error (hx.of_lt hlimit)
  of_any limit := (hx.of_any limit).imp Effect.bind_error Effect.bind_error

end Settles

/-- **Printing settles**: there is a text, or else a number in the value is too long. -/
lemma settles_shown (s : Store) (v : Value) :
    (∃ text, (∀ limit, s.cells.size < limit → s.render limit v = .ok text) ∧
      Settles s (Effect.shown · v) (.ok text s)) ∨
    s.HasLongNumber v ∧ Settles s (Effect.shown · v) (.error .tooManyDigits s) := by
  -- a limit that is too small shows as such
  have hany {r : Except Error String} (hr : ∀ limit, s.cells.size < limit → s.render limit v = r)
      (limit : Nat) : s.render limit v = r ∨ s.render limit v = .error .tooDeep := by
    have hlimits : Limits (· = .tooDeep) limit (max limit (s.cells.size + 1)) :=
      .inr ⟨Nat.le_max_left .., rfl⟩
    rcases Store.render_shortens (.refl s) hlimits v with heq | ⟨_, rfl, herror⟩
    · exact .inl (heq.symm.trans (hr _ (Nat.le_max_right ..)))
    · exact .inr herror
  rcases s.exists_rendering v with ⟨text, htext⟩ | ⟨hlong, hrender⟩
  · refine .inl ⟨text, htext, fun hlimit => Effect.ask_ok (htext _ hlimit), fun limit => ?_⟩
    exact (hany htext limit).imp Effect.ask_ok Effect.ask_error
  · refine .inr ⟨hlong, fun hlimit => Effect.ask_error (hrender _ hlimit), fun limit => ?_⟩
    exact (hany hrender limit).imp Effect.ask_error Effect.ask_error

end Rules

namespace Primitive

variable {α β : Type} {s t : Store} {p : Primitive} {args args' : List Value} {v : Value}
  {x : Nat → Effect α} {f : Nat → α → Effect β} {P : α → Prop} {Gives : α → Store → Prop}
  {Gives' : β → Store → Prop}

lemma Refuses.mono {e : Error} (h : p.Refuses s args e)
    (hargs : ∀ v ∈ args, s.HasLongNumber v → ∃ w ∈ args', s.HasLongNumber w) :
    p.Refuses s args' e := by
  cases h with
  | complains complaint => exact .complains complaint
  | tooManyDigits hv hlong =>
    obtain ⟨w, hw, hlong'⟩ := hargs _ hv hlong
    exact .tooManyDigits hw hlong'

namespace Answers

lemma mono (h : p.Answers s args x Gives)
    (hargs : ∀ v ∈ args, s.HasLongNumber v → ∃ w ∈ args', s.HasLongNumber w) :
    p.Answers s args' x Gives := by
  obtain ⟨r, hr, hout⟩ := h
  refine ⟨r, hr, ?_⟩
  cases hout with
  | gives ha => exact .gives ha
  | refuses he => exact .refuses (he.mono hargs)

/-- The reason to refuse some of the arguments is one to refuse all. -/
lemma of_subset (h : p.Answers s args x Gives) (hsub : args ⊆ args') : p.Answers s args' x Gives :=
  h.mono fun v hv hlong => ⟨v, hsub hv, hlong⟩

lemma bind (hx : p.Answers s args x (Looks s P))
    (hf : ∀ a, P a → p.Answers s args (fun limit => f limit a) Gives') :
    p.Answers s args (fun limit => x limit >>= f limit) Gives' := by
  obtain ⟨_, hx, hout⟩ := hx
  cases hout with
  | gives ha =>
    obtain ⟨ha, rfl⟩ := ha
    obtain ⟨r, hr, hout⟩ := hf _ ha
    exact ⟨r, hx.bind_ok hr, hout⟩
  | refuses he => exact ⟨_, hx.bind_error, .refuses he⟩

end Answers

/-- A step without a limit. -/
lemma answers_const {y : Effect α} (h : p.Outcome s args Gives (y s)) :
    p.Answers s args (fun _ => y) Gives :=
  ⟨_, settles_const y s, h⟩

lemma answers_pure {a : α} (ha : P a) : p.Answers s args (fun _ => pure a) (Looks s P) :=
  answers_const (.gives ⟨ha, rfl⟩)

lemma answers_complain (complaint : Complaint) :
    p.Answers s args (fun _ => throw (p.complain complaint)) Gives :=
  answers_const (.refuses (.complains complaint))

/-- The store is looked at. -/
lemma answers_get_bind {f : Nat → Store → Effect α}
    (h : p.Answers s args (fun limit => f limit s) Gives) :
    p.Answers s args (fun limit => get >>= f limit) Gives := by
  obtain ⟨r, hr, hout⟩ := h
  exact ⟨r, ⟨fun hlimit => hr.of_lt hlimit, fun limit => hr.of_any limit⟩, hout⟩

lemma answers_shown (s : Store) (p : Primitive) (v : Value) :
    p.Answers s [v] (Effect.shown · v)
      (Looks s fun text => ∀ limit, s.cells.size < limit → s.render limit v = .ok text) := by
  rcases settles_shown s v with ⟨text, htext, hsettles⟩ | ⟨hlong, hsettles⟩
  · exact ⟨_, hsettles, .gives ⟨htext, rfl⟩⟩
  · exact ⟨_, hsettles, .refuses (.tooManyDigits List.mem_cons_self hlong)⟩

/-! ## Arguments -/

lemma answers_complainOf (s : Store) (p : Primitive) (v : Value) (complaint : String → Complaint) :
    p.Answers s [v] (fun limit => do throw (p.complain (complaint (← Effect.shown limit v)))) Gives :=
  (answers_shown s p v).bind fun text _ => answers_complain (complaint text)

lemma answers_cellOf (s : Store) (p : Primitive) (v : Value) :
    p.Answers s [v] (p.cellOf · v) (Looks s fun c => v = .pair c) := by
  cases v with
  | pair c => exact answers_pure rfl
  | _ => exact answers_complainOf s p _ .notPair

lemma answers_numberOf (s : Store) (p : Primitive) (v : Value) :
    p.Answers s [v] (p.numberOf · v) (Looks s fun _ => True) := by
  unfold numberOf
  split
  · exact answers_pure trivial
  · exact answers_complainOf s p v .notNumber

lemma answers_nthOf (s : Store) (p : Primitive) (steps : Nat) (v : Value) :
    p.Answers s [v] (p.nthOf · steps v) (Looks s fun _ => True) := by
  induction steps generalizing v with
  | zero =>
    refine (answers_cellOf s p v).bind fun c _ => answers_get_bind ?_
    exact answers_pure trivial
  | succ steps ih =>
    refine (answers_cellOf s p v).bind fun c hc => answers_get_bind ?_
    subst hc
    -- what is too long in the second part is too long in the pair
    refine (ih (s.cell c).cdr).mono fun w hw hlong => ?_
    rw [List.mem_singleton.mp hw] at hlong
    exact ⟨.pair c, List.mem_cons_self, hlong.of_cdr⟩

lemma answers_cdr (s : Store) (p : Primitive) (v : Value) :
    p.Answers s [v] (fun limit => do return ((← get).cell (← p.cellOf limit v)).cdr)
      (Looks s fun _ => True) :=
  answers_get_bind ((answers_cellOf s p v).bind fun _ _ => answers_pure trivial)

lemma answers_numbers (s : Store) (p : Primitive) (vs : List Value) :
    p.Answers s vs (fun limit => vs.mapM (p.numberOf limit)) (Looks s fun _ => True) := by
  induction vs with
  | nil => exact answers_pure trivial
  | cons v vs ih =>
    simp only [List.mapM_cons]
    refine ((answers_numberOf s p v).of_subset (by simp)).bind fun n _ => ?_
    exact (ih.of_subset (List.subset_cons_self v vs)).bind fun ns _ => answers_pure trivial

/-! ## Folds -/

lemma answers_foldNumbers (s : Store) (operation : Arithmetic) (total : Int) (ns : List Int) :
    (arithmetic operation).Answers s args (fun _ => foldNumbers operation total ns)
      (Looks s fun _ => True) := by
  induction ns generalizing total with
  | nil => exact answers_pure trivial
  | cons n ns ih =>
    unfold foldNumbers
    split
    · exact ih _
    · exact answers_complain _

lemma answers_compareAll (s : Store) (relation : Comparison) (vs : List Value) :
    (comparison relation).Answers s vs (fun limit => compareAll relation limit vs)
      (Looks s fun _ => True) := by
  induction vs with
  | nil => exact answers_pure trivial
  | cons v vs ih =>
    cases vs with
    | nil => exact answers_pure trivial
    | cons w vs =>
      unfold compareAll
      refine ((answers_numberOf s _ v).of_subset (by simp)).bind fun m _ => ?_
      refine ((answers_numberOf s _ w).of_subset (by simp)).bind fun n _ => ?_
      split
      · exact ih.of_subset (List.subset_cons_self v _)
      · exact answers_pure trivial

/-! ## Procedures -/

/-- A primitive that only looks at the store leaves it as it is. -/
lemma Answers.leaves {x : Nat → Effect Value} {P : Value → Prop}
    (h : p.Answers s args x (Looks s P)) (hcar : p ≠ .setCar) (hcdr : p ≠ .setCdr)
    (hwrite : ∀ channel, p ≠ .write channel) : p.Answers s args x fun _ => p.Leaves s args := by
  obtain ⟨r, hr, hout⟩ := h
  refine ⟨r, hr, ?_⟩
  cases hout with
  | gives ha =>
    obtain ⟨-, rfl⟩ := ha
    exact .gives (.other hcar hcdr hwrite (.refl _) rfl)
  | refuses he => exact .refuses he

lemma answers_setPart {args : List Value} {write : CellId → Value → Store → Store} {w : Value}
    (hv : v ∈ args) (hwrite : ∀ c, v = .pair c → p.Leaves s args (write c w s)) :
    p.Answers s args
      (fun limit => do
        let c ← p.cellOf limit v
        modify fun s => write c w s
        return .nil) fun (_ : Value) => p.Leaves s args := by
  refine ((answers_cellOf s p v).of_subset (by simpa using hv)).bind fun c hc => ?_
  exact answers_const (.gives (hwrite c hc))

lemma answers_arithmetic (s : Store) (operation : Arithmetic) (v : Value) (vs : List Value) :
    (arithmetic operation).Answers s (v :: vs)
      (fun limit => do
        let n ← (arithmetic operation).numberOf limit v
        let ns ← vs.mapM ((arithmetic operation).numberOf limit)
        return .number (← foldNumbers operation n ns)) (Looks s fun (_ : Value) => True) := by
  refine ((answers_numberOf s _ v).of_subset (by simp)).bind fun n _ => ?_
  refine ((answers_numbers s _ vs).of_subset (List.subset_cons_self v vs)).bind fun ns _ => ?_
  exact (answers_foldNumbers s operation n ns).bind fun _ _ => answers_pure trivial

lemma answers_write (s : Store) (channel : Channel) (v : Value) (vs : List Value) :
    (write channel).Answers s (v :: vs)
      (fun limit => do
        let text ← Effect.shown limit v
        modify fun s => s.print channel (text ++ "\n")
        return .nil) fun (_ : Value) => (write channel).Leaves s (v :: vs) := by
  refine ((answers_shown s _ v).of_subset (by simp)).bind fun text htext => ?_
  exact answers_const (.gives (.write vs htext (s.prints_print channel (text ++ "\n"))))

/-- What a primitive does, whatever the number of its arguments is. -/
lemma answers_start (hp : p.isForeign = false) (s : Store) (args : List Value) :
    p.Answers s args (fun limit => p.start limit args) fun _ => p.Leaves s args := by
  cases p with
  | isPair | isBoolean | isSymbol | isNumber | isNull | isZero | not =>
    rcases args with _ | ⟨v, args⟩
    · exact answers_complain _
    · exact (answers_pure (P := fun _ => True) trivial).leaves nofun nofun nofun
  | same =>
    rcases args with _ | ⟨v, _ | ⟨w, args⟩⟩
    · exact answers_complain _
    · exact answers_complain _
    · exact (answers_pure (P := fun _ => True) trivial).leaves nofun nofun nofun
  | cons =>
    rcases args with _ | ⟨v, _ | ⟨w, args⟩⟩
    · exact answers_complain _
    · exact answers_complain _
    · exact answers_const (.gives (.other nofun nofun nofun (Store.addsFresh_cons v w s) rfl))
  | car | cadr | caddr =>
    rcases args with _ | ⟨v, args⟩
    · exact answers_complain _
    · exact ((answers_nthOf s _ _ v).of_subset (by simp)).leaves nofun nofun nofun
  | cdr =>
    rcases args with _ | ⟨v, args⟩
    · exact answers_complain _
    · exact ((answers_cdr s _ v).of_subset (by simp)).leaves nofun nofun nofun
  | setCar =>
    rcases args with _ | ⟨v, _ | ⟨w, args⟩⟩
    · exact answers_complain _
    · exact answers_complain _
    · refine answers_setPart List.mem_cons_self fun c hc => ?_
      rw [hc]
      exact .setCar args (s.rewrites_setCar c w)
  | setCdr =>
    rcases args with _ | ⟨v, _ | ⟨w, args⟩⟩
    · exact answers_complain _
    · exact answers_complain _
    · refine answers_setPart List.mem_cons_self fun c hc => ?_
      rw [hc]
      exact .setCdr args (s.rewrites_setCdr c w)
  | list =>
    exact answers_const (.gives (.other nofun nofun nofun (Store.addsFresh_chain args .nil s)
      (Store.closures_list args s)))
  | and | or => exact (answers_pure (P := fun _ => True) trivial).leaves nofun nofun nofun
  | arithmetic operation =>
    rcases args with _ | ⟨v, args⟩
    · exact answers_complain _
    · exact (answers_arithmetic s operation v args).leaves nofun nofun nofun
  | comparison relation =>
    refine Answers.leaves (P := fun _ => True) ?_ nofun nofun nofun
    exact (answers_compareAll s relation args).bind fun _ _ => answers_pure trivial
  | write channel =>
    rcases args with _ | ⟨v, args⟩
    · exact answers_complain _
    · exact answers_write s channel v args
  | foreign procedure => cases hp

lemma answers_run (hp : p.isForeign = false) (s : Store) (args : List Value) :
    p.Answers s args (fun limit => p.run limit args) fun _ => p.Leaves s args := by
  unfold run
  split
  · exact answers_complain _
  · exact answers_start hp s args

lemma Refuses.ordinary {e : Error} (h : p.Refuses s args e) : e.Ordinary := by
  cases h <;> trivial

end Primitive

namespace Builtin

variable {b : Builtin} {args : List Value} {s t : Store}

/-- There is nothing to report anew when a native procedure gives something or refuses its
arguments. -/
lemma settles_apply {Gives : Value → Store → Prop} {r : EStateM.Result Error Store Value}
    (hr : Settles s (b.primitive.run · args) r) (hout : b.primitive.Outcome s args Gives r) :
    Settles s (b.apply · args) r := by
  have hsame {limit : Nat} (h : b.primitive.run limit args s = r) : b.apply limit args s = r := by
    cases hout with
    | gives => exact apply_of_ok h
    | refuses he => rw [apply_of_error h, report_of_ordinary he.ordinary]
  have hdeep {limit : Nat} (h : b.primitive.run limit args s = .error .tooDeep s) :
      b.apply limit args s = .error .tooDeep s :=
    apply_of_error h
  exact ⟨fun hlimit => hsame (hr.of_lt hlimit), fun limit => (hr.of_any limit).imp hsame hdeep⟩

/-- **A native procedure does all or nothing.**  For all arguments and in each store, a procedure of
the standard library that is applied comes to an end, which does not depend on the limit if that is
larger than the number of cells.  If it fails, it has refused its arguments and the store is as it was
before, and this is so with any smaller limit as well.  If it succeeds, it has done what it is there
for and nothing else. -/
theorem all_or_nothing {channel : Channel} {name : String} {p : Primitive}
    (hmem : (name, p) ∈ (Library.standard channel).entries) (installation : Nat)
    (args : List Value) (s : Store) :
    ∃ r : EStateM.Result Error Store Value,
      (∀ limit, s.cells.size < limit → apply limit ⟨name, p, installation⟩ args s = r) ∧
      (∀ limit, apply limit ⟨name, p, installation⟩ args s = r ∨
        apply limit ⟨name, p, installation⟩ args s = .error .tooDeep s) ∧
      (∀ e t, r = .error e t → t = s ∧ p.Refuses s args e) ∧
      ∀ v t, r = .ok v t → p.Leaves s args t := by
  have hp : p.isForeign = false := Library.native_standard channel _ hmem
  obtain ⟨r, hr, hout⟩ := Primitive.answers_run hp s args
  have hsettles : Settles s (apply · ⟨name, p, installation⟩ args) r := settles_apply hr hout
  refine ⟨r, fun _ => hsettles.of_lt, hsettles.of_any, ?_, ?_⟩
  · rintro e t rfl
    cases hout with
    | refuses he => exact ⟨rfl, he⟩
  · rintro v t rfl
    cases hout with
    | gives hleaves => exact hleaves

/-- A pair that is its own second part. -/
def ring : Store :=
  (Store.empty.cons (.number 1) (.pair 0)).2

/-- A number and a pair on a cycle cannot be added.  The pair is shown in the complaint, and nothing
has changed. -/
theorem all_or_nothing_ring : ("+", Primitive.arithmetic .add) ∈ (Library.standard .standard).entries ∧
    (∀ limit, 1 < limit →
      apply limit ⟨"+", .arithmetic .add, 0⟩ [.number 2, .pair 0] ring =
        .error (.builtin (some "+") (.notNumber "(1 ...)")) ring) ∧
    (Primitive.arithmetic .add).Refuses ring [.number 2, .pair 0]
      (.builtin (some "+") (.notNumber "(1 ...)")) := by
  have hmem : ("+", Primitive.arithmetic .add) ∈ (Library.standard .standard).entries := by decide
  obtain ⟨r, hlimit, -, hrefuses, -⟩ := all_or_nothing hmem 0 [.number 2, .pair 0] ring
  have htwo : Effect.error? (apply 2 ⟨"+", .arithmetic .add, 0⟩ [.number 2, .pair 0] ring) =
      some (.builtin (some "+") (.notNumber "(1 ...)")) := by decide +kernel
  have hstop := Effect.eq_error_of_error? htwo
  rw [hlimit 2 (by decide)] at hstop
  obtain ⟨hsame, hwhy⟩ := hrefuses _ _ hstop
  rw [hsame] at hstop
  exact ⟨hmem, fun limit h => (hlimit limit h).trans hstop, hwhy⟩

end Builtin

end SmallScheme
