import SmallScheme.Proofs.Drawing
import SmallScheme.Proofs.Node
import SmallScheme.Proofs.StoreReading

/-!
# Renamed stores

Two runs of one program may give other numbers to their cells and closures, because one of the stores
has further ones that the program knows nothing of.  A `Renaming` says which numbers correspond.  The
frames of both stores have the same numbers.

`Replication.Holds` relates the stores of two such runs: the second one has whatever the first one
has, under other numbers, and what it has besides stays as it was when the runs began.  Both runs
give the next number to what they add, so the renaming is fixed from the start, also for what is not
there yet.  Each operation on a store keeps the relation if it is done in both stores.
-/

namespace SmallScheme

/-- Numbers that cells and closures have in another store. -/
structure Renaming where
  /-- The number of a cell. -/
  cell : CellId → CellId
  /-- The number of a closure. -/
  closure : ClosureId → ClosureId
  cell_injective : Function.Injective cell
  closure_injective : Function.Injective closure

namespace Renaming

variable (ρ : Renaming)

/-- A value in the other store. -/
def value : Value → Value
  | .pair c => .pair (ρ.cell c)
  | .closure k => .closure (ρ.closure k)
  | v => v

/-- Bindings in the other store. -/
def onBindings (bs : List (Symbol × Value)) : List (Symbol × Value) :=
  bs.map fun b => (b.1, ρ.value b.2)

/-- A cell in the other store. -/
def onCell (cell : Cell) : Cell :=
  ⟨ρ.value cell.car, ρ.value cell.cdr⟩

/-- A frame in the other store. -/
def onFrame (frame : Frame) : Frame :=
  ⟨ρ.onBindings frame.bindings, frame.outer⟩

/-- A closure in the other store. -/
def onClosure (closure : Closure) : Closure :=
  { closure with body := closure.body.map ρ.value }

@[simp] lemma value_atom (a : Atom) : ρ.value (.atom a) = .atom a := rfl

@[simp] lemma value_pair (c : CellId) : ρ.value (.pair c) = .pair (ρ.cell c) := rfl

@[simp] lemma value_closure (k : ClosureId) : ρ.value (.closure k) = .closure (ρ.closure k) := rfl

@[simp] lemma value_builtin (b : Builtin) : ρ.value (.builtin b) = .builtin b := rfl

@[simp] lemma value_foreign (w : ForeignValue) (id : ForeignId) :
    ρ.value (.foreign w id) = .foreign w id := rfl

lemma value_injective : Function.Injective ρ.value := by
  intro v w h
  cases v <;> cases w <;> simp only [value, Value.pair.injEq, Value.closure.injEq, reduceCtorEq] at h
  case pair.pair => rw [ρ.cell_injective h]
  case closure.closure => rw [ρ.closure_injective h]
  all_goals exact h

@[simp] lemma value_beq (v w : Value) : (ρ.value v == ρ.value w) = (v == w) := by
  rw [Bool.eq_iff_iff, beq_iff_eq, beq_iff_eq, ρ.value_injective.eq_iff]

/-- Atoms are the same everywhere. -/
@[simp] lemma value_beq_atom (v : Value) (a : Atom) : (ρ.value v == .atom a) = (v == .atom a) :=
  ρ.value_beq v (.atom a)

@[simp] lemma typeName_value (v : Value) : (ρ.value v).typeName = v.typeName := by
  cases v <;> rfl

@[simp] lemma onBindings_nil : ρ.onBindings [] = [] := rfl

@[simp] lemma onBindings_cons (b : Symbol × Value) (bs : List (Symbol × Value)) :
    ρ.onBindings (b :: bs) = (b.1, ρ.value b.2) :: ρ.onBindings bs := rfl

lemma onBindings_zip (names : List Symbol) (vs : List Value) :
    ρ.onBindings (names.zip vs) = names.zip (vs.map ρ.value) := by
  rw [List.zip_map_right]
  rfl

lemma get?_onBindings (x : Symbol) (bs : Bindings) :
    Bindings.get? x (ρ.onBindings bs) = (bs.get? x).map ρ.value := by
  induction bs with
  | nil => rfl
  | cons b bs ih =>
    simp only [onBindings_cons, Bindings.get?, ih]
    split <;> rfl

lemma put_onBindings (x : Symbol) (v : Value) (bs : Bindings) :
    Bindings.put x (ρ.value v) (ρ.onBindings bs) = ρ.onBindings (bs.put x v) := by
  induction bs with
  | nil => rfl
  | cons b bs ih =>
    simp only [onBindings_cons, Bindings.put, ih]
    split <;> rfl

lemma putAll_onBindings (new : List (Symbol × Value)) (bs : Bindings) :
    Bindings.putAll (ρ.onBindings new) (ρ.onBindings bs) = ρ.onBindings (bs.putAll new) := by
  induction new generalizing bs with
  | nil => rfl
  | cons b new ih =>
    have hstep := ih (bs.put b.1 b.2)
    rw [← put_onBindings] at hstep
    exact hstep

end Renaming

/-! ## Closed stores -/

/-- The value is no pair, or one of the first `n` pairs. -/
def Value.Within (n : Nat) : Value → Prop
  | .pair c => c < n
  | _ => True

namespace Value

lemma Within.mono {v : Value} {m n : Nat} (h : v.Within m) (hle : m ≤ n) : v.Within n := by
  cases v with
  | pair c => exact Nat.lt_of_lt_of_le h hle
  | _ => trivial

@[simp] lemma within_atom (n : Nat) (a : Atom) : (Value.atom a).Within n := trivial

lemma within_of_node? {v : Value} {n : Nat} (h : ∀ c, v.node? = some (.cell c) → c < n) :
    v.Within n := by
  cases v with
  | pair c => exact h c rfl
  | _ => trivial

end Value

namespace Store

/-- Every pair that is mentioned is there. -/
structure Closed (s : Store) : Prop where
  car : ∀ c, (s.cell c).car.Within s.cells.size
  cdr : ∀ c, (s.cell c).cdr.Within s.cells.size
  bindings : ∀ f, ∀ b ∈ (s.frame f).bindings, b.2.Within s.cells.size
  body : ∀ k, ∀ form ∈ (s.closure k).body, form.Within s.cells.size

variable {s : Store}

lemma frame_of_size_le {f : FrameId} (hf : s.frames.size ≤ f) : s.frame f = ⟨[], none⟩ := by
  simp [frame, hf]
  rfl

lemma closure_of_size_le {k : ClosureId} (hk : s.closures.size ≤ k) :
    s.closure k = ⟨[], [], 0, none⟩ := by
  simp [closure, hk]
  rfl

/-- A well-formed store is closed. -/
lemma WellFormed.closed (h : s.WellFormed) : s.Closed := by
  refine ⟨fun c => ?_, fun c => ?_, fun f b hb => ?_, fun k form hform => ?_⟩
  · rcases Nat.lt_or_ge c s.cells.size with hc | hc
    · exact Value.within_of_node? fun d hd => h (.cell c) (.cell d) hc (.car hd)
    · rw [cell_of_size_le hc]
      trivial
  · rcases Nat.lt_or_ge c s.cells.size with hc | hc
    · exact Value.within_of_node? fun d hd => h (.cell c) (.cell d) hc (.cdr hd)
    · rw [cell_of_size_le hc]
      trivial
  · rcases Nat.lt_or_ge f s.frames.size with hf | hf
    · exact Value.within_of_node? fun d hd => h (.frame f) (.cell d) hf (.binding hb hd)
    · rw [frame_of_size_le hf] at hb
      cases hb
  · rcases Nat.lt_or_ge k s.closures.size with hk | hk
    · exact Value.within_of_node? fun d hd => h (.closure k) (.cell d) hk (.body hform hd)
    · rw [closure_of_size_le hk] at hform
      cases hform

/-- What has been printed or reported makes no difference. -/
lemma Closed.of_sameNodes {s' : Store} (h : s.Closed) (hsame : s.SameNodes s') : s'.Closed := by
  refine ⟨fun c => ?_, fun c => ?_, fun f b hb => ?_, fun k form hform => ?_⟩
  · rw [hsame.cell_eq, hsame.cells]
    exact h.car c
  · rw [hsame.cell_eq, hsame.cells]
    exact h.cdr c
  · rw [hsame.frame_eq] at hb
    rw [hsame.cells]
    exact h.bindings f b hb
  · rw [hsame.closure_eq] at hform
    rw [hsame.cells]
    exact h.body k form hform

lemma cell_cons (car cdr : Value) (s : Store) (c : CellId) :
    (s.cons car cdr).2.cell c = if c = s.cells.size then ⟨car, cdr⟩ else s.cell c := by
  by_cases hc : c = s.cells.size
  · rw [if_pos hc, hc, cell_cons_self]
  · rw [if_neg hc]
    exact (sameExcept_cons s car cdr).same (.cell c) fun h => hc (Node.cell.inj h)

/-- A new pair of values that are there. -/
lemma Closed.cons {v w : Value} (h : s.Closed) (hv : v.Within s.cells.size)
    (hw : w.Within s.cells.size) : (s.cons v w).2.Closed := by
  have hgrow {u : Value} (hu : u.Within s.cells.size) : u.Within (s.cons v w).2.cells.size :=
    hu.mono (by simp [Store.cons])
  refine ⟨fun c => ?_, fun c => ?_, fun f b hb => hgrow (h.bindings f b hb),
    fun k form hform => hgrow (h.body k form hform)⟩
  · rw [cell_cons]
    split
    · exact hgrow hv
    · exact hgrow (h.car c)
  · rw [cell_cons]
    split
    · exact hgrow hw
    · exact hgrow (h.cdr c)

lemma closure_addClosure (closure : Closure) (s : Store) (k : ClosureId) :
    (s.addClosure closure).2.closure k =
      if k = s.closures.size then closure else s.closure k := by
  by_cases hk : k = s.closures.size
  · rw [if_pos hk, hk, closure_addClosure_self]
  · rw [if_neg hk]
    exact (sameExcept_addClosure s closure).same (.closure k) fun h => hk (Node.closure.inj h)

lemma frame_addFrame (bindings : List (Symbol × Value)) (outer : Option FrameId) (s : Store)
    (f : FrameId) :
    (s.addFrame bindings outer).2.frame f =
      if f = s.frames.size then ⟨Bindings.putAll bindings [], outer⟩ else s.frame f := by
  by_cases hf : f = s.frames.size
  · rw [if_pos hf, hf, frame_addFrame_self]
  · rw [if_neg hf]
    exact (sameExcept_addFrame s bindings outer).same (.frame f) fun h => hf (Node.frame.inj h)

end Store

/-! ## Replications -/

/-- A run and one that repeats it in another store, with the numbers that it uses there and the stores
in which both begin. -/
structure Replication extends Renaming where
  /-- The store in which the first run begins. -/
  first : Store
  /-- The store in which the second run begins. -/
  second : Store

namespace Replication

/-- The second store has what the first one has, under other numbers, and what it has besides is as it
was at the beginning.  The same has been printed in both since then. -/
structure Holds (R : Replication) (s t : Store) : Prop where
  closed : s.Closed
  cell : ∀ c, t.cell (R.cell c) = R.onCell (s.cell c)
  nextCell : ∀ i, R.cell (s.cells.size + i) = t.cells.size + i
  otherCell : ∀ d, (∀ c, R.cell c ≠ d) → t.cell d = R.second.cell d
  closure : ∀ k, t.closure (R.closure k) = R.onClosure (s.closure k)
  nextClosure : ∀ i, R.closure (s.closures.size + i) = t.closures.size + i
  otherClosure : ∀ j, (∀ k, R.closure k ≠ j) → t.closure j = R.second.closure j
  frame : ∀ f, t.frame f = R.onFrame (s.frame f)
  framesSize : t.frames.size = s.frames.size
  printed : ∃ later, s.printed = R.first.printed ++ later ∧ t.printed = R.second.printed ++ later
  events : t.events = s.events
  foreigns : t.foreigns = s.foreigns
  installations : t.installations = s.installations

namespace Holds

variable {R : Replication} {s t : Store} {v w : Value}

/-- The same cells are there in both stores. -/
lemma cell_lt_iff (h : R.Holds s t) (c : CellId) : R.cell c < t.cells.size ↔ c < s.cells.size := by
  constructor
  · intro hlt
    by_contra hc
    obtain ⟨i, rfl⟩ := Nat.exists_eq_add_of_le (not_lt.mp hc)
    rw [h.nextCell i] at hlt
    exact absurd hlt (not_lt.mpr (Nat.le_add_right _ i))
  · intro hc
    by_contra hlt
    obtain ⟨i, hi⟩ := Nat.exists_eq_add_of_le (not_lt.mp hlt)
    rw [← h.nextCell i] at hi
    exact absurd (R.cell_injective hi ▸ hc) (not_lt.mpr (Nat.le_add_right _ i))

lemma closure_lt_iff (h : R.Holds s t) (k : ClosureId) :
    R.closure k < t.closures.size ↔ k < s.closures.size := by
  constructor
  · intro hlt
    by_contra hk
    obtain ⟨i, rfl⟩ := Nat.exists_eq_add_of_le (not_lt.mp hk)
    rw [h.nextClosure i] at hlt
    exact absurd hlt (not_lt.mpr (Nat.le_add_right _ i))
  · intro hk
    by_contra hlt
    obtain ⟨i, hi⟩ := Nat.exists_eq_add_of_le (not_lt.mp hlt)
    rw [← h.nextClosure i] at hi
    exact absurd (R.closure_injective hi ▸ hk) (not_lt.mpr (Nat.le_add_right _ i))

/-- The second store is not the smaller one. -/
lemma size_le (h : R.Holds s t) : s.cells.size ≤ t.cells.size := by
  have himage : (Finset.range s.cells.size).image R.cell ⊆ Finset.range t.cells.size := by
    intro d hd
    obtain ⟨c, hc, rfl⟩ := Finset.mem_image.mp hd
    exact Finset.mem_range.mpr ((h.cell_lt_iff c).mpr (Finset.mem_range.mp hc))
  simpa [Finset.card_image_of_injective _ R.cell_injective] using Finset.card_le_card himage

/-! ### What is added -/

lemma cons (h : R.Holds s t) (hv : v.Within s.cells.size) (hw : w.Within s.cells.size) :
    R.Holds (s.cons v w).2 (t.cons (R.value v) (R.value w)).2 := by
  have hsize : (s.cons v w).2.cells.size = s.cells.size + 1 := by simp [Store.cons]
  have hsize' : (t.cons (R.value v) (R.value w)).2.cells.size = t.cells.size + 1 := by
    simp [Store.cons]
  have hnew : R.cell s.cells.size = t.cells.size := h.nextCell 0
  refine ⟨h.closed.cons hv hw, fun c => ?_, fun i => ?_, fun d hd => ?_, h.closure, h.nextClosure,
    h.otherClosure, h.frame, h.framesSize, h.printed, h.events, h.foreigns, h.installations⟩
  · simp only [Store.cell_cons, ← hnew, R.cell_injective.eq_iff]
    split
    · rfl
    · exact h.cell c
  · rw [hsize, hsize', Nat.add_assoc, Nat.add_assoc]
    exact h.nextCell (1 + i)
  · rw [Store.cell_cons, if_neg fun heq => hd s.cells.size (hnew.trans heq.symm)]
    exact h.otherCell d hd

lemma addFrame {bindings : List (Symbol × Value)} (h : R.Holds s t)
    (hbindings : ∀ b ∈ bindings, b.2.Within s.cells.size) (outer : Option FrameId) :
    R.Holds (s.addFrame bindings outer).2 (t.addFrame (R.onBindings bindings) outer).2 := by
  refine ⟨⟨h.closed.car, h.closed.cdr, fun f b hb => ?_, h.closed.body⟩, h.cell, h.nextCell,
    h.otherCell, h.closure, h.nextClosure, h.otherClosure, fun f => ?_, ?_, h.printed, h.events,
    h.foreigns, h.installations⟩
  · rw [Store.frame_addFrame] at hb
    split at hb
    · rcases Bindings.mem_putAll hb with hb | ⟨b', hb', heq⟩
      · cases hb
      · exact heq ▸ hbindings b' hb'
    · exact h.closed.bindings f b hb
  · rw [Store.frame_addFrame, Store.frame_addFrame, h.framesSize]
    split
    · exact congrArg (Frame.mk · outer) (R.putAll_onBindings bindings [])
    · exact h.frame f
  · simp [Store.addFrame, h.framesSize]

lemma addClosure {closure : Closure} (h : R.Holds s t)
    (hbody : ∀ form ∈ closure.body, form.Within s.cells.size) :
    R.Holds (s.addClosure closure).2 (t.addClosure (R.onClosure closure)).2 := by
  have hsize : (s.addClosure closure).2.closures.size = s.closures.size + 1 := by
    simp [Store.addClosure]
  have hsize' : (t.addClosure (R.onClosure closure)).2.closures.size = t.closures.size + 1 := by
    simp [Store.addClosure]
  have hnew : R.closure s.closures.size = t.closures.size := h.nextClosure 0
  refine ⟨⟨h.closed.car, h.closed.cdr, h.closed.bindings, fun k form hform => ?_⟩, h.cell, h.nextCell,
    h.otherCell, fun k => ?_, fun i => ?_, fun j hj => ?_, h.frame, h.framesSize, h.printed, h.events,
    h.foreigns, h.installations⟩
  · rw [Store.closure_addClosure] at hform
    split at hform
    · exact hbody form hform
    · exact h.closed.body k form hform
  · simp only [Store.closure_addClosure, ← hnew, R.closure_injective.eq_iff]
    split
    · rfl
    · exact h.closure k
  · rw [hsize, hsize', Nat.add_assoc, Nat.add_assoc]
    exact h.nextClosure (1 + i)
  · rw [Store.closure_addClosure, if_neg fun heq => hj s.closures.size (hnew.trans heq.symm)]
    exact h.otherClosure j hj

lemma addForeign (h : R.Holds s t) (w : ForeignValue) :
    (t.addForeign w).1 = (s.addForeign w).1 ∧ R.Holds (s.addForeign w).2 (t.addForeign w).2 := by
  unfold Store.addForeign
  rw [h.foreigns]
  split
  · exact ⟨rfl, h⟩
  · exact ⟨rfl, h.closed.of_sameNodes ⟨rfl, rfl, rfl⟩, h.cell, h.nextCell, h.otherCell, h.closure,
      h.nextClosure, h.otherClosure, h.frame, h.framesSize, h.printed, h.events, rfl,
      h.installations⟩

/-! ### What is changed -/

lemma modifyCell {c : CellId} {change change' : Cell → Cell} (h : R.Holds s t)
    (hc : c < s.cells.size) (hchange : ∀ cell, change' (R.onCell cell) = R.onCell (change cell))
    (hcar : (change (s.cell c)).car.Within s.cells.size)
    (hcdr : (change (s.cell c)).cdr.Within s.cells.size) :
    R.Holds { s with cells := s.cells.modify c change }
      { t with cells := t.cells.modify (R.cell c) change' } := by
  have hcell (u : Store) (d e : CellId) (g : Cell → Cell) (hd : d < u.cells.size) :
      ({ u with cells := u.cells.modify d g } : Store).cell e =
        if e = d then g (u.cell d) else u.cell e := by
    by_cases he : e = d
    · subst he
      simp [Store.cell, Array.getElem_modify, hd]
    · simp [Store.cell, Array.getElem?_modify, he, Ne.symm he]
  have hc' : R.cell c < t.cells.size := (h.cell_lt_iff c).mpr hc
  have hsize (u : Store) (d : CellId) (g : Cell → Cell) :
      ({ u with cells := u.cells.modify d g } : Store).cells.size = u.cells.size :=
    Array.size_modify
  refine ⟨⟨fun d => ?_, fun d => ?_, fun f b hb => ?_, fun k form hform => ?_⟩, fun d => ?_,
    fun i => ?_, fun d hd => ?_, h.closure, h.nextClosure, h.otherClosure, h.frame, h.framesSize,
    h.printed, h.events, h.foreigns, h.installations⟩
  · rw [hsize, hcell s c d change hc]
    split
    · exact hcar
    · exact h.closed.car d
  · rw [hsize, hcell s c d change hc]
    split
    · exact hcdr
    · exact h.closed.cdr d
  · rw [hsize]
    exact h.closed.bindings f b hb
  · rw [hsize]
    exact h.closed.body k form hform
  · simp only [hcell t _ _ change' hc', hcell s c d change hc, R.cell_injective.eq_iff]
    split
    · rw [h.cell c, hchange]
    · exact h.cell d
  · rw [hsize, hsize]
    exact h.nextCell i
  · rw [hcell t _ _ change' hc', if_neg fun heq => hd c heq.symm]
    exact h.otherCell d hd

lemma setCar {c : CellId} (h : R.Holds s t) (hc : c < s.cells.size) (hv : v.Within s.cells.size) :
    R.Holds (s.setCar c v) (t.setCar (R.cell c) (R.value v)) :=
  h.modifyCell hc (fun _ => rfl) hv (h.closed.cdr c)

lemma setCdr {c : CellId} (h : R.Holds s t) (hc : c < s.cells.size) (hv : v.Within s.cells.size) :
    R.Holds (s.setCdr c v) (t.setCdr (R.cell c) (R.value v)) :=
  h.modifyCell hc (fun _ => rfl) (h.closed.car c) hv

lemma define (h : R.Holds s t) (hv : v.Within s.cells.size) (f : FrameId) (x : Symbol) :
    R.Holds (s.define f x v) (t.define f x (R.value v)) := by
  refine ⟨⟨h.closed.car, h.closed.cdr, fun g b hb => ?_, h.closed.body⟩, h.cell, h.nextCell,
    h.otherCell, h.closure, h.nextClosure, h.otherClosure, fun g => ?_, ?_, h.printed, h.events,
    h.foreigns, h.installations⟩
  · rcases Store.mem_bindings_defineAll hb with hb | ⟨b', hb', heq⟩
    · exact h.closed.bindings g b hb
    · obtain rfl : b' = (x, v) := by simpa using hb'
      exact heq ▸ hv
  · rcases Nat.lt_or_ge f s.frames.size with hf | hf
    · have hf' : f < t.frames.size := h.framesSize ▸ hf
      rw [Store.define, Store.define, Store.frame_defineAll _ hf, Store.frame_defineAll _ hf']
      split
      · rw [h.frame f]
        exact congrArg (Frame.mk · _) (R.putAll_onBindings [(x, v)] _)
      · exact h.frame g
    · -- there is no such frame, in either store
      have hf' : t.frames.size ≤ f := h.framesSize ▸ hf
      have hnone (u : Store) (w : Value) (hu : u.frames.size ≤ f) :
          (u.define f x w).frame g = u.frame g := by
        by_cases hg : g < u.frames.size
        · have hne : f ≠ g := fun heq => absurd (heq ▸ hg) (not_lt.mpr hu)
          simp [Store.define, Store.defineAll, Store.frame, Array.getElem_modify, hg, hne]
        · simp [Store.define, Store.defineAll, Store.frame, hg]
      rw [hnone s v hf, hnone t _ hf']
      exact h.frame g
  · simp [Store.define, Store.defineAll, h.framesSize]

lemma nameClosure (h : R.Holds s t) (k : ClosureId) (x : Symbol) :
    R.Holds (s.nameClosure k x) (t.nameClosure (R.closure k) x) := by
  have hclosure (u : Store) (k j : ClosureId) : (u.nameClosure k x).closure j =
      if j = k ∧ k < u.closures.size then
        { u.closure k with name := (u.closure k).name.or (some x) } else u.closure j := by
    by_cases hj : j = k
    · subst hj
      by_cases hk : j < u.closures.size
      · simp [Store.nameClosure, Store.closure, Array.getElem_modify, hk]
      · simp [Store.nameClosure, Store.closure, hk]
    · simp [Store.nameClosure, Store.closure, Array.getElem?_modify, hj, Ne.symm hj]
  have hsize (u : Store) (k : ClosureId) :
      (u.nameClosure k x).closures.size = u.closures.size := Array.size_modify
  refine ⟨⟨h.closed.car, h.closed.cdr, h.closed.bindings, fun j form hform => ?_⟩, h.cell, h.nextCell,
    h.otherCell, fun j => ?_, fun i => ?_, fun j hj => ?_, h.frame, h.framesSize, h.printed, h.events,
    h.foreigns, h.installations⟩
  · rw [(Store.closure_nameClosure k x s j).2] at hform
    exact h.closed.body j form hform
  · simp only [hclosure, R.closure_injective.eq_iff, h.closure_lt_iff]
    split
    · rw [h.closure k]
      rfl
    · exact h.closure j
  · rw [hsize, hsize]
    exact h.nextClosure i
  · rw [hclosure, if_neg fun heq => hj k heq.1.symm]
    exact h.otherClosure j hj

/-! ### What is printed and reported -/

lemma print (h : R.Holds s t) (channel : Channel) (text : String) :
    R.Holds (s.print channel text) (t.print channel text) := by
  obtain ⟨later, hs, ht⟩ := h.printed
  refine ⟨h.closed.of_sameNodes ⟨rfl, rfl, rfl⟩, h.cell, h.nextCell, h.otherCell, h.closure,
    h.nextClosure, h.otherClosure, h.frame, h.framesSize, ⟨later.push (channel, text), ?_, ?_⟩,
    h.events, h.foreigns, h.installations⟩
  · simp [Store.print, hs, Array.push_append]
  · simp [Store.print, ht, Array.push_append]

lemma report (h : R.Holds s t) (event : Event) : R.Holds (s.report event) (t.report event) :=
  ⟨h.closed.of_sameNodes ⟨rfl, rfl, rfl⟩, h.cell, h.nextCell, h.otherCell, h.closure,
    h.nextClosure, h.otherClosure, h.frame, h.framesSize, h.printed,
    congrArg (Array.push · event) h.events, h.foreigns, h.installations⟩

end Holds

end Replication

end SmallScheme
