import Mathlib.Logic.Relation
import Mathlib.Tactic
import SmallScheme.Store

/-!
# The nodes of a store

Cells, frames and closures are the nodes of a store, and every node leads to those that are
mentioned in it (`Store.Leads`).  A store is well formed if it has all nodes that are mentioned in
its own ones (`Store.WellFormed`).  Every operation on a store adds one node or changes one, and
leaves the others as they are (`Store.SameExcept`).
-/

namespace SmallScheme

/-! ## Bindings -/

namespace Bindings

variable {x : Symbol} {v : Value} {b : Symbol × Value} {bs new : Bindings}

lemma mem_of_get? (h : bs.get? x = some v) : ∃ b ∈ bs, b.2 = v := by
  induction bs with
  | nil => cases h
  | cons b bs ih =>
    rw [get?] at h
    split at h
    · exact ⟨b, by simp, Option.some.inj h⟩
    · obtain ⟨b', hb', hv⟩ := ih h
      exact ⟨b', by simp [hb'], hv⟩

lemma mem_put (h : b ∈ put x v bs) : b ∈ bs ∨ b.2 = v := by
  induction bs with
  | nil =>
    rw [put, List.mem_singleton] at h
    exact .inr (by rw [h])
  | cons b' bs ih =>
    rw [put] at h
    split at h
    · rcases List.mem_cons.mp h with rfl | h
      · exact .inr rfl
      · exact .inl (List.mem_cons_of_mem _ h)
    · rcases List.mem_cons.mp h with rfl | h
      · exact .inl List.mem_cons_self
      · exact (ih h).imp_left (List.mem_cons_of_mem _)

lemma mem_putAll (h : b ∈ putAll new bs) : b ∈ bs ∨ ∃ b' ∈ new, b.2 = b'.2 := by
  induction new generalizing bs with
  | nil => exact .inl h
  | cons b' new ih =>
    rcases ih h with h | ⟨b'', hmem, hb⟩
    · rcases mem_put h with h | h
      · exact .inl h
      · exact .inr ⟨b', by simp, h⟩
    · exact .inr ⟨b'', by simp [hmem], hb⟩

end Bindings

/-! ## Nodes -/

/-- A cell, a frame or a closure. -/
inductive Node where
  | cell (c : CellId)
  | frame (f : FrameId)
  | closure (k : ClosureId)
  deriving DecidableEq

/-- The node that a value stands for. -/
def Value.node? : Value → Option Node
  | .pair c => some (.cell c)
  | .closure k => some (.closure k)
  | _ => none

/-- No value stands for a frame. -/
lemma Value.node?_ne_frame (v : Value) (f : FrameId) : v.node? ≠ some (.frame f) := by
  cases v <;> simp [node?]

/-- How many nodes of each kind there are. -/
structure Extent where
  /-- The number of cells. -/
  cells : Nat
  /-- The number of frames. -/
  frames : Nat
  /-- The number of closures. -/
  closures : Nat

namespace Extent

/-- The node is one of those that there are. -/
def Has (x : Extent) : Node → Prop
  | .cell c => c < x.cells
  | .frame f => f < x.frames
  | .closure k => k < x.closures

instance (x : Extent) : DecidablePred x.Has
  | .cell c => inferInstanceAs (Decidable (c < x.cells))
  | .frame f => inferInstanceAs (Decidable (f < x.frames))
  | .closure k => inferInstanceAs (Decidable (k < x.closures))

/-- There are at least as many nodes of each kind. -/
structure Le (x y : Extent) : Prop where
  cells : x.cells ≤ y.cells
  frames : x.frames ≤ y.frames
  closures : x.closures ≤ y.closures

lemma Le.refl (x : Extent) : x.Le x :=
  ⟨le_rfl, le_rfl, le_rfl⟩

lemma Le.trans {x y z : Extent} (h : x.Le y) (h' : y.Le z) : x.Le z :=
  ⟨h.cells.trans h'.cells, h.frames.trans h'.frames, h.closures.trans h'.closures⟩

lemma Has.mono {x y : Extent} {n : Node} (h : x.Has n) (hle : x.Le y) : y.Has n := by
  cases n with
  | cell c => exact h.trans_le hle.cells
  | frame f => exact h.trans_le hle.frames
  | closure k => exact h.trans_le hle.closures

end Extent

namespace Store

variable {s s' : Store} {m n : Node} {c : CellId} {f : FrameId} {k : ClosureId}
  {car cdr v : Value}

/-- How many nodes a store has. -/
def extent (s : Store) : Extent :=
  ⟨s.cells.size, s.frames.size, s.closures.size⟩

/-- The node is mentioned in the other one. -/
inductive Leads (s : Store) : Node → Node → Prop
  | car {c : CellId} {n : Node} : (s.cell c).car.node? = some n → Leads s (.cell c) n
  | cdr {c : CellId} {n : Node} : (s.cell c).cdr.node? = some n → Leads s (.cell c) n
  | binding {f : FrameId} {b : Symbol × Value} {n : Node} : b ∈ (s.frame f).bindings →
      b.2.node? = some n → Leads s (.frame f) n
  | outer {f g : FrameId} : (s.frame f).outer = some g → Leads s (.frame f) (.frame g)
  | env (k : ClosureId) : Leads s (.closure k) (.frame (s.closure k).env)
  | body {k : ClosureId} {form : Value} {n : Node} : form ∈ (s.closure k).body →
      form.node? = some n → Leads s (.closure k) n

/-- Every node that is mentioned in a node of the store is one of its nodes as well. -/
def WellFormed (s : Store) : Prop :=
  ∀ m n, s.extent.Has m → s.Leads m n → s.extent.Has n

/-- Both stores have the same at a node. -/
def SameAt (s s' : Store) : Node → Prop
  | .cell c => s'.cell c = s.cell c
  | .frame f => s'.frame f = s.frame f
  | .closure k => s'.closure k = s.closure k

lemma SameAt.refl (s : Store) (n : Node) : s.SameAt s n := by
  cases n <;> rfl

lemma SameAt.trans {s₁ s₂ s₃ : Store} (h : s₁.SameAt s₂ n) (h' : s₂.SameAt s₃ n) :
    s₁.SameAt s₃ n := by
  cases n with
  | cell c => exact Eq.trans h' h
  | frame f => exact Eq.trans h' h
  | closure k => exact Eq.trans h' h

/-- What is mentioned in a node depends on the node alone. -/
lemma SameAt.leads (h : s.SameAt s' m) (hlead : s'.Leads m n) : s.Leads m n := by
  cases hlead with
  | @car c _ hcar =>
    rw [show s'.cell c = s.cell c from h] at hcar
    exact .car hcar
  | @cdr c _ hcdr =>
    rw [show s'.cell c = s.cell c from h] at hcdr
    exact .cdr hcdr
  | @binding f b _ hb hn =>
    rw [show s'.frame f = s.frame f from h] at hb
    exact .binding hb hn
  | @outer f g hg =>
    rw [show s'.frame f = s.frame f from h] at hg
    exact .outer hg
  | env k =>
    rw [show s'.closure k = s.closure k from h]
    exact .env k
  | @body k form _ hform hn =>
    rw [show s'.closure k = s.closure k from h] at hform
    exact .body hform hn

/-- The second store has all nodes of the first one and at most one further node, and both have the
same everywhere except at that node. -/
structure SameExcept (s s' : Store) (touched : Node) : Prop where
  le : s.extent.Le s'.extent
  has : ∀ n, n ≠ touched → s'.extent.Has n → s.extent.Has n
  same : ∀ n, n ≠ touched → s.SameAt s' n

/-- An operation that changes one node. -/
lemma sameExcept_of_extent_eq (hextent : s'.extent = s.extent)
    (hsame : ∀ m, m ≠ n → s.SameAt s' m) : s.SameExcept s' n :=
  ⟨hextent ▸ .refl _, fun _ _ hm => hextent ▸ hm, hsame⟩

/-! ### Operations that add a node -/

lemma sameExcept_cons (s : Store) (car cdr : Value) :
    s.SameExcept (s.cons car cdr).2 (.cell s.cells.size) := by
  refine ⟨⟨by simp [extent, cons], le_rfl, le_rfl⟩, fun n hne hn => ?_, fun n hne => ?_⟩
  · cases n with
    | cell c =>
      have hlt : c < (s.cons car cdr).2.cells.size := hn
      rw [cons, Array.size_push] at hlt
      exact Nat.lt_of_le_of_ne (Nat.lt_succ_iff.mp hlt) fun h => hne (congrArg Node.cell h)
    | _ => exact hn
  · cases n with
    | cell c =>
      have hc : c ≠ s.cells.size := fun h => hne (by rw [h])
      simp [SameAt, cons, cell, Array.getElem?_push, hc]
    | _ => rfl

lemma sameExcept_addFrame (s : Store) (bindings : List (Symbol × Value)) (outer : Option FrameId) :
    s.SameExcept (s.addFrame bindings outer).2 (.frame s.frames.size) := by
  refine ⟨⟨le_rfl, by simp [extent, addFrame], le_rfl⟩, fun n hne hn => ?_, fun n hne => ?_⟩
  · cases n with
    | frame f =>
      have hlt : f < (s.addFrame bindings outer).2.frames.size := hn
      rw [addFrame, Array.size_push] at hlt
      exact Nat.lt_of_le_of_ne (Nat.lt_succ_iff.mp hlt) fun h => hne (congrArg Node.frame h)
    | _ => exact hn
  · cases n with
    | frame f =>
      have hf : f ≠ s.frames.size := fun h => hne (by rw [h])
      simp [SameAt, addFrame, frame, Array.getElem?_push, hf]
    | _ => rfl

lemma sameExcept_addClosure (s : Store) (closure : Closure) :
    s.SameExcept (s.addClosure closure).2 (.closure s.closures.size) := by
  refine ⟨⟨le_rfl, le_rfl, by simp [extent, addClosure]⟩, fun n hne hn => ?_, fun n hne => ?_⟩
  · cases n with
    | closure k =>
      have hlt : k < (s.addClosure closure).2.closures.size := hn
      rw [addClosure, Array.size_push] at hlt
      exact Nat.lt_of_le_of_ne (Nat.lt_succ_iff.mp hlt) fun h => hne (congrArg Node.closure h)
    | _ => exact hn
  · cases n with
    | closure k =>
      have hk : k ≠ s.closures.size := fun h => hne (by rw [h])
      simp [SameAt, addClosure, Store.closure, Array.getElem?_push, hk]
    | _ => rfl

/-! ### Operations that change a node -/

lemma sameExcept_setCar (s : Store) (c : CellId) (v : Value) :
    s.SameExcept (s.setCar c v) (.cell c) := by
  refine sameExcept_of_extent_eq (by simp [extent, setCar]) fun n hne => ?_
  cases n with
  | cell d =>
    have hd : c ≠ d := fun h => hne (by rw [h])
    simp [SameAt, setCar, cell, Array.getElem?_modify, hd]
  | _ => rfl

lemma sameExcept_setCdr (s : Store) (c : CellId) (v : Value) :
    s.SameExcept (s.setCdr c v) (.cell c) := by
  refine sameExcept_of_extent_eq (by simp [extent, setCdr]) fun n hne => ?_
  cases n with
  | cell d =>
    have hd : c ≠ d := fun h => hne (by rw [h])
    simp [SameAt, setCdr, cell, Array.getElem?_modify, hd]
  | _ => rfl

lemma sameExcept_define (s : Store) (f : FrameId) (x : Symbol) (v : Value) :
    s.SameExcept (s.define f x v) (.frame f) := by
  refine sameExcept_of_extent_eq (by simp [extent, define, defineAll]) fun n hne => ?_
  cases n with
  | frame g =>
    have hg : f ≠ g := fun h => hne (by rw [h])
    simp [SameAt, define, defineAll, frame, Array.getElem?_modify, hg]
  | _ => rfl

lemma sameExcept_nameClosure (s : Store) (k : ClosureId) (x : Symbol) :
    s.SameExcept (s.nameClosure k x) (.closure k) := by
  refine sameExcept_of_extent_eq (by simp [extent, nameClosure]) fun n hne => ?_
  cases n with
  | closure j =>
    have hj : k ≠ j := fun h => hne (by rw [h])
    simp [SameAt, nameClosure, Store.closure, Array.getElem?_modify, hj]
  | _ => rfl

/-! ### What a changed node mentions -/

lemma leads_cons (h : (s.cons car cdr).2.Leads (.cell s.cells.size) n) :
    car.node? = some n ∨ cdr.node? = some n := by
  have hcell := cell_cons_self car cdr s
  cases h with
  | car h => exact .inl (by rwa [hcell] at h)
  | cdr h => exact .inr (by rwa [hcell] at h)

lemma leads_setCar (hc : c < s.cells.size) (h : (s.setCar c v).Leads (.cell c) n) :
    v.node? = some n ∨ s.Leads (.cell c) n := by
  have hcell : (s.setCar c v).cell c = ⟨v, (s.cell c).cdr⟩ := by
    rw [cell_setCar v hc, if_pos rfl]
  cases h with
  | car h => exact .inl (by rwa [hcell] at h)
  | cdr h => exact .inr (.cdr (by rwa [hcell] at h))

lemma leads_setCdr (hc : c < s.cells.size) (h : (s.setCdr c v).Leads (.cell c) n) :
    v.node? = some n ∨ s.Leads (.cell c) n := by
  have hcell : (s.setCdr c v).cell c = ⟨(s.cell c).car, v⟩ := by
    rw [cell_setCdr v hc, if_pos rfl]
  cases h with
  | car h => exact .inr (.car (by rwa [hcell] at h))
  | cdr h => exact .inl (by rwa [hcell] at h)

lemma leads_addFrame {bindings : List (Symbol × Value)} {outer : Option FrameId}
    (h : (s.addFrame bindings outer).2.Leads (.frame s.frames.size) n) :
    (∃ b ∈ bindings, b.2.node? = some n) ∨ ∃ g, outer = some g ∧ n = .frame g := by
  have hframe := frame_addFrame_self bindings outer s
  cases h with
  | @binding _ b _ hb hn =>
    rw [hframe] at hb
    rcases Bindings.mem_putAll hb with hb | ⟨b', hb', heq⟩
    · simp at hb
    · exact .inl ⟨b', hb', by rw [← hn, heq]⟩
  | @outer _ g hg => exact .inr ⟨g, by rwa [hframe] at hg, rfl⟩

/-- Whatever a frame binds after a definition was bound before or is one of the new values. -/
lemma mem_bindings_defineAll {b : Symbol × Value} {new : List (Symbol × Value)} {g : FrameId}
    (h : b ∈ ((s.defineAll f new).frame g).bindings) :
    b ∈ (s.frame g).bindings ∨ ∃ b' ∈ new, b.2 = b'.2 := by
  -- a definition in a frame that is not there does nothing
  by_cases hf : f < s.frames.size
  · rw [frame_defineAll new hf] at h
    split at h
    · rename_i hg
      exact hg ▸ Bindings.mem_putAll h
    · exact .inl h
  · have hframe : (s.defineAll f new).frame g = s.frame g := by
      by_cases hg : g < s.frames.size
      · have hne : f ≠ g := fun heq => hf (heq ▸ hg)
        simp [defineAll, frame, Array.getElem_modify, hg, hne]
      · simp [defineAll, frame, hg]
    exact .inl (hframe ▸ h)

lemma leads_define {x : Symbol} (hf : f < s.frames.size)
    (h : (s.define f x v).Leads (.frame f) n) : v.node? = some n ∨ s.Leads (.frame f) n := by
  cases h with
  | @binding _ b _ hb hn =>
    rcases mem_bindings_defineAll hb with hb | ⟨b', hb', heq⟩
    · exact .inr (.binding hb hn)
    · obtain rfl : b' = (x, v) := by simpa using hb'
      exact .inl (by rw [← hn, heq])
  | outer hg =>
    rw [define, frame_defineAll [(x, v)] hf, if_pos rfl] at hg
    exact .inr (.outer hg)

lemma leads_addClosure {closure : Closure}
    (h : (s.addClosure closure).2.Leads (.closure s.closures.size) n) :
    n = .frame closure.env ∨ ∃ form ∈ closure.body, form.node? = some n := by
  have hclosure := closure_addClosure_self closure s
  cases h with
  | env => exact .inl (by rw [hclosure])
  | @body _ form _ hform hn => exact .inr ⟨form, by rwa [hclosure] at hform, hn⟩

/-- A closure keeps everything but its name. -/
lemma closure_nameClosure (k : ClosureId) (x : Symbol) (s : Store) (j : ClosureId) :
    ((s.nameClosure k x).closure j).env = (s.closure j).env ∧
      ((s.nameClosure k x).closure j).body = (s.closure j).body := by
  by_cases hj : j < s.closures.size
  · by_cases hk : k = j <;> simp [nameClosure, Store.closure, Array.getElem_modify, hj, hk]
  · simp [nameClosure, Store.closure, hj]

lemma leads_nameClosure {x : Symbol} (h : (s.nameClosure k x).Leads (.closure k) n) :
    s.Leads (.closure k) n := by
  have hclosure := closure_nameClosure k x s k
  cases h with
  | env =>
    rw [hclosure.1]
    exact .env k
  | @body _ form _ hform hn => exact .body (by rwa [hclosure.2] at hform) hn

end Store

end SmallScheme
