import Mathlib.Data.List.Perm.Subperm
import Mathlib.Tactic
import SmallScheme.Store.Chain

/-!
# Spines

The spine of a chain is the list of its cells.  A chain that has a spine is finite, and since the
rest of a chain is determined by its first cell, no cell occurs twice in a spine.  So a spine is
not longer than the store, and following the chain that far finds its end (`Spine.chain?_eq`).

A store that only gains cells keeps its spines (`Spine.mono`), and a new chain goes on in the spine of
its end (`Spine.exists_chain`).
-/

namespace SmallScheme

namespace Store

/-- The second store has all cells of the first one, with the same contents. -/
structure Extends (s s' : Store) : Prop where
  size_le : s.cells.size ≤ s'.cells.size
  cell_eq : ∀ c < s.cells.size, s'.cell c = s.cell c

lemma Extends.refl (s : Store) : s.Extends s :=
  ⟨le_rfl, fun _ _ => rfl⟩

lemma Extends.trans {s₁ s₂ s₃ : Store} (h : s₁.Extends s₂) (h' : s₂.Extends s₃) :
    s₁.Extends s₃ := by
  refine ⟨h.size_le.trans h'.size_le, fun c hc => ?_⟩
  rw [h'.cell_eq c (hc.trans_le h.size_le), h.cell_eq c hc]

/-- A new pair has the next number. -/
lemma lt_size_cons (car cdr : Value) (s : Store) :
    s.cells.size < (s.cons car cdr).2.cells.size := by
  simp [cons]

lemma extends_cons (car cdr : Value) (s : Store) : s.Extends (s.cons car cdr).2 :=
  ⟨(lt_size_cons car cdr s).le, fun _ hc => cell_cons_of_lt car cdr hc⟩

lemma extends_chain (vs : List Value) (last : Value) (s : Store) :
    s.Extends (s.chain vs last).2 := by
  induction vs with
  | nil => exact .refl s
  | cons v vs ih => exact ih.trans (extends_cons _ _ _)

/-- `cs` are the cells of the chain that starts at a value, and `last` is what it ends in. -/
inductive Spine (s : Store) : Value → List CellId → Value → Prop
  | last {v : Value} : (∀ c, v ≠ .pair c) → Spine s v [] v
  | pair {c : CellId} {cs : List CellId} {last : Value} : c < s.cells.size →
      Spine s (s.cell c).cdr cs last → Spine s (.pair c) (c :: cs) last

namespace Spine

variable {s s' : Store} {v last last' : Value} {c : CellId} {cs ds : List CellId}

lemma pair_inv (h : s.Spine (.pair c) cs last) :
    c < s.cells.size ∧ ∃ ds, cs = c :: ds ∧ s.Spine (s.cell c).cdr ds last := by
  cases h with
  | last hne => exact absurd rfl (hne c)
  | pair hc hrest => exact ⟨hc, _, rfl, hrest⟩

/-- A chain has one spine and one end. -/
lemma unique (h : s.Spine v cs last) (h' : s.Spine v ds last') : cs = ds ∧ last = last' := by
  induction h generalizing ds with
  | last hne =>
    cases h' with
    | last => exact ⟨rfl, rfl⟩
    | pair => exact absurd rfl (hne _)
  | pair _ _ ih =>
    obtain ⟨-, ds, rfl, hrest⟩ := h'.pair_inv
    obtain ⟨rfl, rfl⟩ := ih hrest
    exact ⟨rfl, rfl⟩

lemma lt_of_mem (h : s.Spine v cs last) (hmem : c ∈ cs) : c < s.cells.size := by
  induction h with
  | last => simp at hmem
  | pair hc _ ih =>
    rcases List.mem_cons.mp hmem with rfl | hmem
    · exact hc
    · exact ih hmem

/-- From each cell of a spine on, the chain has a spine that is no longer. -/
lemma of_mem (h : s.Spine v cs last) (hmem : c ∈ cs) :
    ∃ ds, s.Spine (.pair c) ds last ∧ ds.length ≤ cs.length := by
  induction h with
  | last => simp at hmem
  | @pair d cs last hd hrest ih =>
    rcases List.mem_cons.mp hmem with rfl | hmem
    · exact ⟨c :: cs, .pair hd hrest, le_rfl⟩
    · obtain ⟨ds, hds, hlength⟩ := ih hmem
      exact ⟨ds, hds, hlength.trans (Nat.le_succ _)⟩

lemma nodup (h : s.Spine v cs last) : cs.Nodup := by
  induction h with
  | last => exact List.nodup_nil
  | @pair c cs last hc hrest ih =>
    refine List.nodup_cons.mpr ⟨fun hmem => ?_, ih⟩
    obtain ⟨ds, hds, hlength⟩ := hrest.of_mem hmem
    obtain ⟨rfl, -⟩ := hds.unique (.pair hc hrest)
    rw [List.length_cons] at hlength
    omega

/-- **No spine is longer than its store.** -/
theorem length_le (h : s.Spine v cs last) : cs.length ≤ s.cells.size := by
  have hsubset : cs ⊆ List.range s.cells.size := fun c hc => List.mem_range.mpr (h.lt_of_mem hc)
  simpa using h.nodup.length_le_of_subset hsubset

lemma chainWithin?_eq (h : s.Spine v cs last) {limit : Nat} (hlimit : cs.length ≤ limit) :
    s.chainWithin? limit v = some (cs.map fun c => (s.cell c).car, last) := by
  induction h generalizing limit with
  | @last v hne =>
    cases v with
    | pair c => exact absurd rfl (hne c)
    | _ => simp [chainWithin?]
  | @pair c cs last _ _ ih =>
    rw [List.length_cons] at hlimit
    obtain ⟨limit, rfl⟩ : ∃ k, limit = k + 1 := ⟨limit - 1, by omega⟩
    rw [chainWithin?_pair_succ, ih (by omega)]
    rfl

/-- **A chain with a spine is found**, with its members and its end. -/
theorem chain?_eq (h : s.Spine v cs last) :
    s.chain? v = some (cs.map fun c => (s.cell c).car, last) :=
  h.chainWithin?_eq h.length_le

lemma mono (h : s.Spine v cs last) (hext : s.Extends s') : s'.Spine v cs last := by
  induction h with
  | last hne => exact .last hne
  | pair hc _ ih => exact .pair (hc.trans_le hext.size_le) (by rwa [hext.cell_eq _ hc])

/-- The members stay the same as well. -/
lemma map_car_eq (h : s.Spine v cs last) (hext : s.Extends s') :
    (cs.map fun c => (s'.cell c).car) = cs.map fun c => (s.cell c).car :=
  List.map_congr_left fun c hc => congrArg Cell.car (hext.cell_eq c (h.lt_of_mem hc))

/-! ### New chains -/

/-- A new pair in front of a chain. -/
lemma cons (h : s.Spine v cs last) (w : Value) :
    (s.cons w v).2.Spine (s.cons w v).1 (s.cells.size :: cs) last := by
  refine .pair (lt_size_cons w v s) ?_
  rw [cell_cons_self]
  exact h.mono (extends_cons w v s)

lemma map_car_cons (h : s.Spine v cs last) (w : Value) :
    ((s.cells.size :: cs).map fun c => ((s.cons w v).2.cell c).car) =
      w :: cs.map fun c => (s.cell c).car := by
  rw [List.map_cons, cell_cons_self, h.map_car_eq (extends_cons w v s)]

/-- A new chain has new cells for its members, and then come the cells of its end. -/
lemma exists_chain (h : s.Spine v cs last) (vs : List Value) :
    ∃ new, (s.chain vs v).2.Spine (s.chain vs v).1 (new ++ cs) last ∧
      ((new ++ cs).map fun c => ((s.chain vs v).2.cell c).car) =
        vs ++ cs.map (fun c => (s.cell c).car) ∧
      ∀ c ∈ new, s.cells.size ≤ c := by
  induction vs with
  | nil => exact ⟨[], h, rfl, nofun⟩
  | cons w vs ih =>
    obtain ⟨new, hspine, hmembers, hnew⟩ := ih
    exact ⟨_ :: new, hspine.cons w, (hspine.map_car_cons w).trans (congrArg (w :: ·) hmembers),
      List.forall_mem_cons.mpr ⟨(extends_chain vs v s).size_le, hnew⟩⟩

end Spine

end Store

end SmallScheme
