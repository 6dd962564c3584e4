import SmallScheme.Proofs.Comparing
import SmallScheme.Proofs.Spine
import SmallScheme.Store.Tree

/-!
# The data that values stand for

A value that is made of atoms and of cells that do not lead back to themselves stands for a finite
tree (`Store.Unfolds`); shared cells occur in it several times.

* A datum that is loaded into a store stands for itself (`unfolds_load`), and no other value
  changes.
* Two values have the same structure if and only if they stand for the same datum
  (`sameStructureAs_iff`).
-/

namespace SmallScheme

namespace Datum

/-- How many pairs a datum has. -/
def pairs : Datum → Nat
  | atom _ => 0
  | cons car cdr => car.pairs + cdr.pairs + 1

/-- The drawing of a value that stands for the datum. -/
def drawing : Datum → Drawing
  | .atom a => .leaf (.atom a)
  | .cons car cdr => .pair car.drawing cdr.drawing

lemma drawing_injective : Function.Injective drawing := by
  intro d e h
  induction d generalizing e with
  | atom a =>
    cases e with
    | atom b => simpa [drawing] using h
    | cons => cases h
  | cons car cdr ihcar ihcdr =>
    cases e with
    | atom b => cases h
    | cons car' cdr' =>
      obtain ⟨hcar, hcdr⟩ := Drawing.pair.inj h
      rw [ihcar hcar, ihcdr hcdr]

end Datum

namespace Store

/-- The value stands for the datum. -/
inductive Unfolds (s : Store) : Value → Datum → Prop
  | atom (a : Atom) : Unfolds s (.atom a) (.atom a)
  | pair {c : CellId} {d e : Datum} : c < s.cells.size → Unfolds s (s.cell c).car d →
      Unfolds s (s.cell c).cdr e → Unfolds s (.pair c) (.cons d e)

/-- Two values have the same structure, however deep they are. -/
def SameStructureAs (s : Store) (v w : Value) : Prop :=
  ∃ depth, ∀ limit, depth ≤ limit → s.sameStructure limit v w = .ok true

namespace Unfolds

variable {s s' : Store} {v w : Value} {c : CellId} {d e : Datum}

lemma atom_inv {a : Atom} (h : s.Unfolds (.atom a) d) : d = .atom a := by
  cases h
  rfl

lemma pair_inv (h : s.Unfolds (.pair c) d) :
    c < s.cells.size ∧ ∃ car cdr, d = .cons car cdr ∧ s.Unfolds (s.cell c).car car ∧
      s.Unfolds (s.cell c).cdr cdr := by
  cases h with
  | pair hc hcar hcdr => exact ⟨hc, _, _, rfl, hcar, hcdr⟩

/-- A value stands for one datum at most. -/
lemma unique (h : s.Unfolds v d) (h' : s.Unfolds v e) : d = e := by
  induction h generalizing e with
  | atom a => exact h'.atom_inv.symm
  | pair _ _ _ ihcar ihcdr =>
    obtain ⟨-, car, cdr, rfl, hcar, hcdr⟩ := h'.pair_inv
    rw [ihcar hcar, ihcdr hcdr]

lemma mono (h : s.Unfolds v d) (hext : s.Extends s') : s'.Unfolds v d := by
  induction h with
  | atom a => exact .atom a
  | pair hc _ _ ihcar ihcdr =>
    refine .pair (hc.trans_le hext.size_le) ?_ ?_
    · rwa [hext.cell_eq _ hc]
    · rwa [hext.cell_eq _ hc]

/-- The chain of a datum has a spine. -/
lemma spine (h : s.Unfolds v d) :
    ∃ cs, s.Spine v cs (.atom d.tail) ∧ cs.length = d.items.length := by
  induction h with
  | atom a => exact ⟨[], .last (by simp), rfl⟩
  | @pair c d e hc _ _ _ ihcdr =>
    obtain ⟨cs, hcs, hlength⟩ := ihcdr
    exact ⟨c :: cs, .pair hc hcs, by simp [Datum.items, hlength]⟩

end Unfolds

/-! ## Loading -/

lemma extends_load (d : Datum) (s : Store) : s.Extends (s.load d).2 := by
  induction d generalizing s with
  | atom a => exact .refl s
  | cons car cdr ihcar ihcdr => exact ((ihcar s).trans (ihcdr _)).trans (extends_cons _ _ _)

lemma unfolds_cons {s : Store} {v w : Value} {d e : Datum} (hv : s.Unfolds v d)
    (hw : s.Unfolds w e) : (s.cons v w).2.Unfolds (s.cons v w).1 (.cons d e) := by
  have hext := extends_cons v w s
  have hcell := cell_cons_self v w s
  refine .pair (lt_size_cons v w s) ?_ ?_
  · rw [hcell]
    exact hv.mono hext
  · rw [hcell]
    exact hw.mono hext

/-- **A datum that is loaded stands for itself.** -/
theorem unfolds_load (d : Datum) (s : Store) : (s.load d).2.Unfolds (s.load d).1 d := by
  induction d generalizing s with
  | atom a => exact .atom a
  | cons car cdr ihcar ihcdr =>
    have hcar := (ihcar s).mono (extends_load cdr _)
    exact unfolds_cons hcar (ihcdr _)

lemma extends_loadAll (ds : List Datum) (s : Store) : s.Extends (s.loadAll ds).2 := by
  induction ds generalizing s with
  | nil => exact .refl s
  | cons d ds ih => exact (extends_load d s).trans (ih _)

lemma unfolds_loadAll (ds : List Datum) (s : Store) :
    List.Forall₂ (s.loadAll ds).2.Unfolds (s.loadAll ds).1 ds := by
  induction ds generalizing s with
  | nil => exact .nil
  | cons d ds ih => exact .cons ((unfolds_load d s).mono (extends_loadAll ds _)) (ih _)

/-! ## Equality -/

section Equality

variable {s : Store} {v w : Value} {d e : Datum}

/-- A value that stands for a datum is drawn in full. -/
lemma Unfolds.unrolls (h : s.Unfolds v d) : s.Unrolls v d.drawing := by
  induction h with
  | atom a => exact .leaf nofun
  | pair _ _ _ ihcar ihcdr => exact .pair ihcar ihcdr

/-- **Two values have the same structure if and only if they stand for the same datum.** -/
theorem sameStructureAs_iff (hv : s.Unfolds v d) (hw : s.Unfolds w e) :
    s.SameStructureAs v w ↔ d = e := by
  have hcompares : s.Compares v w (decide (d = e)) := by
    simpa only [Datum.drawing_injective.eq_iff] using compares_of_unrolls hv.unrolls hw.unrolls
  constructor
  · rintro ⟨depth, h⟩
    have hanswer := hcompares.of_any depth
    rw [h depth le_rfl] at hanswer
    simpa using hanswer
  · rintro rfl
    refine ⟨s.cells.size + 1, fun limit hlimit => ?_⟩
    simpa using hcompares.of_lt hlimit

lemma forall₂_sameStructureAs {vs ws : List Value} {ds : List Datum}
    (hvs : List.Forall₂ s.Unfolds vs ds) (hws : List.Forall₂ s.Unfolds ws ds) :
    List.Forall₂ s.SameStructureAs vs ws := by
  induction hvs generalizing ws with
  | nil =>
    cases hws
    exact .nil
  | cons hv _ ih =>
    cases hws with
    | cons hw hws => exact .cons ((sameStructureAs_iff hv hw).mpr rfl) (ih hws)

end Equality

end Store

end SmallScheme
