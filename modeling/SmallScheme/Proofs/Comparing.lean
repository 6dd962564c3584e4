import SmallScheme.Proofs.Drawing
import SmallScheme.Store.Equality

/-!
# Comparing values

Values without cycles have the same structure if and only if they have the same drawing, which is a
tree with values that are no pairs at its leaves.  Which pairs are shared makes no difference.

Comparing goes as deep into two values as pairs are inside one another (`Drawing.depth`).  No value
without cycles is deeper than the store has cells, so a limit that is larger than their number is
enough, and the answer does not depend on it (`Store.Compares`).  The main result is
`Store.compares_of_unrolls`.
-/

namespace SmallScheme

/-- How many pairs are inside one another, no matter in which of their parts. -/
def Drawing.depth : Drawing → Nat
  | leaf _ | cut => 0
  | pair car cdr => max car.depth cdr.depth + 1

namespace Store

/-- Comparing two values gives the answer if the limit is larger than the number of cells.  With a
smaller limit they may be nested too deeply instead, but there is no other answer. -/
structure Compares (s : Store) (v w : Value) (answer : Bool) : Prop where
  of_lt : ∀ {limit : Nat}, s.cells.size < limit → s.sameStructure limit v w = .ok answer
  of_any : ∀ limit, s.sameStructure limit v w = .ok answer ∨
    s.sameStructure limit v w = .error .tooDeep

variable {s : Store} {path : List CellId} {v w : Value} {b c : CellId} {d e : Drawing} {limit : Nat}

/-! ## Depth -/

/-- Every pair on the way down is a cell that the path has not come through. -/
lemma Draws.depth_le (h : s.Draws path v d) : d.depth ≤ s.spare path + 1 := by
  induction h with
  | leaf | cut => exact Nat.zero_le _
  | @pair path c d e hc hcar hcdr ihcar ihcdr =>
    rw [Drawing.depth]
    by_cases hlt : c < s.cells.size
    · have hspare := spare_cons hlt hc
      omega
    · -- the parts of a cell that is not there are no pairs
      rw [cell_of_size_le (not_lt.mp hlt)] at hcar hcdr
      cases hcar
      cases hcdr
      simp [Drawing.depth]

/-- What is drawn in full is no deeper than the store has cells, or one deeper if a cell is not there. -/
lemma Unrolls.depth_le (h : s.Unrolls v d) : d.depth ≤ s.cells.size + 1 :=
  h.draws.depth_le.trans (Nat.succ_le_succ (s.spare_le []))

/-! ## Answers -/

/-- Other values than pairs are equal or not, whatever the limit is. -/
lemma sameStructure_of_not_pair (hv : ∀ c, v ≠ .pair c) (limit : Nat) (w : Value) :
    s.sameStructure limit v w = .ok (v == w) := by
  cases v with
  | pair c => exact absurd rfl (hv c)
  | _ => simp [sameStructure]

/-- The second parts matter if the first parts agree. -/
lemma sameStructure_pair_of_ok {answer : Bool}
    (h : s.sameStructure limit (s.cell b).car (s.cell c).car = .ok answer) :
    s.sameStructure (limit + 1) (.pair b) (.pair c) =
      if answer then s.sameStructure limit (s.cell b).cdr (s.cell c).cdr else .ok false := by
  rw [sameStructure, h]
  rfl

lemma sameStructure_pair_of_error {fault : Error}
    (h : s.sameStructure limit (s.cell b).car (s.cell c).car = .error fault) :
    s.sameStructure (limit + 1) (.pair b) (.pair c) = .error fault := by
  rw [sameStructure, h]
  rfl

/-- Comparing follows both drawings at once.  A limit that is too small is smaller than the depth. -/
lemma sameStructure_of_unrolls (hv : s.Unrolls v d) (hw : s.Unrolls w e) (limit : Nat) :
    s.sameStructure limit v w = .ok (decide (d = e)) ∨
      s.sameStructure limit v w = .error .tooDeep ∧ limit < d.depth := by
  induction hv generalizing w e limit with
  | @leaf v hv =>
    rw [sameStructure_of_not_pair hv]
    cases hw with
    | leaf => simp [Bool.beq_eq_decide_eq]
    | pair => simp [hv]
  | @pair b d d' _ _ ihcar ihcdr =>
    cases hw with
    | @leaf w hw =>
      cases w with
      | pair c => exact absurd rfl (hw c)
      | _ => simp [sameStructure]
    | @pair c e e' hcar hcdr =>
      cases limit with
      | zero => exact .inr ⟨by simp [sameStructure], Nat.succ_pos _⟩
      | succ limit =>
        rw [Drawing.depth]
        rcases ihcar hcar limit with hfirst | ⟨hfirst, hlt⟩
        · rw [sameStructure_pair_of_ok hfirst]
          by_cases hde : d = e
          · rcases ihcdr hcdr limit with hrest | ⟨hrest, hlt⟩
            · exact .inl (by simp [hde, hrest])
            · exact .inr ⟨by simp [hde, hrest], by omega⟩
          · exact .inl (by simp [hde])
        · exact .inr ⟨sameStructure_pair_of_error hfirst, by omega⟩

/-- **Values without cycles have the same structure if and only if they have the same drawing.** -/
theorem compares_of_unrolls (hv : s.Unrolls v d) (hw : s.Unrolls w e) :
    s.Compares v w (decide (d = e)) where
  of_lt {limit} hlimit := by
    rcases sameStructure_of_unrolls hv hw limit with h | ⟨-, hlt⟩
    · exact h
    · exact absurd (hlt.trans_le hv.depth_le) (not_lt.mpr hlimit)
  of_any limit := (sameStructure_of_unrolls hv hw limit).imp_right And.left

end Store

end SmallScheme
