import Mathlib.Data.Finset.Card
import Mathlib.Logic.Relation
import Mathlib.Tactic
import SmallScheme.Proofs.PrintingError

/-!
# Drawings of values

The pairs of a store form a graph: pairs may be shared, and a pair may lead back to itself.  A value
is drawn as a tree by following its parts and cutting the ways that lead to a pair that they have
come through (`Store.Draws`).  Shared parts are drawn several times, and only cycles are cut.

Each value has one drawing, since a way through different cells is not longer than the store
(`Store.exists_draws`, `Store.Draws.unique`).  Printing writes it as a list, with a marker for every
cut (`Store.renderWithin_of_draws`), and there is a cut if and only if a cycle can be reached
(`Store.hasCut_iff`).
-/

namespace SmallScheme

/-- A value as a tree. -/
inductive Drawing where
  /-- A value that is no pair. -/
  | leaf (v : Value)
  /-- A pair with the drawings of its parts. -/
  | pair (car cdr : Drawing)
  /-- A pair that is not drawn, since the way to it has come through it. -/
  | cut
  deriving DecidableEq, Repr

namespace Drawing

/-- Something is not drawn. -/
def HasCut : Drawing → Prop
  | leaf _ => False
  | pair car cdr => car.HasCut ∨ cdr.HasCut
  | cut => True

/-- How many pairs are drawn. -/
def pairs : Drawing → Nat
  | leaf _ | cut => 0
  | pair car cdr => car.pairs + cdr.pairs + 1

/-- How many lists are inside one another. -/
def nesting : Drawing → Nat
  | leaf _ => 0
  | pair car cdr => max (car.nesting + 1) cdr.nesting
  | cut => 1

lemma nesting_pair_pos (d e : Drawing) : 0 < (pair d e).nesting := by
  simp [nesting]

/-- The text of a value that is no pair.  Only a number may have too many digits. -/
def leafText? (s : Store) : Value → Option String
  | .atom a => a.text?
  | .pair _ => none
  | .closure k => some (s.closureText k)
  | .builtin b => some s!"#<builtin {b.name}>"
  | .foreign w _ => some s!"#<{w.typeName}>"

mutual

/-- A drawing as a text: a pair is a list, and a cut is a marker. -/
def text? (s : Store) : Drawing → Option String
  | leaf v => leafText? s v
  | pair car cdr => do
    let first ← car.text? s
    let rest ← cdr.rest? s
    return "(" ++ " ".intercalate (first :: rest) ++ ")"
  | cut => some cycleMarker

/-- The parts of a list after its first member: the list ends with the empty list, with a marker or
with a point and another value.  The absence of a value counts as the empty list. -/
def rest? (s : Store) : Drawing → Option (List String)
  | leaf .nil => some []
  | leaf (.foreign w id) =>
    if w.isAbsent then some [] else do return [".", ← leafText? s (.foreign w id)]
  | leaf v => do return [".", ← leafText? s v]
  | pair car cdr => do
    let first ← car.text? s
    let rest ← cdr.rest? s
    return first :: rest
  | cut => some [cycleMarker]

end

lemma text?_pair (s : Store) (d e : Drawing) :
    (pair d e).text? s =
      ((pair d e).rest? s).map fun parts => "(" ++ " ".intercalate parts ++ ")" := by
  simp only [text?, rest?]
  cases d.text? s with
  | none => rfl
  | some first => cases e.rest? s <;> rfl

end Drawing

namespace Store

variable {s : Store} {path active : List CellId} {v : Value} {b c : CellId} {d e : Drawing}

/-- The value is drawn in this way at the end of a path through the given cells. -/
inductive Draws (s : Store) : List CellId → Value → Drawing → Prop
  | leaf {path : List CellId} {v : Value} : (∀ c, v ≠ .pair c) → Draws s path v (.leaf v)
  | pair {path : List CellId} {c : CellId} {d e : Drawing} : c ∉ path →
      Draws s (c :: path) (s.cell c).car d → Draws s (c :: path) (s.cell c).cdr e →
      Draws s path (.pair c) (.pair d e)
  | cut {path : List CellId} {c : CellId} : c ∈ path → Draws s path (.pair c) .cut

/-- A value has one drawing. -/
lemma Draws.unique (h : s.Draws path v d) (h' : s.Draws path v e) : d = e := by
  induction h generalizing e with
  | leaf hne =>
    cases h' with
    | leaf => rfl
    | pair | cut => exact absurd rfl (hne _)
  | pair hc _ _ ihcar ihcdr =>
    cases h' with
    | leaf hne => exact absurd rfl (hne _)
    | pair _ hcar hcdr => rw [ihcar hcar, ihcdr hcdr]
    | cut hmem => exact absurd hmem hc
  | cut hmem =>
    cases h' with
    | leaf hne => exact absurd rfl (hne _)
    | pair hc => exact absurd hmem hc
    | cut => rfl

/-! ## Paths through a store -/

/-- How many cells of the store are not on the path. -/
def spare (s : Store) (path : List CellId) : Nat :=
  ((Finset.range s.cells.size).filter (· ∉ path)).card

lemma spare_le (s : Store) (path : List CellId) : s.spare path ≤ s.cells.size :=
  (Finset.card_filter_le _ _).trans (Finset.card_range _).le

lemma spare_cons (hc : c < s.cells.size) (hpath : c ∉ path) :
    s.spare (c :: path) + 1 = s.spare path := by
  have hmem : c ∈ (Finset.range s.cells.size).filter (· ∉ path) := by simp [hc, hpath]
  have herase : (Finset.range s.cells.size).filter (· ∉ c :: path) =
      ((Finset.range s.cells.size).filter (· ∉ path)).erase c := by
    ext d
    simp only [Finset.mem_filter, Finset.mem_erase, List.mem_cons, not_or]
    tauto
  rw [spare, herase, Finset.card_erase_add_one hmem, spare]

/-- A cell that is not there is empty. -/
lemma cell_of_size_le (hc : s.cells.size ≤ c) : s.cell c = ⟨.nil, .nil⟩ := by
  simp [cell, hc]
  rfl

/-- Each value has a drawing, and no more lists are inside one another than there are cells left. -/
lemma exists_draws (s : Store) (path : List CellId) (v : Value) :
    ∃ d, s.Draws path v d ∧ d.nesting ≤ s.spare path + 1 := by
  induction hspare : s.spare path using Nat.strong_induction_on generalizing path v with
  | _ n ih =>
    subst hspare
    cases v with
    | pair c =>
      by_cases hpath : c ∈ path
      · exact ⟨.cut, .cut hpath, Nat.le_add_left 1 _⟩
      · by_cases hc : c < s.cells.size
        · -- one cell less is left for the parts
          have hspare := spare_cons hc hpath
          obtain ⟨d, hd, hnd⟩ := ih _ (by omega) (c :: path) (s.cell c).car rfl
          obtain ⟨e, he, hne⟩ := ih _ (by omega) (c :: path) (s.cell c).cdr rfl
          refine ⟨.pair d e, .pair hpath hd he, ?_⟩
          simp only [Drawing.nesting]
          omega
        · have hcell := cell_of_size_le (not_lt.mp hc)
          refine ⟨.pair (.leaf .nil) (.leaf .nil), .pair hpath ?_ ?_, ?_⟩
          · rw [hcell]
            exact .leaf nofun
          · rw [hcell]
            exact .leaf nofun
          · simp [Drawing.nesting]
    | _ => exact ⟨.leaf _, .leaf nofun, Nat.zero_le _⟩

/-! ## Printing -/

section Printing

/-- What there is, or else a number has too many digits. -/
def orTooLong {α : Type} (o : Option α) : Except Error α :=
  o.elim (.error .tooManyDigits) .ok

lemma writtenForm_eq (o : Option String) : writtenForm o = orTooLong o := by
  cases o <;> rfl

lemma orTooLong_map {α β : Type} (f : α → β) (o : Option α) :
    orTooLong (o.map f) = (orTooLong o).map f := by
  cases o <;> rfl

lemma orTooLong_bind {α β : Type} (o : Option α) (f : α → Option β) :
    orTooLong (o >>= f) = orTooLong o >>= fun a => orTooLong (f a) := by
  cases o <;> rfl

variable {part : List CellId → Value → Except Error String} {limit room : Nat}

lemma renderWithin_leaf (hv : ∀ c, v ≠ .pair c) (limit : Nat) (active : List CellId) :
    s.renderWithin limit active v = orTooLong (Drawing.leafText? s v) := by
  cases v with
  | pair c => exact absurd rfl (hv c)
  | atom a =>
    rw [renderWithin, writtenForm_eq]
    rfl
  | _ =>
    rw [renderWithin]
    rfl

/-- The parts of a chain are those of its drawing, if its members are printed as they are drawn and
there is room for all cells that are left. -/
lemma renderParts_of_draws
    (hpart : ∀ active w e, s.Draws active w e → e.nesting ≤ limit →
      part active w = orTooLong (e.text? s))
    (hd : s.Draws active v d) (hroom : ∀ c, v = .pair c → s.spare active < room)
    (hnesting : d.nesting ≤ limit + 1) :
    s.renderParts part room active v = orTooLong (d.rest? s) := by
  induction hd generalizing room with
  | @leaf active v hv =>
    have hlast : part active v = orTooLong (Drawing.leafText? s v) :=
      hpart active v _ (.leaf hv) (Nat.zero_le _)
    have hend : (do return [".", ← part active v]) =
        orTooLong (do return [".", ← Drawing.leafText? s v]) := by
      rw [hlast, orTooLong_bind]
      rfl
    cases v with
    | pair c => exact absurd rfl (hv c)
    | atom a =>
      cases a with
      | nil => simp [renderParts, Drawing.rest?, orTooLong]
      | _ => simpa only [renderParts, Drawing.rest?] using hend
    | foreign w id =>
      simp only [renderParts, Drawing.rest?]
      split
      · rfl
      · exact hend
    | _ => simpa only [renderParts, Drawing.rest?] using hend
  | @cut active c hmem =>
    obtain ⟨room, rfl⟩ := Nat.exists_eq_add_one_of_ne_zero
      (Nat.ne_zero_of_lt (hroom c rfl))
    simp [renderParts, hmem, Drawing.rest?, orTooLong]
  | @pair active c d e hmem hcar _ _ ih =>
    obtain ⟨room, rfl⟩ := Nat.exists_eq_add_one_of_ne_zero
      (Nat.ne_zero_of_lt (hroom c rfl))
    simp only [Drawing.nesting, max_le_iff] at hnesting
    have hfirst := hpart _ _ _ hcar (Nat.le_of_succ_le_succ hnesting.1)
    have hrest : s.renderParts part room (c :: active) (s.cell c).cdr = orTooLong (e.rest? s) := by
      refine ih (fun b hb => ?_) hnesting.2
      have hc : c < s.cells.size := by
        by_contra hc
        rw [cell_of_size_le (not_lt.mp hc)] at hb
        cases hb
      have hspare := spare_cons hc hmem
      have hlt := hroom c rfl
      omega
    simp only [renderParts, List.contains_iff_mem, hmem, if_false, hfirst, hrest, Drawing.rest?,
      orTooLong_bind]
    rfl

/-- **Printing writes down the drawing**, if the limit is not smaller than the nesting of lists in
it. -/
theorem renderWithin_of_draws (hd : s.Draws active v d) (hlimit : d.nesting ≤ limit) :
    s.renderWithin limit active v = orTooLong (d.text? s) := by
  induction limit generalizing active v d with
  | zero =>
    cases hd with
    | leaf hv => exact renderWithin_leaf hv 0 _
    | pair => exact absurd hlimit (not_le.mpr (Drawing.nesting_pair_pos _ _))
    | cut => exact absurd hlimit (by simp [Drawing.nesting])
  | succ limit ih =>
    cases hd with
    | leaf hv => exact renderWithin_leaf hv _ _
    | cut hmem => simp [renderWithin, hmem, Drawing.text?, orTooLong]
    | @pair _ c d e hmem hcar hcdr =>
      have hparts := renderParts_of_draws (fun _ _ _ => ih) (.pair hmem hcar hcdr)
        (fun _ _ => Nat.lt_succ_of_le (s.spare_le active)) hlimit
      simp only [renderWithin, List.contains_iff_mem, hmem, if_false, hparts,
        Drawing.text?_pair, orTooLong_map]
      rfl

/-- **A limit that is larger than the number of cells is enough for printing**: there is a text, or else
a number in the value is too long. -/
lemma exists_rendering (s : Store) (v : Value) :
    (∃ text, ∀ limit, s.cells.size < limit → s.render limit v = .ok text) ∨
      s.HasLongNumber v ∧ ∀ limit, s.cells.size < limit → s.render limit v = .error .tooManyDigits := by
  obtain ⟨d, hd, hnesting⟩ := s.exists_draws [] v
  have hrender (limit : Nat) (hlimit : s.cells.size < limit) :
      s.render limit v = orTooLong (d.text? s) := by
    have hspare := s.spare_le []
    exact renderWithin_of_draws hd (by omega)
  cases htext : d.text? s with
  | some text =>
    rw [htext] at hrender
    exact .inl ⟨text, hrender⟩
  | none =>
    rw [htext] at hrender
    exact .inr ⟨(unprintable_of_render (hrender _ (Nat.lt_succ_self _))).hasLongNumber, hrender⟩

end Printing

/-! ## Cycles -/

/-- The first pair has the second one as a part. -/
def Links (s : Store) (b c : CellId) : Prop :=
  (s.cell b).car = .pair c ∨ (s.cell b).cdr = .pair c

/-- From the value one comes to a pair that leads back to itself. -/
def ReachesCycle (s : Store) (v : Value) : Prop :=
  ∃ b c, v = .pair b ∧ Relation.ReflTransGen s.Links b c ∧ Relation.TransGen s.Links c c

/-- The value is drawn in full. -/
inductive Unrolls (s : Store) : Value → Drawing → Prop
  | leaf {v : Value} : (∀ c, v ≠ .pair c) → Unrolls s v (.leaf v)
  | pair {c : CellId} {d e : Drawing} : Unrolls s (s.cell c).car d → Unrolls s (s.cell c).cdr e →
      Unrolls s (.pair c) (.pair d e)

lemma ReachesCycle.of_part (hv : v = (s.cell b).car ∨ v = (s.cell b).cdr)
    (h : s.ReachesCycle v) : s.ReachesCycle (.pair b) := by
  obtain ⟨c, d, rfl, hpath, hcycle⟩ := h
  exact ⟨b, d, rfl, .head (hv.imp Eq.symm Eq.symm) hpath, hcycle⟩

/-- Where something is cut there is a cycle, if the path leads to the value. -/
lemma Draws.reachesCycle (hd : s.Draws path v d)
    (hpath : ∀ b ∈ path, ∀ c, v = .pair c → Relation.TransGen s.Links b c) (hcut : d.HasCut) :
    s.ReachesCycle v := by
  induction hd with
  | leaf => exact hcut.elim
  | @cut path c hmem => exact ⟨c, c, rfl, .refl, hpath c hmem c rfl⟩
  | @pair path c d e _ hcar hcdr ihcar ihcdr =>
    have hparts {w : Value} (hw : w = (s.cell c).car ∨ w = (s.cell c).cdr) :
        ∀ b ∈ c :: path, ∀ c', w = .pair c' → Relation.TransGen s.Links b c' := by
      rintro b hb c' rfl
      have hlinks : s.Links c c' := hw.imp Eq.symm Eq.symm
      rcases List.mem_cons.mp hb with rfl | hb
      · exact .single hlinks
      · exact (hpath b hb c rfl).tail hlinks
    rcases hcut with hcut | hcut
    · exact (ihcar (hparts (.inl rfl)) hcut).of_part (.inl rfl)
    · exact (ihcdr (hparts (.inr rfl)) hcut).of_part (.inr rfl)

/-- What has no cut is drawn in full. -/
lemma Draws.unrolls (hd : s.Draws path v d) (hcut : ¬d.HasCut) : s.Unrolls v d := by
  induction hd with
  | leaf hv => exact .leaf hv
  | cut => exact absurd trivial hcut
  | pair _ _ _ ihcar ihcdr =>
    rw [Drawing.HasCut, not_or] at hcut
    exact .pair (ihcar hcut.1) (ihcdr hcut.2)

namespace Unrolls

lemma unique (h : s.Unrolls v d) (h' : s.Unrolls v e) : d = e := by
  induction h generalizing e with
  | leaf hne =>
    cases h' with
    | leaf => rfl
    | pair => exact absurd rfl (hne _)
  | pair _ _ ihcar ihcdr =>
    cases h' with
    | leaf hne => exact absurd rfl (hne _)
    | pair hcar hcdr => rw [ihcar hcar, ihcdr hcdr]

/-- A pair that is a part has fewer pairs in its drawing. -/
lemma of_links (h : s.Unrolls (.pair b) d) (hlinks : s.Links b c) :
    ∃ e, s.Unrolls (.pair c) e ∧ e.pairs < d.pairs := by
  cases h with
  | leaf hne => exact absurd rfl (hne _)
  | @pair _ d d' hcar hcdr =>
    rcases hlinks with hlink | hlink
    · exact ⟨d, hlink ▸ hcar, by simp only [Drawing.pairs]; omega⟩
    · exact ⟨d', hlink ▸ hcdr, by simp only [Drawing.pairs]; omega⟩

lemma of_transGen (h : s.Unrolls (.pair b) d) (hpath : Relation.TransGen s.Links b c) :
    ∃ e, s.Unrolls (.pair c) e ∧ e.pairs < d.pairs := by
  induction hpath with
  | single hlinks => exact h.of_links hlinks
  | tail _ hlinks ih =>
    obtain ⟨d', hd', hlt⟩ := ih
    obtain ⟨e, he, hlt'⟩ := hd'.of_links hlinks
    exact ⟨e, he, hlt'.trans hlt⟩

/-- What is drawn in full reaches no cycle. -/
lemma not_reachesCycle (h : s.Unrolls v d) : ¬s.ReachesCycle v := by
  rintro ⟨b, c, rfl, hpath, hcycle⟩
  obtain ⟨d', hd', -⟩ := h.of_transGen (Relation.TransGen.trans_right hpath hcycle)
  obtain ⟨e, he, hlt⟩ := hd'.of_transGen hcycle
  exact absurd (congrArg Drawing.pairs (hd'.unique he)) (Nat.ne_of_gt hlt)

end Unrolls

/-- **There is a cut if and only if a cycle can be reached.** -/
theorem hasCut_iff (hd : s.Draws [] v d) : d.HasCut ↔ s.ReachesCycle v := by
  constructor
  · exact hd.reachesCycle (List.forall_mem_nil _)
  · intro hcycle
    by_contra hcut
    exact (hd.unrolls hcut).not_reachesCycle hcycle

/-- What reaches no cycle is drawn in full. -/
lemma exists_unrolls (h : ¬s.ReachesCycle v) : ∃ d, s.Unrolls v d := by
  obtain ⟨d, hd, -⟩ := s.exists_draws [] v
  exact ⟨d, hd.unrolls (mt (hasCut_iff hd).mp h)⟩

/-- What is drawn in full is drawn so without a path to it. -/
lemma Unrolls.draws (h : s.Unrolls v d) : s.Draws [] v d := by
  obtain ⟨e, he, -⟩ := s.exists_draws [] v
  have hcut : ¬e.HasCut := mt (hasCut_iff he).mp h.not_reachesCycle
  rwa [h.unique (he.unrolls hcut)]

end Store

end SmallScheme
