import SmallScheme.Proofs.Renaming
import SmallScheme.Proofs.Spine

/-!
# What is read from a renamed store

What a program reads from the second store of a replication is what it reads from the first one,
under other numbers: chains and lists, the values of names, and the texts of values, which do not
show numbers at all.

Chains are followed and printed for as many steps as a store has cells, and the second store may have
more of them.  But the pairs of a closed store are its cells, so a chain that does not end in so many
steps does not end at all, and no printing needs more room (`Store.Closed.chainWithin?_eq`,
`Store.Closed.renderParts_room`).
-/

namespace SmallScheme

namespace Store

variable {s : Store} {limit : Nat} {v : Value}

/-! ## Chains of closed stores -/

lemma Closed.spine_of_chainWithin? (h : s.Closed) {chain : List Value × Value}
    (hv : v.Within s.cells.size) (hchain : s.chainWithin? limit v = some chain) :
    ∃ cs, s.Spine v cs chain.2 := by
  induction limit generalizing v chain with
  | zero =>
    cases v with
    | pair c => simp at hchain
    | _ =>
      simp only [chainWithin?, Option.some.injEq] at hchain
      subst hchain
      exact ⟨[], .last (by simp)⟩
  | succ limit ih =>
    cases v with
    | pair c =>
      rw [chainWithin?_pair_succ] at hchain
      obtain ⟨rest, hrest, rfl⟩ := Option.map_eq_some_iff.mp hchain
      obtain ⟨cs, hcs⟩ := ih (h.cdr c) hrest
      exact ⟨c :: cs, .pair hv hcs⟩
    | _ =>
      simp only [chainWithin?, Option.some.injEq] at hchain
      subst hchain
      exact ⟨[], .last (by simp)⟩

/-- Looking further than the number of cells finds nothing else. -/
lemma Closed.chainWithin?_eq (h : s.Closed) (hv : v.Within s.cells.size)
    (hlimit : s.cells.size ≤ limit) : s.chainWithin? limit v = s.chain? v := by
  cases hchain : s.chainWithin? limit v with
  | some chain =>
    obtain ⟨cs, hcs⟩ := h.spine_of_chainWithin? hv hchain
    rw [hcs.chain?_eq, ← hchain, hcs.chainWithin?_eq (hcs.length_le.trans hlimit)]
  | none =>
    cases hchain' : s.chain? v with
    | none => rfl
    | some chain => rw [chainWithin?_mono hlimit hchain'] at hchain; cases hchain

lemma exists_car_of_chainWithin? {chain : List Value × Value} {w : Value}
    (hchain : s.chainWithin? limit v = some chain) (hw : w ∈ chain.1) : ∃ c, w = (s.cell c).car := by
  induction limit generalizing v chain with
  | zero =>
    cases v with
    | pair c => simp at hchain
    | _ =>
      simp only [chainWithin?, Option.some.injEq] at hchain
      simp [← hchain] at hw
  | succ limit ih =>
    cases v with
    | pair c =>
      rw [chainWithin?_pair_succ] at hchain
      obtain ⟨rest, hrest, rfl⟩ := Option.map_eq_some_iff.mp hchain
      rcases List.mem_cons.mp hw with rfl | hw
      · exact ⟨c, rfl⟩
      · exact ih hrest hw
    | _ =>
      simp only [chainWithin?, Option.some.injEq] at hchain
      simp [← hchain] at hw

/-- The members of a chain are parts of cells. -/
lemma exists_car_of_members {w : Value} (hw : w ∈ s.members v) : ∃ c, w = (s.cell c).car := by
  unfold members at hw
  split at hw
  · rename_i hchain
    exact exists_car_of_chainWithin? hchain hw
  · cases hw

lemma exists_car_of_list? {members : List Value} {w : Value} (hlist : s.list? v = some members)
    (hw : w ∈ members) : ∃ c, w = (s.cell c).car := by
  unfold list? at hlist
  split at hlist
  · rename_i hchain
    cases hlist
    exact exists_car_of_chainWithin? hchain hw
  · cases hlist

/-- The first member of a list is the first part of its first pair, and the others follow. -/
lemma parts_of_list? {c : CellId} {members : List Value}
    (hlist : s.list? (.pair c) = some (v :: members)) :
    (s.cell c).car = v ∧ s.members (s.cell c).cdr = members := by
  unfold list? at hlist
  split at hlist
  · rename_i hchain
    cases hlist
    unfold chain? at hchain
    cases hsize : s.cells.size with
    | zero => simp [hsize] at hchain
    | succ limit =>
      rw [hsize, chainWithin?_pair_succ] at hchain
      obtain ⟨rest, hrest, heq⟩ := Option.map_eq_some_iff.mp hchain
      obtain ⟨hcar, hmembers⟩ := List.cons.inj (Prod.mk.inj heq).1
      refine ⟨hcar, ?_⟩
      rw [Store.members, chain?, hsize, chainWithin?_mono (Nat.le_succ limit) hrest]
      exact hmembers
  · cases hlist

lemma Closed.within_of_list? (h : s.Closed) {members : List Value} (hlist : s.list? v = some members) :
    ∀ w ∈ members, w.Within s.cells.size := by
  intro w hw
  obtain ⟨c, rfl⟩ := exists_car_of_list? hlist hw
  exact h.car c

lemma Closed.within_of_members (h : s.Closed) (v : Value) :
    ∀ w ∈ s.members v, w.Within s.cells.size := by
  intro w hw
  obtain ⟨c, rfl⟩ := exists_car_of_members hw
  exact h.car c

lemma Closed.within_of_lookup? (h : s.Closed) {f : FrameId} {x : Symbol}
    (hv : s.lookup? f x = some v) : v.Within s.cells.size := by
  obtain ⟨g, -, hget⟩ := Option.bind_eq_some_iff.mp hv
  obtain ⟨b, hb, rfl⟩ := Bindings.mem_of_get? hget
  exact h.bindings g b hb

/-! ## Printing in closed stores -/

/-- More room than there are cells makes no difference. -/
lemma Closed.renderParts_room (h : s.Closed) (part : List CellId → Value → Except Error String)
    {room room' : Nat} {active : List CellId} (hv : v.Within s.cells.size)
    (hroom : s.spare active < room) (hroom' : s.spare active < room') :
    s.renderParts part room active v = s.renderParts part room' active v := by
  induction room generalizing room' active v with
  | zero => exact absurd hroom (Nat.not_lt_zero _)
  | succ room ih =>
    obtain ⟨room', rfl⟩ := Nat.exists_eq_add_one_of_ne_zero (Nat.ne_zero_of_lt hroom')
    cases v with
    | pair c =>
      simp only [renderParts]
      split
      · rfl
      · rename_i hactive
        have hspare := spare_cons hv fun hmem => hactive (List.contains_iff_mem.mpr hmem)
        have hrest : s.renderParts part room (c :: active) (s.cell c).cdr =
            s.renderParts part room' (c :: active) (s.cell c).cdr :=
          ih (h.cdr c) (by omega) (by omega)
        rw [hrest]
    | atom a => cases a <;> rfl
    | _ => rfl

end Store

namespace Replication.Holds

variable {R : Replication} {s t : Store} {v : Value}

/-! ## Chains -/

lemma chainWithin?_value (h : R.Holds s t) (limit : Nat) (v : Value) :
    t.chainWithin? limit (R.value v) =
      (s.chainWithin? limit v).map fun chain => (chain.1.map R.value, R.value chain.2) := by
  induction limit generalizing v with
  | zero => cases v <;> simp [Store.chainWithin?]
  | succ limit ih =>
    cases v with
    | pair c =>
      have hrest : t.chainWithin? limit (R.onCell (s.cell c)).cdr = _ := ih (s.cell c).cdr
      rw [Renaming.value_pair, Store.chainWithin?_pair_succ, Store.chainWithin?_pair_succ, h.cell,
        hrest]
      cases s.chainWithin? limit (s.cell c).cdr <;> rfl
    | _ => simp [Store.chainWithin?]

lemma chain?_value (h : R.Holds s t) (hv : v.Within s.cells.size) :
    t.chain? (R.value v) =
      (s.chain? v).map fun chain => (chain.1.map R.value, R.value chain.2) := by
  rw [Store.chain?, h.chainWithin?_value, h.closed.chainWithin?_eq hv h.size_le]

lemma list?_value (h : R.Holds s t) (hv : v.Within s.cells.size) :
    t.list? (R.value v) = (s.list? v).map (List.map R.value) := by
  unfold Store.list?
  rw [h.chain?_value hv]
  cases s.chain? v with
  | none => rfl
  | some chain =>
    obtain ⟨members, last⟩ := chain
    cases last with
    | atom a => cases a <;> rfl
    | _ => rfl

lemma isList_value (h : R.Holds s t) (hv : v.Within s.cells.size) :
    t.isList (R.value v) = s.isList v := by
  rw [Store.isList, Store.isList, h.list?_value hv, Option.isSome_map]

lemma members_value (h : R.Holds s t) (hv : v.Within s.cells.size) :
    t.members (R.value v) = (s.members v).map R.value := by
  unfold Store.members
  rw [h.chain?_value hv]
  cases s.chain? v <;> rfl

/-! ## Names -/

lemma scopes_eq (h : R.Holds s t) (f : FrameId) : t.scopes f = s.scopes f :=
  Store.scopes_congr (fun g => by rw [h.frame, Renaming.onFrame]) f

lemma find?_eq (h : R.Holds s t) (f : FrameId) (x : Symbol) : t.find? f x = s.find? f x := by
  have hbinds (g : FrameId) : ((t.frame g).bindings.get? x).isSome =
      ((s.frame g).bindings.get? x).isSome := by
    rw [h.frame, Renaming.onFrame, R.get?_onBindings, Option.isSome_map]
  simp only [Store.find?, h.scopes_eq, hbinds]

lemma lookup?_eq (h : R.Holds s t) (f : FrameId) (x : Symbol) :
    t.lookup? f x = (s.lookup? f x).map R.value := by
  simp only [Store.lookup?, h.find?_eq]
  cases s.find? f x with
  | none => rfl
  | some g =>
    show (t.frame g).bindings.get? x = ((s.frame g).bindings.get? x).map R.value
    rw [h.frame, Renaming.onFrame, R.get?_onBindings]

/-! ## Printing -/

lemma closureText_eq (h : R.Holds s t) (k : ClosureId) :
    t.closureText (R.closure k) = s.closureText k := by
  rw [Store.closureText, Store.closureText, h.closure]
  rfl

lemma contains_map_cell (active : List CellId) (c : CellId) :
    (active.map R.cell).contains (R.cell c) = active.contains c := by
  rw [Bool.eq_iff_iff, List.contains_iff_mem, List.contains_iff_mem,
    List.mem_map_of_injective R.cell_injective]

/-- Chains are printed alike if their parts are. -/
lemma renderParts_value (h : R.Holds s t) {part part' : List CellId → Value → Except Error String}
    (hpart : ∀ active v, v.Within s.cells.size →
      part' (active.map R.cell) (R.value v) = part active v)
    (room : Nat) (active : List CellId) (hv : v.Within s.cells.size) :
    t.renderParts part' room (active.map R.cell) (R.value v) = s.renderParts part room active v := by
  induction room generalizing active v with
  | zero =>
    cases v with
    | atom a => cases a <;> simp [Store.renderParts, ← hpart active _ hv]
    | _ => simp [Store.renderParts, ← hpart active _ hv]
  | succ room ih =>
    cases v with
    | pair c =>
      have hfirst := hpart (c :: active) (s.cell c).car (h.closed.car c)
      have hrest := ih (c :: active) (h.closed.cdr c)
      simp only [Renaming.value_pair, Store.renderParts, contains_map_cell, h.cell]
      split
      · rfl
      · rw [show R.cell c :: active.map R.cell = (c :: active).map R.cell from rfl]
        simp only [Renaming.onCell, hfirst, hrest]
    | atom a => cases a <;> simp [Store.renderParts, ← hpart active _ hv]
    | _ => simp [Store.renderParts, ← hpart active _ hv]

lemma renderWithin_value (h : R.Holds s t) (limit : Nat) (active : List CellId)
    (hv : v.Within s.cells.size) :
    t.renderWithin limit (active.map R.cell) (R.value v) = s.renderWithin limit active v := by
  induction limit generalizing active v with
  | zero => cases v <;> simp [Store.renderWithin, h.closureText_eq]
  | succ limit ih =>
    cases v with
    | pair c =>
      -- there is more room in the second store, but as much would be enough in the first one
      have hroom := h.closed.renderParts_room (s.renderWithin limit) hv
        (Nat.lt_succ_of_le ((s.spare_le active).trans h.size_le))
        (Nat.lt_succ_of_le (s.spare_le active))
      have hparts := h.renderParts_value (fun active v hv => ih active hv)
        (t.cells.size + 1) active hv
      rw [Renaming.value_pair] at hparts
      simp only [Renaming.value_pair, Store.renderWithin, contains_map_cell, hparts, hroom]
    | _ => simp [Store.renderWithin, h.closureText_eq]

/-- **The text of a value does not show its numbers.** -/
lemma render_value (h : R.Holds s t) (limit : Nat) (hv : v.Within s.cells.size) :
    t.render limit (R.value v) = s.render limit v :=
  h.renderWithin_value limit [] hv

lemma display_value (h : R.Holds s t) (limit : Nat) (hv : v.Within s.cells.size) :
    t.display limit (R.value v) = s.display limit v := by
  have hrender := h.render_value limit hv
  cases v with
  | pair c =>
    rw [Renaming.value_pair] at hrender ⊢
    simp only [Store.display, hrender]
  | _ => exact hrender

end Replication.Holds

end SmallScheme
