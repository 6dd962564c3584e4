import SmallScheme.Proofs.Comparing
import SmallScheme.Proofs.Renaming
import SmallScheme.Proofs.Spine

/-!
# Making chains and following them

A chain is made of new cells for its members, and goes on in the cells of its end, which may be a chain
again (`Store.Spine.exists_chain`).  So following it gives the members that it was made of and
then those of its end, and it is a list if and only if its end is one.  What the members are does not
matter: they may be shared, and they may lead back to themselves.

The other way, the members of a value without cycles are put together again.  The copy is drawn as the
value is, but for its end (`Store.Unrolls.exists_spine`, `Store.unrolls_chain`), and so comparing tells
them apart exactly if the ends are different (`Store.compares_copy`).
-/

namespace SmallScheme

/-- Drawings of chains with the same members are equal if their ends are. -/
lemma Drawing.foldr_pair_inj {ds : List Drawing} {d e : Drawing} :
    ds.foldr pair d = ds.foldr pair e ↔ d = e := by
  induction ds with
  | nil => rfl
  | cons _ ds ih => simp [ih]

namespace Store

variable {s s' : Store} {v w last : Value} {vs : List Value} {cs : List CellId} {d e : Drawing}
  {ds : List Drawing}

/-! ## Following new chains -/

namespace Spine

/-- Only a value that is no pair ends a chain. -/
lemma last_ne_pair (h : s.Spine v cs last) (c : CellId) : last ≠ .pair c := by
  induction h with
  | last hne => exact hne c
  | pair _ _ ih => exact ih

lemma members_eq (h : s.Spine v cs last) : s.members v = cs.map fun c => (s.cell c).car := by
  rw [members, h.chain?_eq]

lemma isList_eq (h : s.Spine v cs last) : s.isList v = decide (last = .nil) := by
  rw [isList, list?, h.chain?_eq]
  split
  · rename_i heq
    cases heq
    rfl
  · rename_i hne
    have hlast : last ≠ .nil := fun hnil => hne _ (by rw [hnil])
    simp [hlast]

/-- **Following a new chain gives what it was made of.** -/
lemma members_chain (h : s.Spine v cs last) (vs : List Value) :
    (s.chain vs v).2.members (s.chain vs v).1 = vs ++ s.members v := by
  obtain ⟨new, hspine, hmembers, -⟩ := h.exists_chain vs
  rw [hspine.members_eq, h.members_eq, hmembers]

/-- **A new chain is a list if and only if its end is one.** -/
lemma isList_chain (h : s.Spine v cs last) (vs : List Value) :
    (s.chain vs v).2.isList (s.chain vs v).1 = s.isList v := by
  obtain ⟨new, hspine, -⟩ := h.exists_chain vs
  rw [hspine.isList_eq, h.isList_eq]

end Spine

/-! ## Drawing new chains -/

/-- What is added to a store makes no difference to how a value is drawn that was there. -/
lemma Unrolls.mono (h : s.Unrolls v d) (hs : s.Closed) (hv : v.Within s.cells.size)
    (hext : s.Extends s') : s'.Unrolls v d := by
  induction h with
  | leaf hne => exact .leaf hne
  | @pair c d e _ _ ihcar ihcdr =>
    have hcell : s'.cell c = s.cell c := hext.cell_eq c hv
    exact .pair (hcell ▸ ihcar (hs.car c)) (hcell ▸ ihcdr (hs.cdr c))

/-- A new chain of values that are there. -/
lemma Closed.chain (hs : s.Closed) (hvs : ∀ v ∈ vs, v.Within s.cells.size)
    (hw : w.Within s.cells.size) :
    (s.chain vs w).2.Closed ∧ (s.chain vs w).1.Within (s.chain vs w).2.cells.size := by
  induction vs with
  | nil => exact ⟨hs, hw⟩
  | cons v vs ih =>
    obtain ⟨hv, hvs⟩ := List.forall_mem_cons.mp hvs
    obtain ⟨hclosed, hrest⟩ := ih hvs
    exact ⟨hclosed.cons (hv.mono (extends_chain vs w s).size_le) hrest, lt_size_cons v _ _⟩

/-- A new chain is drawn as its members and its end are. -/
lemma unrolls_chain (hs : s.Closed) (hvs : ∀ v ∈ vs, v.Within s.cells.size)
    (hw : w.Within s.cells.size) (hds : List.Forall₂ s.Unrolls vs ds) (he : s.Unrolls w e) :
    (s.chain vs w).2.Unrolls (s.chain vs w).1 (ds.foldr .pair e) := by
  induction hds with
  | nil => exact he
  | @cons v d vs ds hd _ ih =>
    obtain ⟨hv, hvs⟩ := List.forall_mem_cons.mp hvs
    obtain ⟨hclosed, hrest⟩ := hs.chain hvs hw
    -- the member was there at the beginning, and the rest has been made since
    have hold := extends_chain vs w s
    set t := (s.chain vs w).2
    set rest := (s.chain vs w).1
    have hext : t.Extends (t.cons v rest).2 := extends_cons v rest t
    have hcell : (t.cons v rest).2.cell t.cells.size = ⟨v, rest⟩ := cell_cons_self v rest t
    refine .pair (hcell ▸ ?_) (hcell ▸ ?_)
    · exact hd.mono hs hv (hold.trans hext)
    · exact (ih hvs).mono hclosed hrest hext

/-! ## Copies -/

/-- A value that is drawn in full is a chain, and its drawing is made of those of the members and the
end. -/
lemma Unrolls.exists_spine (h : s.Unrolls v d) (hs : s.Closed) (hv : v.Within s.cells.size) :
    ∃ cs last ds, s.Spine v cs last ∧ List.Forall₂ s.Unrolls (cs.map fun c => (s.cell c).car) ds ∧
      d = ds.foldr .pair (.leaf last) := by
  induction h with
  | @leaf v hne => exact ⟨[], v, [], .last hne, .nil, rfl⟩
  | @pair c d e hcar _ _ ihcdr =>
    obtain ⟨cs, last, ds, hspine, hds, rfl⟩ := ihcdr (hs.cdr c)
    exact ⟨c :: cs, last, d :: ds, .pair hv hspine, .cons hcar hds, rfl⟩

/-- **Comparing a value with a copy of it that has another end finds whether the ends are equal.** -/
theorem compares_copy (hs : s.Closed) (hv : v.Within s.cells.size) (hcycle : ¬s.ReachesCycle v)
    (hspine : s.Spine v cs last) (hw : ∀ c, w ≠ .pair c) :
    (s.chain (s.members v) w).2.Compares (s.chain (s.members v) w).1 v (decide (w = last)) := by
  obtain ⟨d, hd⟩ := exists_unrolls hcycle
  obtain ⟨cs', last', ds, hspine', hds, rfl⟩ := hd.exists_spine hs hv
  obtain ⟨rfl, rfl⟩ := hspine.unique hspine'
  have hwithin : w.Within s.cells.size := by
    cases w with
    | pair c => exact absurd rfl (hw c)
    | _ => trivial
  have hmembers : ∀ v ∈ cs.map fun c => (s.cell c).car, v.Within s.cells.size :=
    List.forall_mem_map.mpr fun c _ => hs.car c
  rw [hspine.members_eq]
  -- the value and its copy have the same members, so their drawings can only differ at the end
  have hcopy := unrolls_chain hs hmembers hwithin hds (.leaf hw)
  have hcompares := compares_of_unrolls hcopy (hd.mono hs hv (extends_chain _ w s))
  simpa only [Drawing.foldr_pair_inj, Drawing.leaf.injEq] using hcompares

/-- **Making chains and following them undo each other.**  A chain is made of new cells, and no cell
that was there changes.  If its end is a finite chain, following it gives the members that it was made
of and those of its end, and it is a list if and only if its end is one.  A value without cycles is
a finite chain; made anew of its members and its end, it has the same structure, and made into a list
of its members, it has the same structure if and only if it is a list itself.  Values without cycles
have the same structure if and only if they are drawn as the same tree. -/
theorem chains_rebuilt (s : Store) :
    (∀ vs t, s.Extends (s.chain vs t).2) ∧
    (∀ vs t cs last, s.Spine t cs last →
      (∃ new, (s.chain vs t).2.Spine (s.chain vs t).1 (new ++ cs) last ∧
        ∀ c ∈ new, s.cells.size ≤ c) ∧
      (s.chain vs t).2.members (s.chain vs t).1 = vs ++ s.members t ∧
      (s.chain vs t).2.isList (s.chain vs t).1 = s.isList t) ∧
    (s.Closed → ∀ v, v.Within s.cells.size → ¬s.ReachesCycle v →
      (∃ cs last, s.Spine v cs last) ∧ ∀ cs last, s.Spine v cs last →
        (s.chain (s.members v) last).2.Compares (s.chain (s.members v) last).1 v true ∧
        (s.list (s.members v)).2.Compares (s.list (s.members v)).1 v (s.isList v)) ∧
    ∀ v w, ¬s.ReachesCycle v → ¬s.ReachesCycle w →
      ∃ d e, s.Unrolls v d ∧ s.Unrolls w e ∧ s.Compares v w (decide (d = e)) := by
  refine ⟨fun vs t => extends_chain vs t s, fun vs t cs last ht => ?_, fun hs v hv hcycle => ?_,
    fun v w hv hw => ?_⟩
  · obtain ⟨new, hspine, -, hnew⟩ := ht.exists_chain vs
    exact ⟨⟨new, hspine, hnew⟩, ht.members_chain vs, ht.isList_chain vs⟩
  · refine ⟨?_, fun cs last hspine => ⟨?_, ?_⟩⟩
    · obtain ⟨d, hd⟩ := exists_unrolls hcycle
      obtain ⟨cs, last, -, hspine, -⟩ := hd.exists_spine hs hv
      exact ⟨cs, last, hspine⟩
    · have hcopy := compares_copy hs hv hcycle hspine hspine.last_ne_pair
      rwa [decide_eq_true rfl] at hcopy
    · have hlist := compares_copy hs hv hcycle hspine (w := .nil) nofun
      rwa [decide_eq_decide.mpr eq_comm, ← hspine.isList_eq] at hlist
  · obtain ⟨d, hd⟩ := exists_unrolls hv
    obtain ⟨e, he⟩ := exists_unrolls hw
    exact ⟨d, e, hd, he, compares_of_unrolls hd he⟩

/-- A store with a list that is its own member, and with a pair whose parts are one and the same
cell. -/
def selfMember : Store :=
  { Store.empty with
    cells := #[⟨.pair 0, .nil⟩, ⟨.pair 2, .pair 2⟩, ⟨.symbol ⟨"a"⟩, .number 5⟩] }

lemma closed_selfMember : selfMember.Closed := by
  have hcells (c : CellId) : (selfMember.cell c).car.Within 3 ∧ (selfMember.cell c).cdr.Within 3 := by
    match c with
    | 0 => exact ⟨show 0 < 3 by decide, trivial⟩
    | 1 => exact ⟨show 2 < 3 by decide, show 2 < 3 by decide⟩
    | 2 => exact ⟨trivial, trivial⟩
    | c + 3 =>
      rw [cell_of_size_le (Nat.le_add_left 3 c)]
      exact ⟨trivial, trivial⟩
  refine ⟨fun c => (hcells c).1, fun c => (hcells c).2, fun f b hb => ?_, fun k form hform => ?_⟩
  · rw [frame_of_size_le (Nat.zero_le f)] at hb
    cases hb
  · rw [closure_of_size_le (Nat.zero_le k)] at hform
    cases hform

/-- The list goes on behind two new members.  The pair is shared and dotted: a copy of it has the same
structure, and the list of its members has not.  Nor has the pair the structure of its parts. -/
theorem chains_rebuilt_selfMember :
    selfMember.Spine (.pair 0) [0] .nil ∧
    (selfMember.chain [.pair 1, .pair 0] (.pair 0)).2.members
      (selfMember.chain [.pair 1, .pair 0] (.pair 0)).1 = [.pair 1, .pair 0, .pair 0] ∧
    (selfMember.chain [.pair 1, .pair 0] (.pair 0)).2.isList
      (selfMember.chain [.pair 1, .pair 0] (.pair 0)).1 = true ∧
    selfMember.Closed ∧ (Value.pair 1).Within 3 ∧ ¬selfMember.ReachesCycle (.pair 1) ∧
    selfMember.Spine (.pair 1) [1, 2] (.number 5) ∧
    (selfMember.chain [.pair 2, .symbol ⟨"a"⟩] (.number 5)).2.Compares
      (selfMember.chain [.pair 2, .symbol ⟨"a"⟩] (.number 5)).1 (.pair 1) true ∧
    (selfMember.list [.pair 2, .symbol ⟨"a"⟩]).2.Compares
      (selfMember.list [.pair 2, .symbol ⟨"a"⟩]).1 (.pair 1) false ∧
    selfMember.Compares (.pair 1) (.pair 2) false := by
  obtain ⟨-, hmade, hcopied, hcompared⟩ := chains_rebuilt selfMember
  have hloop : selfMember.Spine (.pair 0) [0] .nil := .pair (by decide) (.last nofun)
  have hpair : selfMember.Spine (.pair 1) [1, 2] (.number 5) :=
    .pair (by decide) (.pair (by decide) (.last nofun))
  have hinner : selfMember.Unrolls (.pair 2) (.pair (.leaf (.symbol ⟨"a"⟩)) (.leaf (.number 5))) :=
    .pair (.leaf nofun) (.leaf nofun)
  have houter := Unrolls.pair (s := selfMember) (c := 1) hinner hinner
  have hwithin : (Value.pair 1).Within 3 := show 1 < 3 by decide
  obtain ⟨-, hmembers, hlist⟩ := hmade [.pair 1, .pair 0] (.pair 0) [0] .nil hloop
  obtain ⟨-, hcopies⟩ := hcopied closed_selfMember (.pair 1) hwithin houter.not_reachesCycle
  obtain ⟨hcopy, hproper⟩ := hcopies _ _ hpair
  obtain ⟨d, e, hd, he, hdiffer⟩ :=
    hcompared (.pair 1) (.pair 2) houter.not_reachesCycle hinner.not_reachesCycle
  rw [hd.unique houter, he.unique hinner] at hdiffer
  exact ⟨hloop, hmembers, hlist, closed_selfMember, hwithin, houter.not_reachesCycle, hpair, hcopy,
    hproper, hdiffer⟩

end Store

end SmallScheme
