import SmallScheme.Proofs.FreshNodes
import SmallScheme.Proofs.Unfolding

/-!
# Data that are loaded ahead

A text that is read as a whole has all its data loaded before the first one is evaluated.  If it is
read line by line, each datum is loaded when its turn comes, and then it has other cells.  So the two
runs correspond under a renaming that is not known from the start: the data that are still to come are
in hidden cells of the second store (`Store.Stores`), and when the first run loads the next datum, its
new cells are taken to be those (`Replication.Holds.adopt`, `Replication.Holds.exists_load`).  Nothing
happens in the second store then.
-/

namespace SmallScheme

/-! ## Data in consecutive cells -/

namespace Store

variable {s t : Store} {d : Datum} {ds : List Datum} {v : Value} {vs : List Value} {l m h : Nat}

/-- The value is the datum in the cells from `l` up to `h`, each part before the pair that it is in. -/
inductive Stores (s : Store) : Nat → Nat → Datum → Value → Prop
  | atom (n : Nat) (a : Atom) : Stores s n n (.atom a) (.atom a)
  | cons {l m h : Nat} {d e : Datum} {v w : Value} : Stores s l m d v → Stores s m h e w →
      s.cell h = ⟨v, w⟩ → Stores s l (h + 1) (.cons d e) (.pair h)

/-- The values are the data in the cells from `l` up to `h`, one after another. -/
inductive StoresAll (s : Store) : Nat → Nat → List Datum → List Value → Prop
  | nil (n : Nat) : StoresAll s n n [] []
  | cons {l m h : Nat} {d : Datum} {ds : List Datum} {v : Value} {vs : List Value} :
      Stores s l m d v → StoresAll s m h ds vs → StoresAll s l h (d :: ds) (v :: vs)

lemma Stores.le (hd : s.Stores l h d v) : l ≤ h := by
  induction hd with
  | atom => exact le_rfl
  | cons _ _ _ ih ih' => exact (ih.trans ih').trans (Nat.le_succ _)

lemma StoresAll.le (hds : s.StoresAll l h ds vs) : l ≤ h := by
  induction hds with
  | nil => exact le_rfl
  | cons hd _ ih => exact hd.le.trans ih

lemma Stores.mono (hd : s.Stores l h d v) (hext : s.Extends t) (hh : h ≤ s.cells.size) :
    t.Stores l h d v := by
  induction hd with
  | atom n a => exact .atom n a
  | @cons l m h d e v w _ hrest hcell ih ih' =>
    refine .cons (ih ?_) (ih' ?_) ?_
    · exact hrest.le.trans ((Nat.le_succ h).trans hh)
    · exact (Nat.le_succ h).trans hh
    · rw [hext.cell_eq h hh, hcell]

/-- A datum is loaded into the next cells. -/
lemma stores_load (d : Datum) (s : Store) :
    (s.load d).2.Stores s.cells.size (s.load d).2.cells.size d (s.load d).1 := by
  induction d generalizing s with
  | atom a => exact .atom _ a
  | cons car cdr ihcar ihcdr =>
    set s₁ := (s.load car).2
    set s₂ := (s₁.load cdr).2
    have hpair : s₂.Extends (s₂.cons (s.load car).1 (s₁.load cdr).1).2 := extends_cons _ _ _
    have hcar := (ihcar s).mono ((extends_load cdr s₁).trans hpair) le_rfl
    have hcdr := (ihcdr s₁).mono hpair le_rfl
    have hsize : (s.load (.cons car cdr)).2.cells.size = s₂.cells.size + 1 := Array.size_push _
    rw [hsize]
    exact .cons hcar hcdr (cell_cons_self _ _ s₂)

lemma storesAll_loadAll (ds : List Datum) (s : Store) :
    (s.loadAll ds).2.StoresAll s.cells.size (s.loadAll ds).2.cells.size ds (s.loadAll ds).1 := by
  induction ds generalizing s with
  | nil => exact .nil _
  | cons d ds ih => exact .cons ((stores_load d s).mono (extends_loadAll ds _) le_rfl) (ih _)

/-- Loading adds cells and nothing else. -/
lemma addsFresh_load (d : Datum) (s : Store) : s.AddsFresh (s.load d).2 := by
  induction d generalizing s with
  | atom a => exact .refl s
  | cons car cdr ihcar ihcdr => exact ((ihcar s).trans (ihcdr _)).trans (addsFresh_cons _ _ _)

lemma addsFresh_loadAll (ds : List Datum) (s : Store) : s.AddsFresh (s.loadAll ds).2 := by
  induction ds generalizing s with
  | nil => exact .refl s
  | cons d ds ih => exact (addsFresh_load d s).trans (ih _)

lemma closures_load (d : Datum) (s : Store) : (s.load d).2.closures = s.closures := by
  induction d generalizing s with
  | atom a => rfl
  | cons car cdr ihcar ihcdr => exact (ihcdr _).trans (ihcar s)

lemma closures_loadAll (ds : List Datum) (s : Store) : (s.loadAll ds).2.closures = s.closures := by
  induction ds generalizing s with
  | nil => rfl
  | cons d ds ih => exact (ih _).trans (closures_load d s)

/-- The numbers that are left out are those of the new cells. -/
lemma shift_ne_iff {m n d : Nat} (hle : n ≤ m) :
    (∀ c, (if c < n then c else c + (m - n)) ≠ d) ↔ n ≤ d ∧ d < m := by
  refine ⟨fun h => ?_, fun ⟨hd, hlt⟩ c => shift_ne hd hlt c⟩
  by_contra hd
  rcases Nat.lt_or_ge d n with hlt | hge
  · exact h d (if_pos hlt)
  · refine h (d - (m - n)) ?_
    rw [if_neg (by omega)]
    omega

/-- Where no closures are added, they keep their numbers. -/
lemma shift_closure_eq (h : t.closures = s.closures) (k : ClosureId) : (s.shift t).closure k = k := by
  have hclosure : (s.shift t).closure k =
      if k < s.closures.size then k else k + (t.closures.size - s.closures.size) := rfl
  rw [hclosure, h, Nat.sub_self, Nat.add_zero, ite_self]

end Store

/-! ## Adoption -/

lemma adopt_injective {f : Nat → Nat} (hf : Function.Injective f) {d : Nat} (hd : ∀ c, f c ≠ d)
    (n : Nat) :
    Function.Injective fun c => if c < n then f c else if c = n then d else f (c - 1) := by
  intro c c' h
  have hd' (c) : d ≠ f c := (hd c).symm
  dsimp only at h
  split_ifs at h with h₁ h₂ h₃ h₄ <;>
    first
    | exact absurd h (hd _)
    | exact absurd h (hd' _)
    | (have heq := hf h; omega)
    | omega

lemma adopt_add (f : Nat → Nat) (d n i : Nat) :
    (if n + 1 + i < n then f (n + 1 + i) else if n + 1 + i = n then d else f (n + 1 + i - 1)) =
      f (n + i) := by
  rw [if_neg (by omega), if_neg (by omega)]
  congr 1
  omega

lemma between_succ_iff {lo hi e : Nat} : (lo ≤ e ∧ e < hi) ∧ e ≠ lo ↔ lo + 1 ≤ e ∧ e < hi := by
  omega

/-- The numbers if the cell `n` is a certain one that is there already.  The later cells move up. -/
def Renaming.adopt (ρ : Renaming) (n : CellId) {d : CellId} (hd : ∀ c, ρ.cell c ≠ d) : Renaming where
  cell c := if c < n then ρ.cell c else if c = n then d else ρ.cell (c - 1)
  closure := ρ.closure
  cell_injective := adopt_injective ρ.cell_injective hd n
  closure_injective := ρ.closure_injective

namespace Replication

variable {R R' R'' : Replication} {s t : Store} {d : CellId} {v w : Value} {m n lo mid hi : Nat}

/-- The second replication has other numbers only for cells from `n` on. -/
structure Continues (R : Replication) (n : Nat) (R' : Replication) : Prop where
  cell_eq : ∀ c < n, R'.cell c = R.cell c
  closure_eq : ∀ k, R'.closure k = R.closure k
  first_eq : R'.first = R.first
  second_eq : R'.second = R.second

lemma Continues.refl (R : Replication) (n : Nat) : R.Continues n R :=
  ⟨fun _ _ => rfl, fun _ => rfl, rfl, rfl⟩

lemma Continues.trans (h : R.Continues m R') (h' : R'.Continues n R'') (hle : m ≤ n) :
    R.Continues m R'' where
  cell_eq c hc := (h'.cell_eq c (hc.trans_le hle)).trans (h.cell_eq c hc)
  closure_eq k := (h'.closure_eq k).trans (h.closure_eq k)
  first_eq := h'.first_eq.trans h.first_eq
  second_eq := h'.second_eq.trans h.second_eq

lemma Continues.value_eq (h : R.Continues n R') (hv : v.Within n) : R'.value v = R.value v := by
  cases v with
  | pair c => exact congrArg Value.pair (h.cell_eq c hv)
  | closure k => exact congrArg Value.closure (h.closure_eq k)
  | _ => rfl

lemma Continues.onCell_eq (h : R.Continues n R') {cell : Cell} (hcar : cell.car.Within n)
    (hcdr : cell.cdr.Within n) : R'.onCell cell = R.onCell cell :=
  congrArg₂ Cell.mk (h.value_eq hcar) (h.value_eq hcdr)

lemma Continues.onFrame_eq (h : R.Continues n R') {frame : Frame}
    (hbindings : ∀ b ∈ frame.bindings, b.2.Within n) : R'.onFrame frame = R.onFrame frame :=
  congrArg (Frame.mk · frame.outer) <| List.map_congr_left fun b hb =>
    congrArg (Prod.mk b.1) (h.value_eq (hbindings b hb))

lemma Continues.onClosure_eq (h : R.Continues n R') {closure : Closure}
    (hbody : ∀ form ∈ closure.body, form.Within n) : R'.onClosure closure = R.onClosure closure :=
  congrArg (Closure.mk closure.params · closure.env closure.name) <|
    List.map_congr_left fun form hform => h.value_eq (hbody form hform)

lemma Continues.copies (h : R.Continues n R') (hv : R.Copies n v w) : R'.Copies n v w :=
  ⟨hv.1.trans (h.value_eq hv.2).symm, hv.2⟩

/-- Exactly the cells from `lo` up to `hi` are hidden. -/
def HidesBetween (R : Replication) (lo hi : Nat) : Prop :=
  ∀ d, R.Hides d ↔ lo ≤ d ∧ d < hi

/-- A hidden cell becomes the next one of the first store. -/
def adopt (R : Replication) (n : CellId) (hd : R.Hides d) : Replication :=
  { R with toRenaming := R.toRenaming.adopt n hd }

lemma continues_adopt (n : CellId) (hd : R.Hides d) : R.Continues n (R.adopt n hd) :=
  ⟨fun _ hc => if_pos hc, fun _ => rfl, rfl, rfl⟩

lemma adopt_cell_self (n : CellId) (hd : R.Hides d) : (R.adopt n hd).cell n = d :=
  (if_neg (lt_irrefl n)).trans (if_pos rfl)

lemma adopt_cell_add (n : CellId) (hd : R.Hides d) (i : Nat) :
    (R.adopt n hd).cell (n + 1 + i) = R.cell (n + i) :=
  adopt_add R.cell d n i

/-- No other cell ceases to be hidden. -/
lemma hides_adopt_iff (n : CellId) (hd : R.Hides d) (e : CellId) :
    (R.adopt n hd).Hides e ↔ R.Hides e ∧ e ≠ d := by
  have hcell := (R.continues_adopt n hd).cell_eq
  constructor
  · refine fun h => ⟨fun c hc => ?_, fun he => h n ((adopt_cell_self n hd).trans he.symm)⟩
    rcases Nat.lt_or_ge c n with hlt | hge
    · exact h c ((hcell c hlt).trans hc)
    · obtain ⟨i, rfl⟩ := Nat.exists_eq_add_of_le hge
      exact h (n + 1 + i) ((adopt_cell_add n hd i).trans hc)
  · rintro ⟨he, hne⟩ c hc
    rcases lt_trichotomy c n with hlt | rfl | hgt
    · exact he c ((hcell c hlt).symm.trans hc)
    · exact hne (hc.symm.trans (adopt_cell_self c hd))
    · obtain ⟨i, rfl⟩ := Nat.exists_eq_add_of_le (show n + 1 ≤ c from hgt)
      exact he (n + i) ((adopt_cell_add n hd i).symm.trans hc)

namespace Holds

/-- **A new pair is one that the second store has already.** -/
lemma adopt (h : R.Holds s t) (hv : v.Within s.cells.size) (hw : w.Within s.cells.size)
    (hd : R.Hides d) (hcell : R.second.cell d = ⟨R.value v, R.value w⟩) :
    (R.adopt s.cells.size hd).Holds (s.cons v w).2 t := by
  have hcontinues := R.continues_adopt s.cells.size hd
  have hsize : (s.cons v w).2.cells.size = s.cells.size + 1 := Array.size_push _
  refine ⟨h.closed.cons hv hw, fun c => ?_, fun i => ?_, fun e he => ?_, fun k => ?_, h.nextClosure,
    h.otherClosure, fun f => ?_, h.framesSize, h.printed, h.events, h.foreigns, h.installations⟩
  · rw [Store.cell_cons]
    rcases lt_trichotomy c s.cells.size with hlt | rfl | hgt
    · rw [if_neg (Nat.ne_of_lt hlt), hcontinues.cell_eq c hlt,
        hcontinues.onCell_eq (h.closed.car c) (h.closed.cdr c)]
      exact h.cell c
    · rw [if_pos rfl, adopt_cell_self, hcontinues.onCell_eq hv hw, h.otherCell d hd, hcell]
      rfl
    · -- neither store has this cell
      obtain ⟨i, rfl⟩ := Nat.exists_eq_add_of_le (show s.cells.size + 1 ≤ c from hgt)
      have hnone : s.cell (s.cells.size + 1 + i) = ⟨.nil, .nil⟩ := Store.cell_of_size_le hgt.le
      rw [if_neg (Nat.ne_of_gt hgt), adopt_cell_add, h.nextCell i, hnone]
      exact Store.cell_of_size_le (Nat.le_add_right _ _)
  · rw [hsize, adopt_cell_add]
    exact h.nextCell i
  · exact h.otherCell e ((hides_adopt_iff _ hd e).mp he).1
  · exact (h.closure k).trans (hcontinues.onClosure_eq (h.closed.body k)).symm
  · exact (h.frame f).trans (hcontinues.onFrame_eq (h.closed.bindings f)).symm

/-- **A datum that is loaded is one that the second store has already**, if the next hidden cells
hold it. -/
lemma exists_load {d : Datum} (h : R.Holds s t) (hd : R.second.Stores lo mid d w)
    (hhides : R.HidesBetween lo hi) (hmid : mid ≤ hi) :
    ∃ R', R.Continues s.cells.size R' ∧ R'.Holds (s.load d).2 t ∧ R'.HidesBetween mid hi ∧
      R'.Copies (s.load d).2.cells.size (s.load d).1 w := by
  induction d generalizing R s lo mid w with
  | atom a =>
    cases hd
    exact ⟨R, .refl R _, h, hhides, copies_atom _ a⟩
  | cons car cdr ihcar ihcdr =>
    cases hd with
    | @cons _ m top _ _ v w hcar hcdr hcell =>
      obtain ⟨R₁, hcontinues₁, h₁, hhides₁, hv⟩ :=
        ihcar h hcar hhides (hcdr.le.trans ((Nat.le_succ _).trans hmid))
      rw [← hcontinues₁.second_eq] at hcdr hcell
      obtain ⟨R₂, hcontinues₂, h₂, hhides₂, hw⟩ := ihcdr h₁ hcdr hhides₁ ((Nat.le_succ _).trans hmid)
      rw [← hcontinues₂.second_eq] at hcell
      -- the pair itself comes after both of its parts
      have hle₁ := (Store.extends_load car s).size_le
      have hle₂ := (Store.extends_load cdr (s.load car).2).size_le
      have hv₂ := (hcontinues₂.copies hv).mono hle₂
      have htop : R₂.Hides top := (hhides₂ top).mpr ⟨le_rfl, hmid⟩
      rw [hv₂.1, hw.1] at hcell
      have hcontinues₃ := R₂.continues_adopt ((s.load car).2.load cdr).2.cells.size htop
      refine ⟨R₂.adopt _ htop, ?_, h₂.adopt hv₂.2 hw.2 htop hcell, fun e => ?_, ?_⟩
      · exact (hcontinues₁.trans hcontinues₂ hle₁).trans hcontinues₃ (hle₁.trans hle₂)
      · rw [hides_adopt_iff, hhides₂]
        exact between_succ_iff
      · have hlast : (s.load (.cons car cdr)).2.cells.size = _ := Array.size_push _
        refine ⟨congrArg Value.pair (adopt_cell_self _ htop).symm, ?_⟩
        rw [hlast]
        exact Nat.lt_succ_self _

end Holds

end Replication

end SmallScheme
