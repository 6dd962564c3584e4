import SmallScheme.Proofs.Calls
import SmallScheme.Proofs.Spine

/-!
# Program text and data are separate

The cells of a store are of two kinds: those of program text and those of data.  A `TextMap` says
which cells are text, and what they hold; text is built from the end of a list to its front, so the
rest of a list of text is an older cell.  A value fits a role if it has only cells of data where it
is data, and only cells of text elsewhere (`TextMap.Fits`).

While a program runs, text holds what the map says, and cells of data, frames and closures hold no
text of which data could get hold (`TextMap.Separated`).  This is a discipline
(`TextMap.separation`): a quotation, whose operand is data, is the only place in which text leads to
data, and nothing leads from data to text.
-/

namespace SmallScheme

/-- Which cells are program text, and what they hold. -/
structure TextMap where
  /-- The number of cells. -/
  size : Nat
  /-- What a cell of program text holds. -/
  text : CellId → Option Cell
  lt_size : ∀ {c cell}, text c = some cell → c < size
  backward : ∀ {c cell d}, text c = some cell → cell.cdr = .pair d → d < c

namespace TextMap

/-- There are no cells. -/
def empty : TextMap where
  size := 0
  text _ := none
  lt_size h := nomatch h
  backward h := nomatch h

/-- Cells keep their kind, and cells of text what they hold. -/
structure Le (m m' : TextMap) : Prop where
  size_le : m.size ≤ m'.size
  text_eq : ∀ c < m.size, m'.text c = m.text c

variable {m m' : TextMap} {r : Role} {v car cdr : Value} {c : CellId} {cell : Cell}

lemma Le.refl (m : TextMap) : m.Le m :=
  ⟨le_rfl, fun _ _ => rfl⟩

lemma Le.trans {m'' : TextMap} (h : m.Le m') (h' : m'.Le m'') : m.Le m'' := by
  refine ⟨h.size_le.trans h'.size_le, fun c hc => ?_⟩
  rw [h'.text_eq c (hc.trans_le h.size_le), h.text_eq c hc]

lemma Le.text_of_text (h : m.Le m') (hc : m.text c = some cell) : m'.text c = some cell := by
  rw [h.text_eq c (m.lt_size hc), hc]

/-- The value has cells of data where its role is to be data, and cells of text elsewhere. -/
inductive Fits (m : TextMap) : Role → Value → Prop
  | leaf {r : Role} {v : Value} : (∀ c, v ≠ .pair c) → Fits m r v
  | data {c : CellId} : c < m.size → m.text c = none → Fits m .data (.pair c)
  | text {r : Role} {c : CellId} {cell : Cell} : r ≠ .data → m.text c = some cell →
      Fits m (r.refine cell.car).first cell.car → Fits m (r.refine cell.car).rest cell.cdr →
      Fits m r (.pair c)

namespace Fits

lemma mono (h : m.Fits r v) (hle : m.Le m') : m'.Fits r v := by
  induction h with
  | leaf hv => exact .leaf hv
  | data hc htext => exact .data (hc.trans_le hle.size_le) (hle.text_eq _ hc ▸ htext)
  | text hr htext _ _ ihcar ihcdr => exact .text hr (hle.text_of_text htext) ihcar ihcdr

lemma lt_size (h : m.Fits r (.pair c)) : c < m.size := by
  cases h with
  | leaf hv => exact absurd rfl (hv c)
  | data hc _ => exact hc
  | text _ htext _ _ => exact m.lt_size htext

lemma data_inv (h : m.Fits .data (.pair c)) : m.text c = none := by
  cases h with
  | leaf hv => exact absurd rfl (hv c)
  | data _ htext => exact htext
  | text hr _ _ _ => exact absurd rfl hr

lemma text_inv (h : m.Fits r (.pair c)) (hr : r ≠ .data) :
    ∃ cell, m.text c = some cell ∧ m.Fits (r.refine cell.car).first cell.car ∧
      m.Fits (r.refine cell.car).rest cell.cdr := by
  cases h with
  | leaf hv => exact absurd rfl (hv c)
  | data _ _ => exact absurd rfl hr
  | text _ htext hcar hcdr => exact ⟨_, htext, hcar, hcdr⟩

end Fits

/-! ## New cells -/

/-- One more cell of data. -/
def addData (m : TextMap) : TextMap where
  size := m.size + 1
  text := m.text
  lt_size h := Nat.lt_succ_of_lt (m.lt_size h)
  backward h := m.backward h

/-- One more cell of text. -/
def addText (m : TextMap) (cell : Cell) (hcell : ∀ d, cell.cdr = .pair d → d < m.size) :
    TextMap where
  size := m.size + 1
  text c := if c = m.size then some cell else m.text c
  lt_size {c cell'} h := by
    split at h
    · rename_i hc
      exact hc ▸ Nat.lt_succ_self _
    · exact Nat.lt_succ_of_lt (m.lt_size h)
  backward {c cell' d} h hd := by
    split at h
    · rename_i hc
      cases h
      rw [hc]
      exact hcell d hd
    · exact m.backward h hd

lemma le_addData (m : TextMap) : m.Le m.addData :=
  ⟨Nat.le_succ _, fun _ _ => rfl⟩

lemma le_addText (hcell : ∀ d, cell.cdr = .pair d → d < m.size) : m.Le (m.addText cell hcell) :=
  ⟨Nat.le_succ _, fun _ hc => if_neg (Nat.ne_of_lt hc)⟩

/-! ## Separation -/

/-- Cells of text hold what they should, and cells of data, frames and closures give no text away:
the only text among what they hold are the bodies of closures. -/
structure Separated (m : TextMap) (s : Store) : Prop where
  size_eq : s.cells.size = m.size
  text_eq : ∀ c cell, m.text c = some cell → s.cell c = cell
  data_car : ∀ c < m.size, m.text c = none → m.Fits .data (s.cell c).car
  data_cdr : ∀ c < m.size, m.text c = none → m.Fits .data (s.cell c).cdr
  binding : ∀ f, ∀ b ∈ (s.frame f).bindings, m.Fits .data b.2
  body : ∀ k, ∀ form ∈ (s.closure k).body, m.Fits .expr form

variable {s s' : Store}

lemma separated_empty : empty.Separated Store.empty where
  size_eq := rfl
  text_eq _ _ h := nomatch h
  data_car _ h := absurd h (Nat.not_lt_zero _)
  data_cdr _ h := absurd h (Nat.not_lt_zero _)
  binding _ _ h := absurd h List.not_mem_nil
  body _ _ h := absurd h List.not_mem_nil

namespace Separated

/-- An operation that leaves all cells as they are. -/
lemma of_cells_eq (hs : m.Separated s) (hcells : s'.cells = s.cells)
    (hbinding : ∀ f, ∀ b ∈ (s'.frame f).bindings, b ∈ (s.frame f).bindings ∨ m.Fits .data b.2)
    (hbody : ∀ k, ∀ form ∈ (s'.closure k).body, form ∈ (s.closure k).body ∨ m.Fits .expr form) :
    m.Separated s' := by
  have hcell (c : CellId) : s'.cell c = s.cell c := by rw [Store.cell, Store.cell, hcells]
  constructor
  · rw [hcells]
    exact hs.size_eq
  · intro c cell hc
    rw [hcell]
    exact hs.text_eq c cell hc
  · intro c hc htext
    rw [hcell]
    exact hs.data_car c hc htext
  · intro c hc htext
    rw [hcell]
    exact hs.data_cdr c hc htext
  · intro f b hb
    exact (hbinding f b hb).elim (hs.binding f b) id
  · intro k form hform
    exact (hbody k form hform).elim (hs.body k form) id

/-- An operation on cells that adds no cell, and that writes only data, and only into data. -/
lemma of_data (hs : m.Separated s) (hsize : s'.cells.size = s.cells.size)
    (hframes : s'.frames = s.frames) (hclosures : s'.closures = s.closures)
    (htext : ∀ d cell, m.text d = some cell → s'.cell d = s.cell d)
    (hcar : ∀ d, (s'.cell d).car = (s.cell d).car ∨ m.Fits .data (s'.cell d).car)
    (hcdr : ∀ d, (s'.cell d).cdr = (s.cell d).cdr ∨ m.Fits .data (s'.cell d).cdr) :
    m.Separated s' := by
  constructor
  · rw [hsize]
    exact hs.size_eq
  · intro d cell hd
    rw [htext d cell hd]
    exact hs.text_eq d cell hd
  · intro d hd hnone
    exact (hcar d).elim (fun h => h ▸ hs.data_car d hd hnone) id
  · intro d hd hnone
    exact (hcdr d).elim (fun h => h ▸ hs.data_cdr d hd hnone) id
  · intro f b hb
    rw [Store.frame, hframes] at hb
    exact hs.binding f b hb
  · intro k form hform
    rw [Store.closure, hclosures] at hform
    exact hs.body k form hform

lemma addFrame {bindings : List (Symbol × Value)} (hs : m.Separated s) (outer : Option FrameId)
    (hbindings : ∀ b ∈ bindings, m.Fits .data b.2) :
    m.Separated (s.addFrame bindings outer).2 := by
  refine hs.of_cells_eq rfl (fun f b hb => ?_) fun _ _ => .inl
  by_cases hf : f = s.frames.size
  · rw [hf, Store.frame_addFrame_self] at hb
    rcases Bindings.mem_putAll hb with hb | ⟨b', hb', heq⟩
    · exact absurd hb List.not_mem_nil
    · exact .inr (heq ▸ hbindings b' hb')
  · have hsame := (Store.sameExcept_addFrame s bindings outer).same (.frame f) (by simpa using hf)
    exact .inl (hsame ▸ hb)

lemma defineAll {new : List (Symbol × Value)} (hs : m.Separated s) (f : FrameId)
    (hnew : ∀ b ∈ new, m.Fits .data b.2) : m.Separated (s.defineAll f new) := by
  refine hs.of_cells_eq rfl (fun g b hb => ?_) fun _ _ => .inl
  rcases Store.mem_bindings_defineAll hb with hb | ⟨b', hb', heq⟩
  · exact .inl hb
  · exact .inr (heq ▸ hnew b' hb')

/-- A new cell, of either kind. -/
lemma cons (hs : m.Separated s) (hle : m.Le m') (hsize : m'.size = m.size + 1)
    (htext : ∀ cell, m'.text m.size = some cell → ⟨car, cdr⟩ = cell)
    (hdata : m'.text m.size = none → m.Fits .data car ∧ m.Fits .data cdr) :
    m'.Separated (s.cons car cdr).2 := by
  have hself : (s.cons car cdr).2.cell m.size = ⟨car, cdr⟩ :=
    hs.size_eq ▸ Store.cell_cons_self car cdr s
  have hold {c : CellId} (hc : c < m.size) : (s.cons car cdr).2.cell c = s.cell c :=
    Store.cell_cons_of_lt car cdr (hs.size_eq ▸ hc)
  have hcases {c : CellId} (hc : c < m'.size) : c < m.size ∨ c = m.size := by
    rw [hsize] at hc
    exact Nat.lt_succ_iff_lt_or_eq.mp hc
  constructor
  · rw [hsize, ← hs.size_eq]
    exact Array.size_push _
  · intro c cell hc
    rcases hcases (m'.lt_size hc) with hlt | rfl
    · rw [hold hlt]
      exact hs.text_eq c cell (hle.text_eq c hlt ▸ hc)
    · rw [hself]
      exact htext cell hc
  · intro c hc hnone
    rcases hcases hc with hlt | rfl
    · rw [hold hlt]
      exact (hs.data_car c hlt (hle.text_eq c hlt ▸ hnone)).mono hle
    · rw [hself]
      exact (hdata hnone).1.mono hle
  · intro c hc hnone
    rcases hcases hc with hlt | rfl
    · rw [hold hlt]
      exact (hs.data_cdr c hlt (hle.text_eq c hlt ▸ hnone)).mono hle
    · rw [hself]
      exact (hdata hnone).2.mono hle
  · exact fun f b hb => (hs.binding f b hb).mono hle
  · exact fun k form hform => (hs.body k form hform).mono hle

/-- A new cell that fits a role. -/
lemma exists_cons (hs : m.Separated s) (hcar : m.Fits (r.refine car).first car)
    (hcdr : m.Fits (r.refine car).rest cdr) :
    ∃ m', m.Le m' ∧ m'.Separated (s.cons car cdr).2 ∧ m'.Fits r (s.cons car cdr).1 := by
  by_cases hr : r = .data
  · -- a cell of data: its parts are data as well, since data keeps its role
    subst hr
    have hnone : m.text m.size = none := by
      cases h : m.text m.size with
      | none => rfl
      | some cell => exact absurd (m.lt_size h) (lt_irrefl _)
    refine ⟨m.addData, m.le_addData, hs.cons m.le_addData rfl (fun cell h => ?_) fun _ => ?_, ?_⟩
    · exact absurd (hnone.symm.trans h) (by simp)
    · exact ⟨hcar, hcdr⟩
    · show m.addData.Fits .data (.pair s.cells.size)
      rw [hs.size_eq]
      exact .data (Nat.lt_succ_self _) hnone
  · -- a cell of text: whatever it goes on with is older
    have hcell : ∀ d, (Cell.mk car cdr).cdr = .pair d → d < m.size := by
      rintro d rfl
      exact hcdr.lt_size
    have hle := m.le_addText hcell
    have hself : (m.addText ⟨car, cdr⟩ hcell).text m.size = some ⟨car, cdr⟩ := if_pos rfl
    refine ⟨_, hle, hs.cons hle rfl (fun cell h => ?_) fun h => ?_, ?_⟩
    · exact Option.some.inj (hself.symm.trans h)
    · exact absurd (hself.symm.trans h) (by simp)
    · show (m.addText ⟨car, cdr⟩ hcell).Fits r (.pair s.cells.size)
      rw [hs.size_eq]
      exact .text hr hself (hcar.mono hle) (hcdr.mono hle)

end Separated

/-- What is kept while programs run: text and data stay separate. -/
def separation : Discipline where
  World := TextMap
  le := Le
  Holds := Separated
  Good := Fits
  Scope _ _ := True
  Fails _ := True
  Permits _ := True
  le_refl := .refl
  le_trans := .trans
  good_mono hle h := h.mono hle
  scope_mono _ _ := trivial
  good_atom _ _ _ := .leaf fun _ h => nomatch h
  good_foreign _ _ _ := .leaf fun _ h => nomatch h
  fails_ordinary _ := trivial
  fails_host _ _ := trivial
  good_refine := by
    intro m s r c hs h
    by_cases hr : r = .data
    · subst hr
      exact h
    · obtain ⟨cell, htext, hcar, hcdr⟩ := h.text_inv hr
      rw [hs.text_eq c cell htext]
      refine .text (mt Role.refine_eq_data_iff.mp hr) htext ?_ ?_
      · rwa [Role.refine_refine]
      · rwa [Role.refine_refine]
  good_car := by
    intro m s r c hs h hexpr
    by_cases hr : r = .data
    · subst hr
      exact hs.data_car c h.lt_size h.data_inv
    · obtain ⟨cell, htext, hcar, -⟩ := h.text_inv hr
      rw [hs.text_eq c cell htext]
      rwa [Role.first_refine] at hcar
  good_cdr := by
    intro m s r c hs h hexpr
    by_cases hr : r = .data
    · subst hr
      exact hs.data_cdr c h.lt_size h.data_inv
    · obtain ⟨cell, htext, -, hcdr⟩ := h.text_inv hr
      rw [hs.text_eq c cell htext]
      rwa [Role.refine_of_ne hexpr] at hcdr
  good_binding hs _ hb := hs.binding _ _ hb
  scope_outer _ _ _ := trivial
  scope_env _ _ := trivial
  good_body hs _ hform := hs.body _ _ hform
  cons := Separated.exists_cons
  addFrame hs _ hbindings := ⟨_, .refl _, hs.addFrame _ hbindings, trivial⟩
  addClosure := by
    intro m s closure hs _ hbody _ _
    refine ⟨m, .refl m, hs.of_cells_eq rfl (fun _ _ => .inl) fun k form hform => ?_, .leaf ?_⟩
    · by_cases hk : k = s.closures.size
      · subst hk
        rw [Store.closure_addClosure_self] at hform
        exact .inr (hbody form hform)
      · have hsame := (Store.sameExcept_addClosure s closure).same (.closure k) (by simpa using hk)
        exact .inl (hsame ▸ hform)
    · exact fun _ h => nomatch h
  addForeign := by
    intro m s v hs
    refine ⟨m, .refl m, ?_⟩
    unfold Store.addForeign
    split
    · exact hs
    · exact hs.of_cells_eq rfl (fun _ _ => .inl) fun _ _ => .inl
  setCar := by
    intro m s c v hs hc hv _
    have hcell (d : CellId) := Store.cell_setCar (d := d) v (hs.size_eq ▸ hc.lt_size)
    refine ⟨m, .refl m, hs.of_data (by simp [Store.setCar]) rfl rfl (fun d cell hd => ?_)
      (fun d => ?_) fun d => ?_⟩
    · rw [hcell, if_neg]
      rintro rfl
      exact absurd (hc.data_inv.symm.trans hd) (by simp)
    · rw [hcell]
      split
      · exact .inr hv
      · exact .inl rfl
    · rw [hcell]
      split
      · rename_i heq
        exact .inl (heq ▸ rfl)
      · exact .inl rfl
  setCdr := by
    intro m s c v hs hc hv _
    have hcell (d : CellId) := Store.cell_setCdr (d := d) v (hs.size_eq ▸ hc.lt_size)
    refine ⟨m, .refl m, hs.of_data (by simp [Store.setCdr]) rfl rfl (fun d cell hd => ?_)
      (fun d => ?_) fun d => ?_⟩
    · rw [hcell, if_neg]
      rintro rfl
      exact absurd (hc.data_inv.symm.trans hd) (by simp)
    · rw [hcell]
      split
      · rename_i heq
        exact .inl (heq ▸ rfl)
      · exact .inl rfl
    · rw [hcell]
      split
      · exact .inr hv
      · exact .inl rfl
  define hs _ hv _ := ⟨_, .refl _, hs.defineAll _ (List.forall_mem_singleton.mpr hv)⟩
  nameClosure := by
    intro m s k x hs _ _
    refine ⟨m, .refl m, hs.of_cells_eq rfl (fun _ _ => .inl) fun j form hform => .inl ?_⟩
    rwa [(Store.closure_nameClosure k x s j).2] at hform
  print hs := ⟨_, .refl _, hs.of_cells_eq rfl (fun _ _ => .inl) fun _ _ => .inl⟩
  report hs := ⟨_, .refl _, hs.of_cells_eq rfl (fun _ _ => .inl) fun _ _ => .inl⟩

/-! ## Chains of text -/

/-- Text that is there has a spine, whatever a store with the same text has added since. -/
lemma Fits.exists_spine {cells : TextMap} (h : m.Fits r v) (hr : r ≠ .data) (hle : cells.Le m)
    (hs : cells.Separated s) (hv : ∀ c, v = .pair c → c < cells.size) :
    ∃ cs last, s.Spine v cs last := by
  -- the chain goes back to older cells, so no cell of it is missing in the older store
  induction h with
  | @leaf _ v hleaf => exact ⟨[], v, .last hleaf⟩
  | data _ _ => exact absurd rfl hr
  | @text r c cell _ htext _ _ _ ihcdr =>
    have hc : c < cells.size := hv c rfl
    have hrest : (r.refine cell.car).rest ≠ .data :=
      Role.rest_ne_data (mt Role.refine_eq_data_iff.mp hr)
    obtain ⟨cs, last, hspine⟩ := ihcdr hrest fun d hd => (m.backward htext hd).trans hc
    have hcell : s.cell c = cell := hs.text_eq c cell (hle.text_eq c hc ▸ htext)
    exact ⟨c :: cs, last, .pair (hs.size_eq ▸ hc) (hcell ▸ hspine)⟩

end TextMap

end SmallScheme
