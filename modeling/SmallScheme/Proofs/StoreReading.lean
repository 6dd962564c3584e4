import SmallScheme.Proofs.ExceptBind
import SmallScheme.Store.Chain
import SmallScheme.Store.Rendering
import SmallScheme.Store.Scope

/-!
# What is read from a store

Chains depend on the cells of a store alone, scopes on its frames, and printing on its cells and
closures.  So whatever has been printed or reported before makes no difference to them
(`Store.SameNodes`).  Printing with a larger limit gives the same as well, unless the smaller one was
too small (`Store.render_shortens`).  The output of a store is what has been printed; of two stores
of one run it is a prefix in the earlier one (`Store.Precedes`).
-/

namespace SmallScheme

namespace Store

/-- Both stores have the same cells, frames and closures. -/
structure SameNodes (s s' : Store) : Prop where
  cells : s'.cells = s.cells
  frames : s'.frames = s.frames
  closures : s'.closures = s.closures

variable {s s' : Store} {v : Value}

/-- The way outwards depends on the outer frames alone. -/
lemma scopes_congr (h : ∀ f, (s'.frame f).outer = (s.frame f).outer) (f : FrameId) :
    s'.scopes f = s.scopes f := by
  induction f using Nat.strong_induction_on with
  | _ f ih =>
    rw [scopes, scopes, h]
    split
    · rfl
    · split
      · rename_i outer _ hlt
        rw [ih outer hlt]
      · rfl

lemma SameNodes.refl (s : Store) : s.SameNodes s :=
  ⟨rfl, rfl, rfl⟩

/-- Chains depend on the cells alone. -/
lemma chainWithin?_of_cells_eq (h : s'.cells = s.cells) (limit : Nat) (v : Value) :
    s'.chainWithin? limit v = s.chainWithin? limit v := by
  induction limit generalizing v with
  | zero => cases v <;> simp [chainWithin?]
  | succ limit ih =>
    cases v with
    | pair c =>
      have hcell : s'.cell c = s.cell c := by rw [cell, cell, h]
      rw [chainWithin?_pair_succ, chainWithin?_pair_succ, hcell, ih]
    | _ => simp [chainWithin?]

lemma chain?_of_cells_eq (h : s'.cells = s.cells) (v : Value) : s'.chain? v = s.chain? v := by
  rw [chain?, chain?, h, chainWithin?_of_cells_eq h]

namespace SameNodes

lemma cell_eq (h : s.SameNodes s') (c : CellId) : s'.cell c = s.cell c := by
  rw [cell, cell, h.cells]

lemma frame_eq (h : s.SameNodes s') (f : FrameId) : s'.frame f = s.frame f := by
  rw [frame, frame, h.frames]

lemma closure_eq (h : s.SameNodes s') (k : ClosureId) : s'.closure k = s.closure k := by
  rw [Store.closure, Store.closure, h.closures]

/-! ## Chains -/

lemma chain?_eq (h : s.SameNodes s') (v : Value) : s'.chain? v = s.chain? v :=
  chain?_of_cells_eq h.cells v

lemma list?_eq (h : s.SameNodes s') (v : Value) : s'.list? v = s.list? v := by
  rw [list?, list?, h.chain?_eq]

lemma isList_eq (h : s.SameNodes s') (v : Value) : s'.isList v = s.isList v := by
  rw [isList, isList, h.list?_eq]

lemma members_eq (h : s.SameNodes s') (v : Value) : s'.members v = s.members v := by
  rw [members, members, h.chain?_eq]

/-! ## Scopes -/

lemma scopes_eq (h : s.SameNodes s') (f : FrameId) : s'.scopes f = s.scopes f :=
  scopes_congr (fun g => by rw [h.frame_eq]) f

lemma find?_eq (h : s.SameNodes s') (f : FrameId) (x : Symbol) : s'.find? f x = s.find? f x := by
  simp only [find?, h.scopes_eq, h.frame_eq]

lemma lookup?_eq (h : s.SameNodes s') (f : FrameId) (x : Symbol) :
    s'.lookup? f x = s.lookup? f x := by
  simp only [lookup?, h.find?_eq, h.frame_eq]

end SameNodes

end Store

/-! ## Output -/

namespace Store

/-- Whatever has been printed in the first store has been printed in the second one, and perhaps
more. -/
def Precedes (s s' : Store) : Prop :=
  ∀ channel, ∃ text, s'.output channel = s.output channel ++ text

variable {s s' s'' : Store}

lemma Precedes.trans (h : s.Precedes s') (h' : s'.Precedes s'') : s.Precedes s'' := by
  intro channel
  obtain ⟨text, htext⟩ := h channel
  obtain ⟨text', htext'⟩ := h' channel
  exact ⟨text ++ text', by rw [htext', htext, String.append_assoc]⟩

lemma precedes_of_printed_eq (h : s'.printed = s.printed) : s.Precedes s' :=
  fun _ => ⟨"", by simp [output, h]⟩

lemma Precedes.refl (s : Store) : s.Precedes s :=
  precedes_of_printed_eq rfl

lemma precedes_print (channel : Channel) (text : String) (s : Store) :
    s.Precedes (s.print channel text) := by
  intro other
  rw [output_print]
  split
  · exact ⟨text, rfl⟩
  · exact ⟨"", by simp⟩

end Store

/-! ## Printing -/

/-- Both give the same, unless the first one stops with one of certain errors. -/
def Shortens {α : Type} (Stops : Error → Prop) (x y : Except Error α) : Prop :=
  y = x ∨ ∃ e, Stops e ∧ x = .error e

/-- What is left of one limit is enough for whatever the other one is enough for, if too little of
it counts as a stop. -/
def Limits (Stops : Error → Prop) (limit limit' : Nat) : Prop :=
  limit' = limit ∨ limit ≤ limit' ∧ Stops .tooDeep

section Printing

variable {Stops : Error → Prop} {α β : Type} {x y : Except Error α} {f g : α → Except Error β}
  {limit limit' : Nat}

lemma Shortens.refl (x : Except Error α) : Shortens Stops x x :=
  .inl rfl

lemma Shortens.bind (hx : Shortens Stops x y) (hf : ∀ a, Shortens Stops (f a) (g a)) :
    Shortens Stops (x >>= f) (y >>= g) := by
  rcases hx with rfl | ⟨e, he, rfl⟩
  · cases y with
    | ok a => exact hf a
    | error e => exact .refl _
  · exact .inr ⟨e, he, rfl⟩

lemma Limits.refl (limit : Nat) : Limits Stops limit limit :=
  .inl rfl

lemma Limits.of_succ (h : Limits Stops (limit + 1) (limit' + 1)) : Limits Stops limit limit' := by
  rcases h with h | ⟨hle, hstops⟩
  · exact .inl (Nat.succ.inj h)
  · exact .inr ⟨Nat.le_of_succ_le_succ hle, hstops⟩

/-- The larger limit is there if the smaller one is. -/
lemma Limits.exists_succ (h : Limits Stops (limit + 1) limit') :
    ∃ rest, limit' = rest + 1 ∧ Limits Stops limit rest := by
  cases limit' with
  | zero =>
    rcases h with h | ⟨hle, -⟩
    · cases h
    · exact absurd hle (Nat.not_succ_le_zero limit)
  | succ rest => exact ⟨rest, rfl, h.of_succ⟩

namespace Store

variable {s s' : Store} {part part' : List CellId → Value → Except Error String}

lemma renderParts_shortens (h : s.SameNodes s')
    (hpart : ∀ active v, Shortens Stops (part active v) (part' active v)) (room : Nat)
    (active : List CellId) (v : Value) :
    Shortens Stops (s.renderParts part room active v) (s'.renderParts part' room active v) := by
  have hlast (active : List CellId) (v : Value) :
      Shortens Stops (do return [".", ← part active v]) (do return [".", ← part' active v]) :=
    (hpart active v).bind fun _ => .refl _
  induction room generalizing active v with
  | zero =>
    unfold renderParts
    split
    · rename_i heq
      cases heq
    · exact .refl _
    · exact .refl _
    · split
      · exact .refl _
      · exact hlast active _
    · exact hlast active _
  | succ room ih =>
    unfold renderParts
    split
    · rename_i heq
      cases heq
      split
      · exact .refl _
      · rw [h.cell_eq]
        exact (hpart _ _).bind fun _ => (ih _ _).bind fun _ => .refl _
    · exact .refl _
    · exact .refl _
    · split
      · exact .refl _
      · exact hlast active _
    · exact hlast active _

lemma renderWithin_shortens (h : s.SameNodes s') (hlimits : Limits Stops limit limit')
    (active : List CellId) (v : Value) :
    Shortens Stops (s.renderWithin limit active v) (s'.renderWithin limit' active v) := by
  induction limit generalizing limit' active v with
  | zero =>
    cases v with
    | pair c =>
      rcases hlimits with rfl | ⟨-, hstops⟩
      · exact .inl rfl
      · exact .inr ⟨_, hstops, rfl⟩
    | _ => simp [renderWithin, closureText, h.closure_eq, Shortens]
  | succ limit ih =>
    obtain ⟨rest, rfl, hrest⟩ := hlimits.exists_succ
    cases v with
    | pair c =>
      simp only [renderWithin, h.cells]
      split
      · exact .refl _
      · exact (renderParts_shortens h (fun active v => ih hrest active v) _ _ _).bind fun _ => .refl _
    | _ => simp [renderWithin, closureText, h.closure_eq, Shortens]

/-- **Printing in stores with the same nodes gives the same**, unless too little is left of the
limit of the first one. -/
lemma render_shortens (h : s.SameNodes s') (hlimits : Limits Stops limit limit') (v : Value) :
    Shortens Stops (s.render limit v) (s'.render limit' v) :=
  renderWithin_shortens h hlimits [] v

lemma display_shortens (h : s.SameNodes s') (hlimits : Limits Stops limit limit') (v : Value) :
    Shortens Stops (s.display limit v) (s'.display limit' v) := by
  cases v with
  | pair c => exact (render_shortens h hlimits (.pair c)).bind fun _ => .refl _
  | _ => exact render_shortens h hlimits _

end Store

end Printing

end SmallScheme
