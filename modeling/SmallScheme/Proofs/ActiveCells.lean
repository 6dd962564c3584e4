import SmallScheme.Proofs.Drawing

/-!
# Active cells

Printing can also be done with one set of active cells that all calls share.  A call marks the cells
of its chain one after another, prints the members in between, and unmarks its own cells when it
ends, be it in a text or in an error (`Store.markingRender`).  Each call leaves the set as it was,
and gives the same as the printer that hands its active cells down (`Store.markingRender_eq`).

With what is known of drawings, this settles how any value is printed (`Store.render_drawing`).
-/

namespace SmallScheme

/-- The active cells while a chain is printed. -/
structure Marks where
  /-- All active cells. -/
  active : List CellId
  /-- Those that belong to the chain. -/
  own : List CellId

/-- A step of printing that shares its active cells with others. -/
abbrev Marking := EStateM Error (List CellId)

namespace Marking

variable {α : Type}

/-- A call inside a chain, which does not know the cells of the chain. -/
def inside (x : Marking α) : EStateM Error Marks α := fun m =>
  match x m.active with
  | .ok a active => .ok a { m with active := active }
  | .error e active => .error e { m with active := active }

/-- A call that unmarks its own cells when it ends, whatever it ends in. -/
def unmarking (x : EStateM Error Marks α) : Marking α := fun active =>
  match x ⟨active, []⟩ with
  | .ok a m => .ok a (m.active.filter (· ∉ m.own))
  | .error e m => .error e (m.active.filter (· ∉ m.own))

/-- A result, with the given state after it. -/
def leaving {σ : Type} (after : σ) : Except Error α → EStateM.Result Error σ α
  | .ok a => .ok a after
  | .error e => .error e after

section Rules

variable {β σ : Type} {x : EStateM Error σ α} {f : α → EStateM Error σ β} {s t : σ}

lemma get_bind (g : σ → EStateM Error σ α) (s : σ) : (get >>= g) s = g s s := rfl

lemma modify_bind (g : σ → σ) (x : EStateM Error σ α) (s : σ) :
    (do modify g; x) s = x (g s) := rfl

lemma bind_ok {a : α} (h : x s = leaving t (.ok a)) : (x >>= f) s = f a t := by
  show EStateM.bind x f s = _
  rw [EStateM.bind, h]
  rfl

lemma bind_error {e : Error} (h : x s = leaving t (.error e)) :
    (x >>= f) s = leaving t (.error e) := by
  show EStateM.bind x f s = _
  rw [EStateM.bind, h]
  rfl

end Rules

end Marking

namespace Store

open Marking

variable {s : Store} {v : Value} {limit room : Nat}

/-- The printed parts of a chain, whose cells are marked on the way. -/
def markingParts (s : Store) (part : Value → Marking String) (room : Nat) (v : Value) :
    EStateM Error Marks (List String) :=
  match v, room with
  | .pair c, room + 1 => do
    if (← get).active.contains c then return [cycleMarker]
    else
      modify fun m => ⟨c :: m.active, c :: m.own⟩
      let first ← inside (part (s.cell c).car)
      let rest ← s.markingParts part room (s.cell c).cdr
      return first :: rest
  | .pair _, 0 => return [cycleMarker]
  | .nil, _ => return []
  | .foreign w _, _ =>
    if w.isAbsent then return []
    else return [".", ← inside (part v)]
  | v, _ => return [".", ← inside (part v)]

/-- Prints a value, with active cells that are shared with all other calls. -/
def markingRender (s : Store) (limit : Nat) (v : Value) : Marking String :=
  match v, limit with
  | .atom a, _ => fun active => leaving active (writtenForm a.text?)
  | .closure k, _ => return s.closureText k
  | .builtin b, _ => return s!"#<builtin {b.name}>"
  | .foreign w _, _ => return s!"#<{w.typeName}>"
  | .pair _, 0 => throw .tooDeep
  | .pair c, limit + 1 => do
    if (← get).contains c then return cycleMarker
    else
      let parts ← unmarking (s.markingParts (s.markingRender limit) (s.cells.size + 1) (.pair c))
      return "(" ++ " ".intercalate parts ++ ")"

section Parts

variable {part : Value → Marking String} {part' : List CellId → Value → Except Error String}

lemma inside_eq (hpart : ∀ w active, part w active = leaving active (part' active w)) (v : Value)
    (m : Marks) : inside (part v) m = leaving m (part' m.active v) := by
  rw [inside, hpart]
  cases part' m.active v <;> rfl

/-- A value at the end of a chain is printed after a point. -/
lemma last_eq (hpart : ∀ w active, part w active = leaving active (part' active w)) (v : Value)
    (m : Marks) :
    (do return [".", ← inside (part v)] : EStateM Error Marks (List String)) m =
      leaving m (do return [".", ← part' m.active v]) := by
  have hv := inside_eq hpart v m
  cases h : part' m.active v with
  | ok text =>
    rw [h] at hv
    exact bind_ok hv
  | error e =>
    rw [h] at hv
    exact bind_error hv

lemma markingParts_of_ne (hpart : ∀ w active, part w active = leaving active (part' active w))
    (hv : ¬∃ c, v = .pair c) (room : Nat) (m : Marks) :
    s.markingParts part room v m = leaving m (s.renderParts part' room m.active v) := by
  cases v with
  | pair c => exact absurd ⟨c, rfl⟩ hv
  | atom a =>
    cases a with
    | nil =>
      rw [markingParts, renderParts]
      rfl
    | _ => simpa only [markingParts, renderParts] using last_eq hpart _ m
  | foreign w id =>
    rw [markingParts, renderParts]
    split
    · rfl
    · exact last_eq hpart _ m
  | _ => simpa only [markingParts, renderParts] using last_eq hpart _ m

/-- The chain gives the same parts, and its own cells are the only ones that it has marked. -/
lemma exists_markingParts (hpart : ∀ w active, part w active = leaving active (part' active w))
    (room : Nat) (v : Value) (m : Marks) :
    ∃ cells : List CellId, (∀ c ∈ cells, c ∉ m.active) ∧
      s.markingParts part room v m =
        leaving ⟨cells ++ m.active, cells ++ m.own⟩ (s.renderParts part' room m.active v) := by
  induction room generalizing v m with
  | zero =>
    refine ⟨[], List.forall_mem_nil _, ?_⟩
    by_cases hv : ∃ c, v = .pair c
    · obtain ⟨c, rfl⟩ := hv
      rw [markingParts, renderParts]
      rfl
    · exact markingParts_of_ne hpart hv 0 m
  | succ room ih =>
    by_cases hv : ∃ c, v = .pair c
    · obtain ⟨c, rfl⟩ := hv
      rw [markingParts, renderParts, get_bind]
      by_cases hactive : m.active.contains c
      · rw [if_pos hactive, if_pos hactive]
        exact ⟨[], List.forall_mem_nil _, rfl⟩
      · rw [if_neg hactive, if_neg hactive, modify_bind]
        have hc : c ∉ m.active := by simpa using hactive
        have hfirst := inside_eq hpart (s.cell c).car ⟨c :: m.active, c :: m.own⟩
        cases hcar : part' (c :: m.active) (s.cell c).car with
        | error e =>
          rw [hcar] at hfirst
          exact ⟨[c], by simpa using hc, bind_error hfirst⟩
        | ok first =>
          rw [hcar] at hfirst
          rw [bind_ok hfirst]
          -- the cells of the rest are marked on top of this one
          obtain ⟨cells, hcells, hrest⟩ := ih (s.cell c).cdr ⟨c :: m.active, c :: m.own⟩
          refine ⟨cells ++ [c], fun d hd => ?_, ?_⟩
          · rcases List.mem_append.mp hd with hd | hd
            · exact fun hmem => hcells d hd (List.mem_cons_of_mem c hmem)
            · exact List.mem_singleton.mp hd ▸ hc
          · simp only [List.append_assoc, List.singleton_append]
            cases hcdr : s.renderParts part' room (c :: m.active) (s.cell c).cdr with
            | error e =>
              rw [hcdr] at hrest
              exact bind_error hrest
            | ok rest =>
              rw [hcdr] at hrest
              exact bind_ok hrest
    · exact ⟨[], List.forall_mem_nil _, markingParts_of_ne hpart hv _ m⟩

/-- When the chain is done, its cells are unmarked and all others are still active. -/
lemma unmarking_markingParts
    (hpart : ∀ w active, part w active = leaving active (part' active w)) (room : Nat) (v : Value)
    (active : List CellId) :
    unmarking (s.markingParts part room v) active =
      leaving active (s.renderParts part' room active v) := by
  obtain ⟨cells, hcells, hparts⟩ := exists_markingParts (s := s) hpart room v ⟨active, []⟩
  have hunmarked : (cells ++ active).filter (· ∉ cells ++ []) = active := by
    rw [List.append_nil, List.filter_append, List.filter_eq_nil_iff.mpr (by simp),
      List.filter_eq_self.mpr, List.nil_append]
    exact fun d hd => decide_eq_true fun hmem => hcells d hmem hd
  rw [unmarking, hparts]
  cases s.renderParts part' room active v with
  | ok parts => exact congrArg (EStateM.Result.ok parts) hunmarked
  | error e => exact congrArg (EStateM.Result.error e) hunmarked

end Parts

/-- **Each call leaves the active cells as they were**, whether it ends in a text or in an error, and
gives the same as the printer that is handed its active cells. -/
theorem markingRender_eq (s : Store) (limit : Nat) (v : Value) (active : List CellId) :
    s.markingRender limit v active = leaving active (s.renderWithin limit active v) := by
  induction limit generalizing v active with
  | zero => cases v <;> rfl
  | succ limit ih =>
    cases v with
    | pair c =>
      rw [markingRender, renderWithin, get_bind]
      by_cases hactive : active.contains c
      · rw [if_pos hactive, if_pos hactive]
        rfl
      · rw [if_neg hactive, if_neg hactive]
        have hparts := unmarking_markingParts (s := s) ih (s.cells.size + 1) (.pair c) active
        cases hrender : s.renderParts (s.renderWithin limit) (s.cells.size + 1) active (.pair c) with
        | ok parts =>
          rw [hrender] at hparts
          exact bind_ok hparts
        | error e =>
          rw [hrender] at hparts
          exact bind_error hparts
    | _ => rfl

/-- **How any value is printed.**  It has one drawing, in which exactly the ways are cut that come
back to a pair on them.  Unless it contains a number with too many digits, printing ends, with any
limit above the number of cells, and writes down the drawing.  Something is cut if and only if a
cycle can be reached, and if not, the value is drawn in full, however much of it is shared.  With
one set of active cells for all calls, each call gives the same and leaves the set as it was. -/
theorem render_drawing (s : Store) (v : Value) :
    ∃ d, (∀ d', s.Draws [] v d' ↔ d' = d) ∧
      (¬s.HasLongNumber v → ∃ text, d.text? s = some text ∧
        ∀ limit, s.cells.size < limit → s.render limit v = .ok text) ∧
      (d.HasCut ↔ s.ReachesCycle v) ∧
      (¬s.ReachesCycle v → s.Unrolls v d) ∧
      ∀ limit w active, s.markingRender limit w active =
        leaving active (s.renderWithin limit active w) := by
  obtain ⟨d, hd, hnesting⟩ := s.exists_draws [] v
  refine ⟨d, fun d' => ⟨fun hd' => hd'.unique hd, fun h => h ▸ hd⟩, fun hshort => ?_, hasCut_iff hd,
    fun hcycle => hd.unrolls (mt (hasCut_iff hd).mp hcycle), s.markingRender_eq⟩
  have hrender {limit : Nat} (hlimit : s.cells.size < limit) :
      s.render limit v = orTooLong (d.text? s) := by
    have hspare := s.spare_le []
    exact renderWithin_of_draws hd (by omega)
  cases htext : d.text? s with
  | some text => exact ⟨text, rfl, fun limit hlimit => by rw [hrender hlimit, htext]; rfl⟩
  | none =>
    have herror := hrender (Nat.lt_succ_self s.cells.size)
    rw [htext] at herror
    exact absurd (unprintable_of_render herror).hasLongNumber hshort

/-- A store with a list `((1) (1) ...)` that has the list `(1)` twice, and whose last pair leads back
to the first pair and to the second one. -/
def knot : Store :=
  { Store.empty with
    cells := #[⟨.pair 3, .pair 1⟩, ⟨.pair 3, .pair 2⟩, ⟨.pair 0, .pair 1⟩, ⟨.number 1, .nil⟩] }

lemma not_hasLongNumber_knot : ¬knot.HasLongNumber (.pair 0) := by
  -- the only number in a cell is one
  have hparts (c : CellId) (n : Int) :
      ((knot.cell c).car = .number n → n = 1) ∧ (knot.cell c).cdr ≠ .number n := by
    by_cases hc : c < 4
    · interval_cases c <;> simp [knot, cell]
      exact Eq.symm
    · simp [cell_of_size_le (s := knot) (not_lt.mp hc)]
  have hone {v : Value} {n : Int} (h : knot.Contains v n) :
      (∀ m, v = .number m → m = 1) → n = 1 := by
    induction h with
    | here n => exact fun hv => hv n rfl
    | car _ ih => exact fun _ => ih fun m => (hparts _ m).1
    | cdr _ ih => exact fun _ => ih fun m hm => absurd hm (hparts _ m).2
  rintro ⟨n, hn, hlong⟩
  rw [hone hn (by simp)] at hlong
  exact absurd hlong (by decide +kernel)

/-- The list `(1)` is printed twice, and then there is a cut in the place of a member and one in the
place of a rest. -/
theorem render_drawing_knot : ∃ d, knot.Draws [] (.pair 0) d ∧ d.HasCut ∧
    d.text? knot = some "((1) (1) ... ...)" ∧ knot.render 5 (.pair 0) = .ok "((1) (1) ... ...)" := by
  obtain ⟨d, hd, htext, hcut, -⟩ := render_drawing knot (.pair 0)
  have hfirst : knot.Links 0 1 := .inr rfl
  have hsecond : knot.Links 1 2 := .inr rfl
  have hback : knot.Links 2 0 := .inl rfl
  have hcycle : knot.ReachesCycle (.pair 0) :=
    ⟨0, 0, rfl, .refl, .tail (.tail (.single hfirst) hsecond) hback⟩
  obtain ⟨text, htext, hrender⟩ := htext not_hasLongNumber_knot
  have hprinted : knot.render 5 (.pair 0) = .ok "((1) (1) ... ...)" := by decide +kernel
  cases (hrender 5 (by decide)).symm.trans hprinted
  exact ⟨d, (hd d).mpr rfl, hcut.mpr hcycle, htext, hprinted⟩

end Store

end SmallScheme
