import SmallScheme.Proofs.Encapsulation
import SmallScheme.Proofs.Evolution

/-!
# Nested frames

A frame is enclosed by the frame in which its closure was made, and so on outwards up to the global
frame.  Frames are enclosed by older ones (`Store.Nested`), so the way outwards is finite, meets no
frame twice and ends at the global frame (`Store.Nested.enclosing`), and looking for a name on this
way ends (`Store.Enclosing.finds`).

That a store is well formed, that its frames are nested and that its closures have bodies is kept
while programs run: this is a discipline (`Store.nesting`).  Well-formed stores are known already, as
those that are encapsulated with all of their nodes.
-/

namespace SmallScheme

namespace Store

variable {s s' : Store} {globals f : FrameId} {A : Deed → Prop}

/-! ## Enclosing frames -/

/-- The frame and the frames around it, up to one without outer frame. -/
inductive Enclosing (s : Store) : FrameId → List FrameId → Prop
  | outermost {f : FrameId} : (s.frame f).outer = none → Enclosing s f [f]
  | inner {f g : FrameId} {chain : List FrameId} : (s.frame f).outer = some g →
      Enclosing s g chain → Enclosing s f (f :: chain)

/-- Looking for a name, frame by frame outwards, ends with this result. -/
inductive Finds (s : Store) (x : Symbol) : FrameId → Option FrameId → Prop
  | here {f : FrameId} : ((s.frame f).bindings.get? x).isSome → Finds s x f (some f)
  | outward {f g : FrameId} {r : Option FrameId} : (s.frame f).bindings.get? x = none →
      (s.frame f).outer = some g → Finds s x g r → Finds s x f r
  | nowhere {f : FrameId} : (s.frame f).bindings.get? x = none → (s.frame f).outer = none →
      Finds s x f none

/-- A finite chain is searched to its end. -/
lemma Enclosing.finds {chain : List FrameId} (h : s.Enclosing f chain) (x : Symbol) :
    s.Finds x f (chain.find? fun f => ((s.frame f).bindings.get? x).isSome) := by
  induction h with
  | @outermost f houter =>
    cases hget : (s.frame f).bindings.get? x with
    | some v =>
      rw [List.find?_cons_of_pos (by rw [hget]; rfl)]
      exact .here (by rw [hget]; rfl)
    | none =>
      rw [List.find?_cons_of_neg (by rw [hget]; exact Bool.false_ne_true)]
      exact .nowhere hget houter
  | @inner f g chain houter _ ih =>
    cases hget : (s.frame f).bindings.get? x with
    | some v =>
      rw [List.find?_cons_of_pos (by rw [hget]; rfl)]
      exact .here (by rw [hget]; rfl)
    | none =>
      rw [List.find?_cons_of_neg (by rw [hget]; exact Bool.false_ne_true)]
      exact .outward hget houter ih

/-! ## Nested frames -/

/-- Frames are enclosed by older ones, only the global frame has no outer frame, and closures have
bodies. -/
structure Nested (globals : FrameId) (s : Store) : Prop where
  globals_lt : globals < s.frames.size
  outermost : ∀ f < s.frames.size, (s.frame f).outer = none → f = globals
  backward : ∀ f < s.frames.size, ∀ g, (s.frame f).outer = some g → g < f
  body_ne_nil : ∀ k < s.closures.size, (s.closure k).body ≠ []

namespace Nested

/-- An evolution without new frames and closures. -/
lemma of_evolves (hs : s.Nested globals) (h : s.Evolves A s')
    (hframes : s'.frames.size = s.frames.size) (hclosures : s'.closures.size = s.closures.size) :
    s'.Nested globals := by
  have houter {f : FrameId} (hf : f < s.frames.size) : (s'.frame f).outer = (s.frame f).outer :=
    (show (s.frame f).Evolves A f (s'.frame f) from h.at_node (.frame f) hf).outer_eq
  have hbody {k : ClosureId} (hk : k < s.closures.size) : (s'.closure k).body = (s.closure k).body :=
    (show (s.closure k).Evolves A k (s'.closure k) from h.at_node (.closure k) hk).body_eq
  refine ⟨hframes ▸ hs.globals_lt, fun f hf hnone => ?_, fun f hf g hg => ?_, fun k hk => ?_⟩
  · rw [hframes] at hf
    exact hs.outermost f hf (houter hf ▸ hnone)
  · rw [hframes] at hf
    exact hs.backward f hf g (houter hf ▸ hg)
  · rw [hclosures] at hk
    rw [hbody hk]
    exact hs.body_ne_nil k hk

/-- A new frame inside one that is there. -/
lemma addFrame (hs : s.Nested globals) (bindings : List (Symbol × Value))
    (hf : f < s.frames.size) : (s.addFrame bindings (some f)).2.Nested globals := by
  have hsize : (s.addFrame bindings (some f)).2.frames.size = s.frames.size + 1 :=
    Array.size_push _
  have hself := frame_addFrame_self bindings (some f) s
  have hold {g : FrameId} (hg : g < s.frames.size) :
      (s.addFrame bindings (some f)).2.frame g = s.frame g :=
    frame_addFrame_of_lt bindings (some f) hg
  refine ⟨hsize ▸ Nat.lt_succ_of_lt hs.globals_lt, fun g hg hnone => ?_, fun g hg h hh => ?_,
    hs.body_ne_nil⟩
  · rcases Nat.lt_succ_iff_lt_or_eq.mp (hsize ▸ hg) with hlt | rfl
    · rw [hold hlt] at hnone
      exact hs.outermost g hlt hnone
    · rw [hself] at hnone
      cases hnone
  · rcases Nat.lt_succ_iff_lt_or_eq.mp (hsize ▸ hg) with hlt | rfl
    · rw [hold hlt] at hh
      exact hs.backward g hlt h hh
    · rw [hself] at hh
      cases hh
      exact hf

lemma addClosure {closure : Closure} (hs : s.Nested globals) (hbody : closure.body ≠ []) :
    (s.addClosure closure).2.Nested globals := by
  have hsize : (s.addClosure closure).2.closures.size = s.closures.size + 1 := Array.size_push _
  refine ⟨hs.globals_lt, hs.outermost, hs.backward, fun k hk => ?_⟩
  rcases Nat.lt_succ_iff_lt_or_eq.mp (hsize ▸ hk) with hlt | rfl
  · rw [closure_addClosure_of_lt closure hlt]
    exact hs.body_ne_nil k hlt
  · rw [closure_addClosure_self]
    exact hbody

/-- The way outwards from a frame ends at the global frame. -/
lemma enclosing (hs : s.Nested globals) (hf : f < s.frames.size) :
    s.Enclosing f (s.scopes f) ∧ (s.scopes f).getLast? = some globals := by
  induction f using Nat.strong_induction_on with
  | _ f ih =>
    cases houter : (s.frame f).outer with
    | none =>
      rw [scopes_of_outermost houter, hs.outermost f hf houter]
      exact ⟨.outermost (hs.outermost f hf houter ▸ houter), rfl⟩
    | some g =>
      have hlt := hs.backward f hf g houter
      obtain ⟨hchain, hlast⟩ := ih g hlt (hlt.trans hf)
      rw [scopes_of_outer houter hlt]
      refine ⟨.inner houter hchain, ?_⟩
      rw [List.getLast?_cons, hlast]
      rfl

end Nested

lemma le_of_mem_scopes {g : FrameId} (h : g ∈ s.scopes f) : g ≤ f := by
  induction f using Nat.strong_induction_on with
  | _ f ih =>
    rw [scopes] at h
    split at h
    · exact (List.mem_singleton.mp h).le
    · split at h
      · rename_i outer _ hlt
        rcases List.mem_cons.mp h with rfl | h
        · exact le_rfl
        · exact (ih outer hlt h).trans hlt.le
      · exact (List.mem_singleton.mp h).le

/-- No frame is met twice on the way outwards, since it leads to older frames. -/
lemma nodup_scopes (s : Store) (f : FrameId) : (s.scopes f).Nodup := by
  induction f using Nat.strong_induction_on with
  | _ f ih =>
    rw [scopes]
    split
    · exact List.nodup_singleton f
    · split
      · rename_i outer _ hlt
        refine List.nodup_cons.mpr ⟨fun hmem => ?_, ih outer hlt⟩
        exact absurd (le_of_mem_scopes hmem) (Nat.not_le_of_lt hlt)
      · exact List.nodup_singleton f

/-! ## The discipline -/

/-- The encapsulation in which every node may be used: it says of a store that it is well formed. -/
abbrev wholeEncapsulation : Discipline := empty.encapsulation fun _ => True

lemma encapsulated_whole_iff {w : Extent} :
    wholeEncapsulation.Holds w s ↔ s.extent = w ∧ s.WellFormed := by
  constructor
  · intro hs
    refine ⟨hs.extent_eq, fun m n hm hlead => ?_⟩
    have hm' : empty.Usable (fun _ => True) w m := ⟨fun _ => trivial, hs.extent_eq ▸ hm⟩
    exact hs.has (hs.usable_of_leads m n hm' hlead)
  · rintro ⟨rfl, hwf⟩
    refine ⟨rfl, ⟨Nat.zero_le _, Nat.zero_le _, Nat.zero_le _⟩, fun m n hm hlead => ?_, ?_⟩
    · exact ⟨fun _ => trivial, hwf m n hm.2 hlead⟩
    · exact fun n _ hn => absurd trivial hn

/-- An operation that adds neither frames nor closures. -/
lemma Nested.exists_world {w : Extent} (hs : s.Nested globals)
    (h : ∃ w', w.Le w' ∧ wholeEncapsulation.Holds w' s') (hevolves : s.Evolves (fun _ => True) s')
    (hframes : s'.frames.size = s.frames.size) (hclosures : s'.closures.size = s.closures.size) :
    ∃ w', w.Le w' ∧ wholeEncapsulation.Holds w' s' ∧ s'.Nested globals := by
  obtain ⟨w', hle, hs'⟩ := h
  exact ⟨w', hle, hs', hs.of_evolves hevolves hframes hclosures⟩

/-- What is kept in a session: the store is well formed and nested. -/
def nesting (globals : FrameId) : Discipline where
  World := Extent
  le := Extent.Le
  Holds w s := wholeEncapsulation.Holds w s ∧ s.Nested globals
  Good := wholeEncapsulation.Good
  Scope := wholeEncapsulation.Scope
  Fails _ := True
  Permits _ := True
  le_refl := .refl
  le_trans := .trans
  good_mono := wholeEncapsulation.good_mono
  scope_mono := wholeEncapsulation.scope_mono
  good_atom := wholeEncapsulation.good_atom
  good_foreign := wholeEncapsulation.good_foreign
  fails_ordinary _ := trivial
  fails_host _ _ := trivial
  good_refine hs := wholeEncapsulation.good_refine hs.1
  good_car hs := wholeEncapsulation.good_car hs.1
  good_cdr hs := wholeEncapsulation.good_cdr hs.1
  good_binding hs := wholeEncapsulation.good_binding hs.1
  scope_outer hs := wholeEncapsulation.scope_outer hs.1
  scope_env hs := wholeEncapsulation.scope_env hs.1
  good_body hs := wholeEncapsulation.good_body hs.1
  cons := by
    intro w s r car cdr hs hcar hcdr
    obtain ⟨w', hle, hs', hgood⟩ := wholeEncapsulation.cons hs.1 hcar hcdr
    have hevolves : s.Evolves (fun _ => True) (s.cons car cdr).2 := .cons car cdr s
    exact ⟨w', hle, ⟨hs', hs.2.of_evolves hevolves rfl rfl⟩, hgood⟩
  addFrame := by
    intro w s f bindings hs hf hbindings
    obtain ⟨w', hle, hs', hscope⟩ := wholeEncapsulation.addFrame hs.1 hf hbindings
    exact ⟨w', hle, ⟨hs', hs.2.addFrame bindings (hs.1.has hf)⟩, hscope⟩
  addClosure := by
    intro w s closure hs henv hbody hne hname
    obtain ⟨w', hle, hs', hgood⟩ := wholeEncapsulation.addClosure hs.1 henv hbody hne hname
    exact ⟨w', hle, ⟨hs', hs.2.addClosure hne⟩, hgood⟩
  addForeign := by
    intro w s v hs
    have hsame : (s.addForeign v).2.frames = s.frames ∧ (s.addForeign v).2.closures = s.closures := by
      unfold Store.addForeign
      split <;> exact ⟨rfl, rfl⟩
    exact hs.2.exists_world (wholeEncapsulation.addForeign hs.1) (.addForeign v s)
      (by rw [hsame.1]) (by rw [hsame.2])
  setCar hs hc hv _ :=
    hs.2.exists_world (wholeEncapsulation.setCar hs.1 hc hv trivial) (.setCar _ trivial) rfl rfl
  setCdr hs hc hv _ :=
    hs.2.exists_world (wholeEncapsulation.setCdr hs.1 hc hv trivial) (.setCdr _ trivial) rfl rfl
  define hs hf hv _ :=
    hs.2.exists_world (wholeEncapsulation.define hs.1 hf hv trivial) (.define _ trivial)
      (Array.size_modify ..) rfl
  nameClosure hs hk _ :=
    hs.2.exists_world (wholeEncapsulation.nameClosure hs.1 hk trivial) (.nameClosure _ trivial)
      rfl (Array.size_modify ..)
  print hs := hs.2.exists_world (wholeEncapsulation.print hs.1) (.print _ _ _) rfl rfl
  report hs := hs.2.exists_world (wholeEncapsulation.report hs.1) (.report _ _) rfl rfl

end Store

end SmallScheme
