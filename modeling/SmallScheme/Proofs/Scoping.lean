import SmallScheme.Proofs.Nesting
import SmallScheme.Proofs.Renaming

/-!
# Scoping

What a definition or an assignment through one frame changes for the names that are looked up from
another one.  Frames form a forest (`Store.Forest`).  A binding in a frame is seen from those frames
whose way outwards comes to it before any other frame that binds the name (`Store.Exposes`).

A definition makes a binding that exactly these frames see, and an assignment gives a new value to
the binding that its own frame sees, whatever the values are.  Both are read off the way outwards of
the other frame, on which the only new binding frame is the one that has been written to
(`find?_of_exposed`, `find?_of_hidden`).
-/

namespace SmallScheme

namespace Bindings

variable {x : Symbol} {v : Value} {bs : Bindings}

/-- A name that is bound keeps its place, and no name is added. -/
lemma map_fst_put (h : (get? x bs).isSome) : (put x v bs).map Prod.fst = bs.map Prod.fst := by
  induction bs with
  | nil => cases h
  | cons b bs ih =>
    obtain ⟨y, w⟩ := b
    by_cases hy : y = x
    · simp [put, hy]
    · rw [get?, if_neg hy] at h
      simp [put, hy, ih h]

end Bindings

/-! ## Searching a way on which one more frame is found -/

section Search

variable {α : Type} {p q : α → Bool} {a : α} {as : List α}

/-- The first element that is found is now the new one, if none is found before it. -/
lemma find?_of_exposed {near far : List α} (hq : ∀ b, q b = true ↔ b = a ∨ p b = true)
    (hnear : ∀ b ∈ near, p b = false) : (near ++ a :: far).find? q = some a := by
  induction near with
  | nil => exact List.find?_cons_of_pos ((hq a).mpr (.inl rfl))
  | cons b near ih =>
    obtain ⟨hb, hnear⟩ := List.forall_mem_cons.mp hnear
    by_cases hba : b = a
    · rw [List.cons_append, List.find?_cons_of_pos ((hq b).mpr (.inl hba)), hba]
    · have hqb : ¬q b = true := by simp [hq, hba, hb]
      rw [List.cons_append, List.find?_cons_of_neg hqb]
      exact ih hnear

/-- If something is found before the new one, or if the new one is not there at all, the search has
the same result as before. -/
lemma find?_of_hidden (hq : ∀ b, q b = true ↔ b = a ∨ p b = true)
    (h : ¬∃ near far, as = near ++ a :: far ∧ ∀ b ∈ near, p b = false) :
    as.find? q = as.find? p := by
  induction as with
  | nil => rfl
  | cons b as ih =>
    have hba : b ≠ a := by
      rintro rfl
      exact h ⟨[], as, rfl, by simp⟩
    cases hpb : p b with
    | true =>
      rw [List.find?_cons_of_pos hpb, List.find?_cons_of_pos ((hq b).mpr (.inr hpb))]
    | false =>
      have hqb : ¬q b = true := by simp [hq, hba, hpb]
      rw [List.find?_cons_of_neg hqb, List.find?_cons_of_neg (Bool.not_eq_true _ ▸ hpb)]
      refine ih fun ⟨near, far, has, hnear⟩ => h ⟨b :: near, far, by rw [has]; rfl, ?_⟩
      exact List.forall_mem_cons.mpr ⟨hpb, hnear⟩

end Search

namespace Store

variable {s : Store} {f g : FrameId} {x y : Symbol} {v : Value} {chain : List FrameId}

/-! ## Forests -/

/-- Every frame lies inside an older one, or inside none.  A frame gets its number when it is made,
inside a frame that is there already, so links without cycles lead to smaller numbers. -/
def Forest (s : Store) : Prop :=
  ∀ f g, (s.frame f).outer = some g → g < f

/-- The frame is on the way outwards from `g`, and no frame before it binds the name. -/
def Exposes (s : Store) (f : FrameId) (x : Symbol) (g : FrameId) : Prop :=
  ∃ near far, s.Enclosing g (near ++ f :: far) ∧
    ∀ h ∈ near, (s.frame h).bindings.get? x = none

lemma Forest.enclosing (hs : s.Forest) (f : FrameId) : s.Enclosing f (s.scopes f) := by
  induction f using Nat.strong_induction_on with
  | _ f ih =>
    cases houter : (s.frame f).outer with
    | none =>
      rw [scopes_of_outermost houter]
      exact .outermost houter
    | some g =>
      have hlt := hs f g houter
      rw [scopes_of_outer houter hlt]
      exact .inner houter (ih g hlt)

/-- There is only one way outwards. -/
lemma Forest.scopes_eq (hs : s.Forest) (h : s.Enclosing f chain) : s.scopes f = chain := by
  induction h with
  | outermost houter => exact scopes_of_outermost houter
  | inner houter _ ih => rw [scopes_of_outer houter (hs _ _ houter), ih]

lemma Forest.exposes_iff (hs : s.Forest) :
    s.Exposes f x g ↔ ∃ near far, s.scopes g = near ++ f :: far ∧
      ∀ h ∈ near, ((s.frame h).bindings.get? x).isSome = false := by
  have hchain (chain : List FrameId) : s.Enclosing g chain ↔ s.scopes g = chain :=
    ⟨hs.scopes_eq, fun h => h ▸ hs.enclosing g⟩
  simp only [Exposes, hchain, Option.isSome_eq_false_iff, Option.isNone_iff_eq_none]

/-- The frame in which a name is found exposes it. -/
lemma Forest.exposes_of_find? (hs : s.Forest) (h : s.find? g x = some f) : s.Exposes f x g := by
  obtain ⟨-, near, far, hscopes, hnear⟩ := List.find?_eq_some_iff_append.mp h
  exact hs.exposes_iff.mpr ⟨near, far, hscopes, by simpa using hnear⟩

/-! ## One new binding -/

lemma outer_define (s : Store) (f : FrameId) (x : Symbol) (v : Value) (g : FrameId) :
    ((s.define f x v).frame g).outer = (s.frame g).outer := by
  rcases Nat.lt_or_ge f s.frames.size with hf | hf
  · rw [define, frame_defineAll _ hf]
    split
    · rename_i heq
      rw [heq]
    · rfl
  · have hmodify (h : Frame → Frame) : s.frames.modify f h = s.frames :=
      Array.ext (by simp) fun i hi _ => by simp [Array.getElem_modify]; omega
    simp only [define, defineAll, frame, hmodify]

lemma get?_define (hf : f < s.frames.size) (x : Symbol) (v : Value) (g : FrameId) (y : Symbol) :
    ((s.define f x v).frame g).bindings.get? y =
      if g = f ∧ y = x then some v else (s.frame g).bindings.get? y := by
  rw [define, frame_defineAll _ hf]
  by_cases hg : g = f
  · subst hg
    have hput : (s.frame g).bindings.putAll [(x, v)] = (s.frame g).bindings.put x v := rfl
    rw [if_pos rfl]
    simp only [true_and]
    rw [hput, Bindings.get?_put]
    simp only [eq_comm]
  · simp [hg]

/-- The frame that is written to binds the name, and nothing else is new. -/
lemma binds_define (hf : f < s.frames.size) (x : Symbol) (v : Value) (g : FrameId) (y : Symbol) :
    (((s.define f x v).frame g).bindings.get? y).isSome = true ↔
      (g = f ∧ y = x) ∨ ((s.frame g).bindings.get? y).isSome = true := by
  rw [get?_define hf]
  by_cases h : g = f ∧ y = x <;> simp [h]

lemma scopes_define (s : Store) (f : FrameId) (x : Symbol) (v : Value) (g : FrameId) :
    (s.define f x v).scopes g = s.scopes g :=
  scopes_congr (outer_define s f x v) g

lemma find?_define_of_ne (hf : f < s.frames.size) (v : Value) (g : FrameId) (hy : y ≠ x) :
    (s.define f x v).find? g y = s.find? g y := by
  simp only [find?, scopes_define, get?_define hf, hy, and_false, if_false]

lemma lookup?_define_of_ne (hf : f < s.frames.size) (v : Value) (g : FrameId) (hy : y ≠ x) :
    (s.define f x v).lookup? g y = s.lookup? g y := by
  simp only [lookup?, find?_define_of_ne hf v g hy, get?_define hf, hy, and_false, if_false]

/-- What is looked up is the new value if the frame that is written to is found, and else what was
looked up there before. -/
lemma lookup?_define_of_find? (hf : f < s.frames.size) (v : Value) {h : FrameId}
    (hfind : (s.define f x v).find? g x = some h) :
    (s.define f x v).lookup? g x = if h = f then some v else (s.frame h).bindings.get? x := by
  simp only [lookup?, hfind, Option.bind_eq_bind, Option.bind_some, get?_define hf, and_true]

/-- **A definition is seen from the frames to which it is exposed.** -/
lemma Forest.lookup?_define_of_exposes (hs : s.Forest) (hf : f < s.frames.size) (v : Value)
    (h : s.Exposes f x g) :
    (s.define f x v).find? g x = some f ∧ (s.define f x v).lookup? g x = some v := by
  obtain ⟨near, far, hscopes, hnear⟩ := hs.exposes_iff.mp h
  have hfind : (s.define f x v).find? g x = some f := by
    rw [find?, scopes_define, hscopes]
    refine find?_of_exposed (fun h => ?_) hnear
    simpa using binds_define hf x v h x
  exact ⟨hfind, by rw [lookup?_define_of_find? hf v hfind, if_pos rfl]⟩

/-- From the other frames nothing of it is seen. -/
lemma Forest.lookup?_define_of_not_exposes (hs : s.Forest) (hf : f < s.frames.size) (v : Value)
    (h : ¬s.Exposes f x g) :
    (s.define f x v).find? g x = s.find? g x ∧
      (s.define f x v).lookup? g x = s.lookup? g x := by
  have hfind : (s.define f x v).find? g x = s.find? g x := by
    rw [find?, find?, scopes_define]
    refine find?_of_hidden (fun h => ?_) fun hway => h (hs.exposes_iff.mpr hway)
    simpa using binds_define hf x v h x
  refine ⟨hfind, ?_⟩
  cases hold : s.find? g x with
  | none => simp [lookup?, hfind, hold]
  | some h' =>
    have hne : h' ≠ f := by
      rintro rfl
      exact h (hs.exposes_of_find? hold)
    rw [lookup?_define_of_find? hf v (hfind.trans hold), if_neg hne]
    simp [lookup?, hold]

/-! ## One new value -/

lemma lookup?_of_find? (h : s.find? g x = some f) :
    s.lookup? g x = (s.frame f).bindings.get? x := by
  rw [lookup?, h]
  rfl

lemma lookup?_of_find?_none (h : s.find? g x = none) : s.lookup? g x = none := by
  rw [lookup?, h]
  rfl

lemma isSome_get?_of_find? (h : s.find? g x = some f) :
    ((s.frame f).bindings.get? x).isSome = true := by
  simpa using List.find?_some h

/-- A frame that binds something is there. -/
lemma lt_of_find? (h : s.find? g x = some f) : f < s.frames.size := by
  by_contra hf
  have hbinds := isSome_get?_of_find? h
  rw [frame_of_size_le (not_lt.mp hf)] at hbinds
  cases hbinds

/-- Where a name is bound already, a new value for it changes no search. -/
lemma find?_define_of_find? (h : s.find? g x = some f) (v : Value) (g' : FrameId) (y : Symbol) :
    (s.define f x v).find? g' y = s.find? g' y := by
  have hbinds (h' : FrameId) : (((s.define f x v).frame h').bindings.get? y).isSome =
      ((s.frame h').bindings.get? y).isSome := by
    rw [Bool.eq_iff_iff, binds_define (lt_of_find? h)]
    refine or_iff_right_of_imp ?_
    rintro ⟨rfl, rfl⟩
    exact isSome_get?_of_find? h
  simp only [find?, scopes_define, hbinds]

lemma map_fst_define_of_find? (h : s.find? g x = some f) (v : Value) (g' : FrameId) :
    ((s.define f x v).frame g').bindings.map Prod.fst =
      (s.frame g').bindings.map Prod.fst := by
  rw [define, frame_defineAll _ (lt_of_find? h)]
  split
  · rename_i heq
    rw [heq]
    exact Bindings.map_fst_put (isSome_get?_of_find? h)
  · rfl

/-- **An assignment is seen where the same binding is found**, and nowhere else. -/
lemma lookup?_define_of_find?_eq (h : s.find? g x = some f) (v : Value) (g' : FrameId) (y : Symbol) :
    (s.define f x v).lookup? g' y =
      if y = x ∧ s.find? g' x = some f then some v else s.lookup? g' y := by
  by_cases hy : y = x
  · subst hy
    have hfind := find?_define_of_find? h v g' y
    cases hold : s.find? g' y with
    | none => simp [lookup?, hfind, hold]
    | some h' =>
      rw [lookup?_define_of_find? (lt_of_find? h) v (hfind.trans hold)]
      by_cases hh' : h' = f <;> simp [hh', lookup?, hold]
  · rw [lookup?_define_of_ne (lt_of_find? h) v g' hy, if_neg fun h => hy h.1]

end Store

/-! ## Reads, definitions and assignments -/

section Scoping

variable {s : Store} {f g : FrameId} {x y : Symbol}

lemma assignName_of_find? (h : s.find? f x = some g) (v : Value) :
    Eval.assignName x v f s = .ok () (s.define g x v) := by
  have hassign : s.assign? f x v = some (s.define g x v) := by simp [Store.assign?, h]
  rw [Eval.assignName, Effect.get_bind, hassign]
  rfl

lemma assignName_of_find?_none (h : s.find? f x = none) (v : Value) :
    Eval.assignName x v f s = .error (.unbound x.name) s := by
  rw [Eval.assignName, Effect.get_bind, Store.assign?_eq_none_iff.mpr h]
  rfl

lemma readName_of_lookup? {v : Value} (h : s.lookup? f x = some v) (mode : Mode) :
    Eval.readName mode x f s = .ok v s := by
  rw [Eval.readName, Effect.get_bind, h]
  rfl

/-- A name that is found is read from the frame in which it is found. -/
lemma exists_readName (h : s.find? f x = some g) :
    ∃ v, (s.frame g).bindings.get? x = some v ∧ s.lookup? f x = some v ∧
      ∀ mode, Eval.readName mode x f s = .ok v s := by
  obtain ⟨v, hv⟩ := Option.isSome_iff_exists.mp (Store.isSome_get?_of_find? h)
  have hlookup : s.lookup? f x = some v := (Store.lookup?_of_find? h).trans hv
  exact ⟨v, hv, hlookup, readName_of_lookup? hlookup⟩

/-- A name that is found nowhere is an error in the strict mode, and else the empty list. -/
lemma readName_of_find?_none (h : s.find? f x = none) (mode : Mode) :
    Eval.readName mode x f s =
      if mode.strict then .error (.unbound x.name) s else .ok .nil s := by
  rw [Eval.readName, Effect.get_bind, Store.lookup?_of_find?_none h]
  split <;> rfl

/-- A strict read fails if and only if the name is found nowhere. -/
lemma readName_strict_iff (traced : Bool) (x : Symbol) (f : FrameId) (s : Store) :
    (∃ e t, Eval.readName ⟨true, traced⟩ x f s = .error e t) ↔ s.find? f x = none := by
  constructor
  · rintro ⟨e, t, herror⟩
    by_contra hfound
    obtain ⟨g, hg⟩ := Option.ne_none_iff_exists'.mp hfound
    obtain ⟨v, -, -, hread⟩ := exists_readName hg
    cases herror.symm.trans (hread _)
  · intro h
    exact ⟨_, _, readName_of_find?_none h ⟨true, traced⟩⟩

/-- **Scoping**, for two frames of a forest.  A search goes outwards to the nearest frame that binds
the name, whatever the value is.  A definition changes no lookup of another name; from the frames to
which it is exposed, the name is found there with the new value, and from the others nothing has
changed.  An assignment goes to the binding that its frame finds: no frame gets or loses a name, the
new value is looked up from the frames that find the same binding, and every other lookup is as
before.  If no binding is found, the assignment fails and changes nothing.  In every store, reading a
name gives what is bound to it in the frame that is found, and that is the value that is looked up.
If no frame is found, a lenient read gives the empty list, and a strict read fails; it fails in no
other case. -/
theorem scoping (hs : s.Forest) (hf : f < s.frames.size) (x : Symbol) (v : Value) :
    (∀ g y, s.Finds y g (s.find? g y)) ∧
    (∀ g y, y ≠ x → (s.define f x v).find? g y = s.find? g y ∧
      (s.define f x v).lookup? g y = s.lookup? g y) ∧
    (∀ g, s.Exposes f x g → (s.define f x v).find? g x = some f ∧
      (s.define f x v).lookup? g x = some v) ∧
    (∀ g, ¬s.Exposes f x g → (s.define f x v).find? g x = s.find? g x ∧
      (s.define f x v).lookup? g x = s.lookup? g x) ∧
    (∀ h, s.find? f x = some h → ∃ t, Eval.assignName x v f s = .ok () t ∧
      (∀ g, (t.frame g).bindings.map Prod.fst = (s.frame g).bindings.map Prod.fst) ∧
      (∀ g, s.find? g x = some h → t.lookup? g x = some v) ∧
      ∀ g y, y ≠ x ∨ s.find? g x ≠ some h → t.lookup? g y = s.lookup? g y) ∧
    (s.find? f x = none → Eval.assignName x v f s = .error (.unbound x.name) s) ∧
    (∀ traced g y, (∃ e t, Eval.readName ⟨true, traced⟩ y g s = .error e t) ↔
      s.find? g y = none) ∧
    (∀ (t : Store) g y h, t.find? g y = some h → ∃ w, (t.frame h).bindings.get? y = some w ∧
      t.lookup? g y = some w ∧ ∀ mode, Eval.readName mode y g t = .ok w t) ∧
    ∀ (t : Store) g y, t.find? g y = none → t.lookup? g y = none ∧ ∀ traced,
      Eval.readName ⟨false, traced⟩ y g t = .ok .nil t ∧
      Eval.readName ⟨true, traced⟩ y g t = .error (.unbound y.name) t := by
  refine ⟨fun g y => (hs.enclosing g).finds y, fun g y hy => ?_, fun g h => ?_, fun g h => ?_,
    fun h hfind => ?_, fun hnone => assignName_of_find?_none hnone v,
    fun traced g y => readName_strict_iff traced y g s, fun t g y h hfind => exists_readName hfind,
    fun t g y hnone => ?_⟩
  · exact ⟨Store.find?_define_of_ne hf v g hy, Store.lookup?_define_of_ne hf v g hy⟩
  · exact hs.lookup?_define_of_exposes hf v h
  · exact hs.lookup?_define_of_not_exposes hf v h
  · refine ⟨s.define h x v, assignName_of_find? hfind v, Store.map_fst_define_of_find? hfind v,
      fun g hg => ?_, fun g y hother => ?_⟩
    · rw [Store.lookup?_define_of_find?_eq hfind v g x, if_pos ⟨rfl, hg⟩]
    · rw [Store.lookup?_define_of_find?_eq hfind v g y, if_neg fun hsame => ?_]
      exact hother.elim (· hsame.1) (· hsame.2)
  · refine ⟨Store.lookup?_of_find?_none hnone, fun traced => ⟨?_, ?_⟩⟩
    · exact readName_of_find?_none hnone ⟨false, traced⟩
    · exact readName_of_find?_none hnone ⟨true, traced⟩

/-- A global frame in which `x` is false, two frames inside it, and a frame inside the first of
these. -/
def branches : Store :=
  { Store.empty with
    frames := #[⟨[(⟨"x"⟩, .bool false)], none⟩, ⟨[], some 0⟩, ⟨[], some 0⟩, ⟨[], some 1⟩] }

/-- A definition of `x` in the first branch is seen from the frame inside it and not from the second
branch, where a strict read still gives false.  An assignment through the second branch is seen there,
and not past the definition.  A lenient read of `y`, which is not bound, gives the empty list. -/
theorem scoping_branches : ∃ s t, s = branches.define 1 ⟨"x"⟩ .nil ∧
    s.find? 3 ⟨"x"⟩ = some 1 ∧ s.lookup? 3 ⟨"x"⟩ = some .nil ∧
    s.find? 2 ⟨"x"⟩ = some 0 ∧ s.lookup? 2 ⟨"x"⟩ = some (.bool false) ∧
    Eval.assignName ⟨"x"⟩ (.number 5) 2 s = .ok () t ∧
    t.lookup? 2 ⟨"x"⟩ = some (.number 5) ∧ t.lookup? 3 ⟨"x"⟩ = some .nil ∧
    Eval.readName ⟨true, false⟩ ⟨"x"⟩ 2 s = .ok (.bool false) s ∧
    Eval.readName ⟨false, false⟩ ⟨"y"⟩ 3 s = .ok .nil s := by
  have hforest : branches.Forest := by
    intro f g h
    rcases Nat.lt_or_ge f 4 with hf | hf
    · have houter : ∀ f < 4, ∀ g ∈ (branches.frame f).outer, g < f := by decide
      exact houter f hf g h
    · rw [Store.frame_of_size_le hf] at h
      cases h
  set s := branches.define 1 ⟨"x"⟩ .nil
  have hforest' : s.Forest := fun f g h => hforest f g (Store.outer_define branches 1 _ _ f ▸ h)
  obtain ⟨-, -, hexposed, hhidden, -⟩ := scoping hforest (f := 1) (by decide) ⟨"x"⟩ .nil
  have hinner : branches.Exposes 1 ⟨"x"⟩ 3 :=
    hforest.exposes_iff.mpr ⟨[3], [0], by decide +kernel, by decide⟩
  have houter : ¬branches.Exposes 1 ⟨"x"⟩ 2 := by
    rw [hforest.exposes_iff]
    rintro ⟨near, far, hscopes, -⟩
    have hmem : 1 ∈ branches.scopes 2 := by simp [hscopes]
    exact absurd hmem (by decide +kernel)
  obtain ⟨hfind₃, hlookup₃⟩ := hexposed 3 hinner
  obtain ⟨hfind₂, hlookup₂⟩ := hhidden 2 houter
  have hfind : s.find? 2 ⟨"x"⟩ = some 0 := hfind₂.trans (by decide +kernel)
  have hfalse : s.lookup? 2 ⟨"x"⟩ = some (.bool false) := hlookup₂.trans (by decide +kernel)
  obtain ⟨-, -, -, -, hassign, -, -, hbound, hunbound⟩ :=
    scoping hforest' (f := 2) (by decide) ⟨"x"⟩ (.number 5)
  obtain ⟨t, ht, -, hnew, hold⟩ := hassign 0 hfind
  obtain ⟨w, -, hw, hread⟩ := hbound s 2 ⟨"x"⟩ 0 hfind
  obtain ⟨-, hread'⟩ := hunbound s 3 ⟨"y"⟩ (by decide +kernel)
  cases hw.symm.trans hfalse
  refine ⟨s, t, rfl, hfind₃, hlookup₃, hfind, hfalse, ht, hnew 2 hfind, ?_, hread _,
    (hread' false).1⟩
  rw [hold 3 ⟨"x"⟩ (.inr (by rw [hfind₃]; decide)), hlookup₃]

end Scoping

end SmallScheme
