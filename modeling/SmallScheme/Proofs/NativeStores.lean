import SmallScheme.Proofs.Actions

/-!
# Native stores

A store is native if no procedure of an embedding program is in it (`Store.Native`).  The store of
an interpreter that is new with a native library is native, and it stays native as long as only
native values are given to the interpreter (`Interpreter.NativelyReached`).  This is a discipline
(`Store.nativity`) in which nothing but ordinary errors arise.

The main results are `Interpreter.native_of_reached` and `Interpreter.ordinary_of_eval`; by
`Builtin.report_of_run`, there is nothing to report anew when a native procedure fails.
-/

namespace SmallScheme

/-- Whether a primitive is a procedure of an embedding program. -/
def Primitive.isForeign : Primitive → Bool
  | .foreign _ => true
  | _ => false

/-- Any value but a procedure of an embedding program. -/
def Value.IsNative : Value → Prop
  | .builtin b => b.primitive.isForeign = false
  | _ => True

/-- No procedure of an embedding program is registered. -/
def Library.Native (l : Library) : Prop :=
  ∀ entry ∈ l.entries, entry.2.isForeign = false

lemma Library.native_standard (channel : Channel) : (standard channel).Native := by
  unfold Native
  cases channel <;> decide

namespace Store

variable {s s' : Store} {n : Node} {v : Value}

/-- The values in a node are native. -/
def NativeAt (s : Store) : Node → Prop
  | .cell c => (s.cell c).car.IsNative ∧ (s.cell c).cdr.IsNative
  | .frame f => ∀ b ∈ (s.frame f).bindings, b.2.IsNative
  | .closure k => ∀ form ∈ (s.closure k).body, form.IsNative

/-- The values in all nodes are native. -/
def Native (s : Store) : Prop :=
  ∀ n, s.NativeAt n

/-- Where there is no cell, there are native parts. -/
lemma nativeAt_cell_of_not_lt {c : CellId} (hc : ¬c < s.cells.size) : s.NativeAt (.cell c) := by
  have hcell : s.cell c = default := by simp [cell, hc]
  rw [NativeAt, hcell]
  exact ⟨trivial, trivial⟩

lemma native_empty : empty.Native := by
  rintro (c | f | k)
  · exact ⟨trivial, trivial⟩
  · exact List.forall_mem_nil _
  · exact List.forall_mem_nil _

/-! ## Operations -/

lemma SameAt.nativeAt (h : s.SameAt s' n) (hn : s.NativeAt n) : s'.NativeAt n := by
  cases n with
  | cell c => rwa [NativeAt, show s'.cell c = s.cell c from h]
  | frame f => rwa [NativeAt, show s'.frame f = s.frame f from h]
  | closure k => rwa [NativeAt, show s'.closure k = s.closure k from h]

namespace Native

/-- An operation that touches one node. -/
lemma touch {touched : Node} (hs : s.Native) (hexcept : s.SameExcept s' touched)
    (htouched : s'.NativeAt touched) : s'.Native := by
  intro n
  by_cases hn : n = touched
  · rwa [hn]
  · exact (hexcept.same n hn).nativeAt (hs n)

lemma cons {car cdr : Value} (hs : s.Native) (hcar : car.IsNative) (hcdr : cdr.IsNative) :
    (s.cons car cdr).2.Native := by
  refine hs.touch (sameExcept_cons s car cdr) ?_
  rw [NativeAt, cell_cons_self]
  exact ⟨hcar, hcdr⟩

lemma setCar {c : CellId} (hs : s.Native) (hv : v.IsNative) : (s.setCar c v).Native := by
  refine hs.touch (sameExcept_setCar s c v) ?_
  by_cases hc : c < s.cells.size
  · rw [NativeAt, cell_setCar v hc, if_pos rfl]
    exact ⟨hv, (hs (.cell c)).2⟩
  · exact nativeAt_cell_of_not_lt (by simpa [Store.setCar] using hc)

lemma setCdr {c : CellId} (hs : s.Native) (hv : v.IsNative) : (s.setCdr c v).Native := by
  refine hs.touch (sameExcept_setCdr s c v) ?_
  by_cases hc : c < s.cells.size
  · rw [NativeAt, cell_setCdr v hc, if_pos rfl]
    exact ⟨(hs (.cell c)).1, hv⟩
  · exact nativeAt_cell_of_not_lt (by simpa [Store.setCdr] using hc)

lemma addFrame {bindings : Bindings} {outer : Option FrameId} (hs : s.Native)
    (hbindings : ∀ b ∈ bindings, b.2.IsNative) : (s.addFrame bindings outer).2.Native := by
  refine hs.touch (sameExcept_addFrame s bindings outer) fun b hb => ?_
  rw [frame_addFrame_self] at hb
  rcases Bindings.mem_putAll hb with hb | ⟨b', hb', heq⟩
  · cases hb
  · exact heq ▸ hbindings b' hb'

lemma defineAll {f : FrameId} {new : Bindings} (hs : s.Native)
    (hnew : ∀ b ∈ new, b.2.IsNative) : (s.defineAll f new).Native := by
  intro n
  cases n with
  | cell c => exact hs (.cell c)
  | closure k => exact hs (.closure k)
  | frame g =>
    intro b hb
    rcases mem_bindings_defineAll hb with hb | ⟨b', hb', heq⟩
    · exact hs (.frame g) b hb
    · exact heq ▸ hnew b' hb'

lemma addClosure {closure : Closure} (hs : s.Native)
    (hbody : ∀ form ∈ closure.body, form.IsNative) : (s.addClosure closure).2.Native := by
  refine hs.touch (sameExcept_addClosure s closure) fun form hform => hbody form ?_
  rwa [closure_addClosure_self] at hform

lemma nameClosure {k : ClosureId} {x : Symbol} (hs : s.Native) : (s.nameClosure k x).Native := by
  refine hs.touch (sameExcept_nameClosure s k x) fun form hform => hs (.closure k) form ?_
  rwa [(closure_nameClosure k x s k).2] at hform

end Native

/-- Native values are kept. -/
def nativity : Discipline where
  World := Unit
  le _ _ := True
  Holds _ s := s.Native
  Good _ _ v := v.IsNative
  Scope _ _ := True
  Fails := Error.Ordinary
  Permits _ := True
  le_refl _ := trivial
  le_trans _ _ := trivial
  good_mono _ h := h
  scope_mono _ _ := trivial
  good_atom _ _ _ := trivial
  good_foreign _ _ _ := trivial
  fails_ordinary h := h
  fails_host hb hforeign := by
    rw [Value.IsNative, hforeign] at hb
    cases hb
  good_refine _ h := h
  good_car {_ _ _ c} hs _ _ := (hs (.cell c)).1
  good_cdr {_ _ _ c} hs _ _ := (hs (.cell c)).2
  good_binding {_ _ f b} hs _ hb := hs (.frame f) b hb
  scope_outer _ _ _ := trivial
  scope_env _ _ := trivial
  good_body {_ _ k form} hs _ hform := hs (.closure k) form hform
  cons hs hcar hcdr := ⟨(), trivial, hs.cons hcar hcdr, trivial⟩
  addFrame hs _ hbindings := ⟨(), trivial, hs.addFrame hbindings, trivial⟩
  addClosure hs _ hbody _ _ := ⟨(), trivial, hs.addClosure hbody, trivial⟩
  addForeign := by
    intro _ s v hs
    refine ⟨(), trivial, ?_⟩
    unfold Store.addForeign
    split <;> exact hs
  setCar hs _ hv _ := ⟨(), trivial, hs.setCar hv⟩
  setCdr hs _ hv _ := ⟨(), trivial, hs.setCdr hv⟩
  define hs _ hv _ := ⟨(), trivial, hs.defineAll (by simpa using hv)⟩
  nameClosure hs _ _ := ⟨(), trivial, hs.nameClosure⟩
  print hs := ⟨(), trivial, hs⟩
  report hs := ⟨(), trivial, hs⟩

end Store

/-! ## Native procedures -/

section Primitives

variable {p : Primitive} {limit : Nat} {args : List Value} {s t : Store} {e : Error}

lemma Primitive.ordinary_of_run (hp : p.isForeign = false) (hargs : ∀ v ∈ args, v.IsNative)
    (hs : s.Native) (h : p.run limit args s = .error e t) : e.Ordinary := by
  have hfails (fault message) (hforeign : p = .foreign (.fails fault message)) :
      Store.nativity.Fails (.host fault message) := by
    rw [hforeign] at hp
    cases hp
  have hstart : Store.nativity.Ensures () (p.start limit args) Store.nativity.IsData :=
    Discipline.ensures_start hargs (fun _ _ => trivial) hfails
  unfold Primitive.run at h
  split at h
  · cases h
    trivial
  · obtain ⟨_, _, hout⟩ := hstart s hs
    rw [h] at hout
    exact hout.2

/-- **There is nothing to report anew** when a native procedure fails. -/
theorem Builtin.report_of_run {b : Builtin} (hb : (Value.builtin b).IsNative)
    (hargs : ∀ v ∈ args, v.IsNative) (hs : s.Native)
    (h : b.primitive.run limit args s = .error e t) : b.report e = e :=
  report_of_ordinary (Primitive.ordinary_of_run hb hargs hs h)

end Primitives

/-! ## Interpreters -/

namespace Interpreter

variable {i : Interpreter} {library : Library} {mode : Mode} {announced : Bool} {limit : Nat}
  {s t : Store}

/-- The stores that a session leads to in which only native values are given to the interpreter. -/
inductive NativelyReached (i : Interpreter) (s : Store) : Store → Prop
  | start : NativelyReached i s s
  | action {t : Store} {action : Action} : NativelyReached i s t →
      (∀ v ∈ action.values, v.IsNative) → NativelyReached i s (i.perform t action)

lemma native_of_install {f : FrameId} (hlibrary : library.Native) (hs : s.Native)
    (h : library.install f s = .ok () t) : t.Native := by
  unfold Library.install at h
  split at h
  · cases h
  · cases h
    refine hs.defineAll fun b hb => ?_
    obtain ⟨entry, hentry, rfl⟩ := List.mem_map.mp hb
    exact hlibrary entry hentry

/-- The store of a new interpreter is native. -/
lemma native_of_new (hlibrary : library.Native) (hs : s.Native)
    (h : Interpreter.new library mode announced limit s = .ok i t) : t.Native := by
  have hframe : (modifyGet fun s : Store => s.addFrame [] none : Effect FrameId) s =
      .ok s.frames.size (s.addFrame [] none).2 := rfl
  rw [Interpreter.new, Effect.bind_ok hframe] at h
  cases hinstall : library.install s.frames.size (s.addFrame [] none).2 with
  | error e t' => cases (Effect.bind_error hinstall).symm.trans h
  | ok _ t' =>
    cases (Effect.bind_ok hinstall).symm.trans h
    exact native_of_install hlibrary (hs.addFrame (List.forall_mem_nil _)) hinstall

/-- **Native stores stay native.** -/
theorem native_of_reached (hs : s.Native) (h : i.NativelyReached s t) : t.Native := by
  induction h with
  | start => exact hs
  | action _ hvalues ih =>
    obtain ⟨_, _, ht, _⟩ := Discipline.exists_perform (D := Store.nativity) (w := ())
      (fun _ => trivial) ih trivial fun v hv _ => hvalues v hv
    exact ht

/-- **The evaluation of a text in a native store fails with ordinary errors only.** -/
theorem ordinary_of_eval {text : List Char} {e : Error} (hs : s.Native)
    (h : i.eval text s = .error e t) : e.Ordinary := by
  have hev := Discipline.obeys_eval (D := Store.nativity) (fun _ => trivial) i.mode i.limit
  have heval := Discipline.ensuresBy_evalWith (w := ()) hev (i := i) trivial text
  obtain ⟨_, _, hout, _⟩ := heval s hs fun _ _ => trivial
  have hresult : Store.nativity.Outcome _ _ (i.evalWith i.evaluator text s) := hout
  rw [evalWith_evaluator, h] at hresult
  exact hresult.2

end Interpreter

end SmallScheme
