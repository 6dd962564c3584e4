import SmallScheme.Proofs.Calls

/-!
# Encapsulation

An evaluation only touches what it can reach: the nodes of the store that are reachable from its
expression and from its frame, and those that it adds.  Everything else stays as it is, whether the
evaluation ends in a value or in an error, and nothing else can be reached from the value or from
the frame afterwards.

This is a discipline (`Store.encapsulation`).  Its worlds are the extents of stores; a node may be
used if it was reachable at the start or was not there yet (`Allowed`), and the nodes that may be
used mention only such nodes (`Encloses`).
-/

namespace SmallScheme

namespace Store

/-- The node can be reached from one of the roots. -/
def ReachableFrom (s : Store) (roots : Node → Prop) (n : Node) : Prop :=
  ∃ root, roots root ∧ Relation.ReflTransGen s.Leads root n

/-- The nodes that an evaluation starts from: those of its expression and its frame. -/
def startRoots (expr : Value) (env : FrameId) (n : Node) : Prop :=
  expr.node? = some n ∨ n = .frame env

/-- The nodes that are left after an evaluation: those of its value, if it has one, and its
frame. -/
def endRoots (env : FrameId) : EStateM.Result Error Store Value → Node → Prop
  | .ok v _, n => v.node? = some n ∨ n = .frame env
  | .error _ _, n => n = .frame env

section Encapsulation

variable {s₀ : Store} {A : Node → Prop}

/-- The node was one of the given ones at the start, or was not there at all. -/
def Allowed (s₀ : Store) (A : Node → Prop) (n : Node) : Prop :=
  s₀.extent.Has n → A n

/-- The node may be used, and is there. -/
def Usable (s₀ : Store) (A : Node → Prop) (w : Extent) (n : Node) : Prop :=
  s₀.Allowed A n ∧ w.Has n

/-- The value is no node, or one that may be used. -/
def UsableValue (s₀ : Store) (A : Node → Prop) (w : Extent) (v : Value) : Prop :=
  ∀ n, v.node? = some n → s₀.Usable A w n

/-- Nodes that may be used mention only such nodes, and all others are as they were at the
start. -/
structure Encapsulated (s₀ : Store) (A : Node → Prop) (w : Extent) (s : Store) : Prop where
  extent_eq : s.extent = w
  le : s₀.extent.Le w
  usable_of_leads : ∀ m n, s₀.Usable A w m → s.Leads m n → s₀.Usable A w n
  same : ∀ n, s₀.extent.Has n → ¬A n → s₀.SameAt s n

variable {w w' : Extent} {s s' : Store} {n : Node} {v : Value}

lemma Usable.mono (h : s₀.Usable A w n) (hle : w.Le w') : s₀.Usable A w' n :=
  ⟨h.1, h.2.mono hle⟩

lemma UsableValue.mono (h : s₀.UsableValue A w v) (hle : w.Le w') : s₀.UsableValue A w' v :=
  fun n hn => (h n hn).mono hle

lemma Encapsulated.has (hs : s₀.Encapsulated A w s) (h : s₀.Usable A w n) : s.extent.Has n :=
  hs.extent_eq ▸ h.2

/-- A step that touches one allowed node keeps the encapsulation, if that node mentions only nodes
that may be used. -/
lemma Encapsulated.touch {touched : Node} (hs : s₀.Encapsulated A w s)
    (hexcept : s.SameExcept s' touched) (htouched : s₀.Allowed A touched)
    (hleads : ∀ n, s'.Leads touched n → s₀.Usable A w n) :
    w.Le s'.extent ∧ s₀.Encapsulated A s'.extent s' := by
  have hle : w.Le s'.extent := hs.extent_eq ▸ hexcept.le
  refine ⟨hle, rfl, hs.le.trans hle, fun m n hm hlead => ?_, fun n hn hA => ?_⟩
  · -- any other node mentions what it has mentioned before
    by_cases hmt : m = touched
    · subst hmt
      exact (hleads n hlead).mono hle
    · have hm' : s₀.Usable A w m := ⟨hm.1, hs.extent_eq ▸ hexcept.has m hmt hm.2⟩
      exact (hs.usable_of_leads m n hm' ((hexcept.same m hmt).leads hlead)).mono hle
  · have hne : n ≠ touched := by
      rintro rfl
      exact hA (htouched hn)
    exact (hs.same n hn hA).trans (hexcept.same n hne)

/-- A step that changes no node keeps the encapsulation. -/
lemma Encapsulated.of_same (hs : s₀.Encapsulated A w s) (hextent : s'.extent = s.extent)
    (hsame : ∀ n, s.SameAt s' n) : s₀.Encapsulated A w s' := by
  refine ⟨hextent.trans hs.extent_eq, hs.le, fun m n hm hlead => ?_, fun n hn hA => ?_⟩
  · exact hs.usable_of_leads m n hm ((hsame m).leads hlead)
  · exact (hs.same n hn hA).trans (hsame n)

/-- A node that was not there at the start may be used. -/
lemma Encapsulated.allowed_of_not_has (hs : s₀.Encapsulated A w s) (h : ¬s.extent.Has n) :
    s₀.Allowed A n :=
  fun hn => absurd (hn.mono hs.le) (hs.extent_eq ▸ h)

/-- What is kept by evaluations that start in `s₀` from the nodes `A`. -/
def encapsulation (s₀ : Store) (A : Node → Prop) : Discipline where
  World := Extent
  le := Extent.Le
  Holds := s₀.Encapsulated A
  Good w _ v := s₀.UsableValue A w v
  Scope w f := s₀.Usable A w (.frame f)
  Fails _ := True
  Permits _ := True
  le_refl := .refl
  le_trans := .trans
  good_mono hle h := h.mono hle
  scope_mono hle h := h.mono hle
  good_atom := by
    intro w r a n hn
    cases hn
  good_foreign := by
    intro w v id n hn
    cases hn
  fails_ordinary _ := trivial
  fails_host _ _ := trivial
  good_refine _ h := h
  good_car hs h _ := fun n hn => hs.usable_of_leads _ n (h _ rfl) (.car hn)
  good_cdr hs h _ := fun n hn => hs.usable_of_leads _ n (h _ rfl) (.cdr hn)
  good_binding hs h hb := fun n hn => hs.usable_of_leads _ n h (.binding hb hn)
  scope_outer hs h hg := hs.usable_of_leads _ _ h (.outer hg)
  scope_env hs h := hs.usable_of_leads _ _ (h _ rfl) (.env _)
  good_body hs h hform := fun n hn => hs.usable_of_leads _ n (h _ rfl) (.body hform hn)
  cons := by
    intro w s r car cdr hs hcar hcdr
    have hnew : s₀.Allowed A (.cell s.cells.size) := hs.allowed_of_not_has (lt_irrefl _)
    have hs' := hs.touch (sameExcept_cons s car cdr) hnew fun n hlead =>
      (leads_cons hlead).elim (hcar n) (hcdr n)
    refine ⟨_, hs'.1, hs'.2, ?_⟩
    rintro n ⟨⟩
    exact ⟨hnew, by simp [Extent.Has, extent, Store.cons]⟩
  addFrame := by
    intro w s f bindings hs hf hbindings
    have hnew : s₀.Allowed A (.frame s.frames.size) := hs.allowed_of_not_has (lt_irrefl _)
    have hs' := hs.touch (sameExcept_addFrame s bindings (some f)) hnew fun n hlead => by
      rcases leads_addFrame hlead with ⟨b, hb, hn⟩ | ⟨g, hg, rfl⟩
      · exact hbindings b hb n hn
      · cases hg
        exact hf
    exact ⟨_, hs'.1, hs'.2, hnew, by simp [Extent.Has, extent, Store.addFrame]⟩
  addClosure := by
    intro w s closure hs henv hbody _ _
    have hnew : s₀.Allowed A (.closure s.closures.size) := hs.allowed_of_not_has (lt_irrefl _)
    have hs' := hs.touch (sameExcept_addClosure s closure) hnew fun n hlead => by
      rcases leads_addClosure hlead with rfl | ⟨form, hform, hn⟩
      · exact henv
      · exact hbody form hform n hn
    refine ⟨_, hs'.1, hs'.2, ?_⟩
    rintro n ⟨⟩
    exact ⟨hnew, by simp [Extent.Has, extent, Store.addClosure]⟩
  addForeign := by
    intro w s v hs
    refine ⟨w, .refl w, ?_⟩
    unfold Store.addForeign
    split
    · exact hs
    · exact hs.of_same rfl fun n => by cases n <;> rfl
  setCar := by
    intro w s c v hs hc hv _
    have hcell := hc _ rfl
    have hs' := hs.touch (sameExcept_setCar s c v) hcell.1 fun n hlead =>
      (leads_setCar (hs.has hcell) hlead).elim (hv n) (hs.usable_of_leads _ n hcell)
    exact ⟨_, hs'.1, hs'.2⟩
  setCdr := by
    intro w s c v hs hc hv _
    have hcell := hc _ rfl
    have hs' := hs.touch (sameExcept_setCdr s c v) hcell.1 fun n hlead =>
      (leads_setCdr (hs.has hcell) hlead).elim (hv n) (hs.usable_of_leads _ n hcell)
    exact ⟨_, hs'.1, hs'.2⟩
  define := by
    intro w s f x v hs hf hv _
    have hs' := hs.touch (sameExcept_define s f x v) hf.1 fun n hlead =>
      (leads_define (hs.has hf) hlead).elim (hv n) (hs.usable_of_leads _ n hf)
    exact ⟨_, hs'.1, hs'.2⟩
  nameClosure := by
    intro w s k x hs hk _
    have hclosure := hk _ rfl
    have hs' := hs.touch (sameExcept_nameClosure s k x) hclosure.1 fun n hlead =>
      hs.usable_of_leads _ n hclosure (leads_nameClosure hlead)
    exact ⟨_, hs'.1, hs'.2⟩
  print hs := ⟨_, .refl _, hs.of_same rfl fun n => by cases n <;> rfl⟩
  report hs := ⟨_, .refl _, hs.of_same rfl fun n => by cases n <;> rfl⟩

/-- At the start of an evaluation the invariant holds, for the nodes that can be reached. -/
lemma encapsulated_start {roots : Node → Prop} (hwf : s.WellFormed) :
    s.Encapsulated (s.ReachableFrom roots) s.extent s := by
  refine ⟨rfl, .refl _, fun m n hm hlead => ?_, fun n _ _ => .refl s n⟩
  have hn := hwf m n hm.2 hlead
  obtain ⟨root, hroot, hpath⟩ := hm.1 hm.2
  exact ⟨fun _ => ⟨root, hroot, hpath.tail hlead⟩, hn⟩

/-- Whatever can be reached from nodes that may be used may be used. -/
lemma Encapsulated.usable_of_reachableFrom {roots : Node → Prop} (hs : s₀.Encapsulated A w s)
    (hroots : ∀ n, roots n → s₀.Usable A w n) (h : s.ReachableFrom roots n) :
    s₀.Usable A w n := by
  obtain ⟨root, hroot, hpath⟩ := h
  induction hpath with
  | refl => exact hroots root hroot
  | tail _ hlead ih => exact hs.usable_of_leads _ _ ih hlead

end Encapsulation

/-- **Encapsulation.**  An evaluation changes no node that cannot be reached from its expression or
its frame, and whatever can be reached from its value or its frame afterwards could be reached
before or was added by the evaluation. -/
theorem eval_encapsulated {s : Store} {expr : Value} {env : FrameId} (mode : Mode) (limit : Nat)
    (hwf : s.WellFormed) (hexpr : ∀ n, expr.node? = some n → s.extent.Has n)
    (henv : s.extent.Has (.frame env)) :
    (∀ n, s.extent.Has n → ¬s.ReachableFrom (startRoots expr env) n →
      s.SameAt (Effect.final (eval mode limit expr env s)) n) ∧
    ∀ n, (Effect.final (eval mode limit expr env s)).ReachableFrom
        (endRoots env (eval mode limit expr env s)) n →
      s.ReachableFrom (startRoots expr env) n ∨
        ¬s.extent.Has n ∧ (Effect.final (eval mode limit expr env s)).extent.Has n := by
  set A := s.ReachableFrom (startRoots expr env)
  have usable_root {n : Node} (hroot : startRoots expr env n) (hn : s.extent.Has n) :
      s.Usable A s.extent n := ⟨fun _ => ⟨n, hroot, .refl⟩, hn⟩
  have hframe : s.Usable A s.extent (.frame env) := usable_root (.inr rfl) henv
  have heval := Discipline.ensures_eval (D := s.encapsulation A) (fun _ => trivial) mode
    limit (fun n hn => usable_root (.inl hn) (hexpr n hn)) hframe
  obtain ⟨w', hle, hout⟩ := heval s (encapsulated_start hwf)
  -- in either case the end is encapsulated, and its roots may be used
  have hend : s.Encapsulated A w' (Effect.final (eval mode limit expr env s)) ∧
      ∀ n, endRoots env (eval mode limit expr env s) n → s.Usable A w' n := by
    cases hr : eval mode limit expr env s with
    | ok v s' =>
      rw [hr] at hout
      refine ⟨hout.1, fun n hn => ?_⟩
      rcases hn with hn | rfl
      · exact hout.2 n hn
      · exact hframe.mono hle
    | error e s' =>
      rw [hr] at hout
      refine ⟨hout.1, ?_⟩
      rintro n rfl
      exact hframe.mono hle
  refine ⟨hend.1.same, fun n hn => ?_⟩
  have husable := hend.1.usable_of_reachableFrom hend.2 hn
  by_cases hold : s.extent.Has n
  · exact .inl (husable.1 hold)
  · exact .inr ⟨hold, hend.1.has husable⟩

/-- A store with two frames and the expression `(define x 6)`. -/
def twoFrames : Store :=
  { Store.empty with
    cells := #[⟨.number 6, .nil⟩, ⟨.symbol ⟨"x"⟩, .pair 0⟩, ⟨.symbol ⟨"define"⟩, .pair 1⟩]
    frames := #[⟨[], none⟩, ⟨[], some 0⟩] }

lemma wellFormed_twoFrames : twoFrames.WellFormed := by
  rintro m n hm hlead
  cases hlead with
  | @car c _ hn | @cdr c _ hn =>
    have hc : c < 3 := hm
    interval_cases c <;> cases hn <;> decide
  | @binding f b _ hb _ =>
    have hf : f < 2 := hm
    interval_cases f <;> cases hb
  | @outer f g hg =>
    have hf : f < 2 := hm
    interval_cases f <;> cases hg
    decide
  | env k => exact absurd hm (Nat.not_lt_zero k)
  | @body k => exact absurd hm (Nat.not_lt_zero k)

lemma not_leads_inner (m : Node) : ¬twoFrames.Leads m (.frame 1) := by
  intro hlead
  cases hlead with
  | car h | cdr h | binding _ h | body _ h => exact Value.node?_ne_frame _ _ h
  | @outer f _ hg =>
    match f, hg with
    | 0, hg => cases hg
    | 1, hg => cases hg
    | _ + 2, hg => cases hg

/-- A definition in the outer frame binds a name there, and does not touch the inner frame. -/
theorem eval_encapsulated_twoFrames : twoFrames.WellFormed ∧
    (Effect.final (eval .plain 5 (.pair 2) 0 twoFrames)).frame 0 = ⟨[(⟨"x"⟩, .number 6)], none⟩ ∧
    twoFrames.SameAt (Effect.final (eval .plain 5 (.pair 2) 0 twoFrames)) (.frame 1) := by
  refine ⟨wellFormed_twoFrames, by decide +kernel, ?_⟩
  have hexpr : ∀ n, (Value.pair 2).node? = some n → twoFrames.extent.Has n := by
    rintro n ⟨⟩
    decide
  refine (eval_encapsulated .plain 5 wellFormed_twoFrames hexpr (by decide)).1 _ (by decide) ?_
  rintro ⟨root, hroot, hpath⟩
  rcases hpath.cases_tail with heq | ⟨m, -, hlead⟩
  · rcases hroot with hroot | hroot
    · exact Value.node?_ne_frame _ _ (heq ▸ hroot)
    · simp [hroot] at heq
  · exact not_leads_inner m hlead

end Store

end SmallScheme
