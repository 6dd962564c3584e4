import SmallScheme.Proofs.Actions
import SmallScheme.Proofs.Nesting

/-!
# Sound stores

At every moment of a session the store is sound (`Interpreter.Sound`): every frame is enclosed by
finitely many frames, of which the outermost one is the global frame, every closure has a body and a
frame, whatever is mentioned in the store exists, and the names of the library are bound.  So looking
for a name ends, and a closure that is applied has something to evaluate (`moment_sound`).
-/

namespace SmallScheme

/-! ## Applications of closures -/

namespace Eval

variable {mode : Mode} {limit : Nat} {ev : Evaluator} {args : List Value} {k : ClosureId}
  {s s' : Store}

/-- A sequence of expressions fails like one of them. -/
lemma exists_of_sequence_eq_error {env : FrameId} {forms : List Value} {e : Error}
    (hne : forms ≠ []) (h : sequence ev env forms s = .error e s') :
    ∃ form ∈ forms, ∃ t, ev form env t = .error e s' := by
  induction forms generalizing s with
  | nil => exact absurd rfl hne
  | cons form forms ih =>
    cases forms with
    | nil => exact ⟨form, by simp, s, h⟩
    | cons form' forms =>
      cases hfirst : ev form env s with
      | error e' s₁ =>
        have hbind : sequence ev env (form :: form' :: forms) s = .error e' s₁ :=
          Effect.bind_error (Effect.bind_error hfirst)
        cases hbind.symm.trans h
        exact ⟨form, by simp, s, hfirst⟩
      | ok v s₁ =>
        have hdiscard : (discard (ev form env) : Effect Unit) s = .ok () s₁ :=
          Effect.bind_ok hfirst
        have hbind : sequence ev env (form :: form' :: forms) s =
            sequence ev env (form' :: forms) s₁ := Effect.bind_ok hdiscard
        obtain ⟨found, hmem, t, ht⟩ := ih (List.cons_ne_nil _ _) (hbind.symm.trans h)
        exact ⟨found, List.mem_cons_of_mem _ hmem, t, ht⟩

/-- If a closure with a body is applied and a form turns out to be malformed, it is one that is
evaluated for the body. -/
lemma exists_of_apply_closure {fault : FormFault} (hbody : (s.closure k).body ≠ [])
    (h : apply mode limit ev (.closure k) args s = .error (.ofForm fault) s') :
    ∃ form ∈ (s.closure k).body, ∃ env t, ev form env t = .error (.ofForm fault) s' := by
  unfold apply at h
  rcases mode.reportApply_outcome limit (.closure k) args s with
    ⟨events, hreport⟩ | ⟨e, he, hreport⟩
  · rw [Effect.bind_ok hreport] at h
    have henter : (enter (s.closure k) args >>= fun env => sequence ev env (s.closure k).body)
        { s with events := events } = .error (.ofForm fault) s' := h
    cases hmissing : (s.closure k).params[args.length]? with
    | some missing =>
      rw [enter, hmissing] at henter
      cases henter
    | none =>
      rw [enter, hmissing] at henter
      obtain ⟨form, hmem, t, ht⟩ := exists_of_sequence_eq_error hbody henter
      exact ⟨form, hmem, _, t, ht⟩
  · rw [Effect.bind_error hreport] at h
    cases h
    exact he.elim

end Eval

/-! ## Sessions -/

namespace Bindings

lemma isSome_get?_putAll {x : Symbol} {new bs : Bindings}
    (h : x ∈ new.map Prod.fst ∨ (bs.get? x).isSome) : ((putAll new bs).get? x).isSome := by
  induction new generalizing bs with
  | nil =>
    rcases h with h | h
    · cases h
    · exact h
  | cons b new ih =>
    refine ih ?_
    rw [get?_put]
    by_cases hx : b.1 = x
    · exact .inr (by rw [if_pos hx]; rfl)
    · rw [if_neg hx]
      rcases h with h | h
      · rcases List.mem_cons.mp h with heq | h
        · exact absurd heq.symm hx
        · exact .inl h
      · exact .inr h

end Bindings

namespace Interpreter

variable {i : Interpreter} {library : Library} {mode : Mode} {announced : Bool} {limit : Nat}
  {s t : Store}

/-- The store of an interpreter is sound: frames are enclosed by finitely many frames up to the
global one, closures have bodies and frames (their parameters are symbols anyway), whatever is
mentioned exists, and the names of the library are bound. -/
structure Sound (i : Interpreter) (library : Library) (s : Store) : Prop where
  enclosing : ∀ f < s.frames.size, s.Enclosing f (s.scopes f) ∧ (s.scopes f).Nodup ∧
    (s.scopes f).getLast? = some i.globals
  closure : ∀ k < s.closures.size,
    (s.closure k).body ≠ [] ∧ (s.closure k).env < s.frames.size
  wellFormed : s.WellFormed
  bound : ∀ name ∈ library.keys, ((s.frame i.globals).bindings.get? ⟨name⟩).isSome

/-- The only node of a new interpreter is the global frame, in which the library is bound. -/
lemma eq_of_new (h : Interpreter.new library mode announced limit .empty = .ok i s) :
    i.globals = 0 ∧ s.extent = ⟨0, 1, 0⟩ ∧
      s.frame 0 = ⟨Bindings.putAll (library.entries.map fun entry =>
        (⟨entry.1⟩, .builtin ⟨entry.1, entry.2, 0⟩)) [], none⟩ := by
  have hframe : (modifyGet fun s : Store => s.addFrame [] none : Effect FrameId) .empty =
      .ok 0 (Store.addFrame [] none .empty).2 := rfl
  rw [Interpreter.new, Effect.bind_ok hframe] at h
  by_cases hempty : library.keys.any String.isEmpty
  · have hinstall : library.install 0 (Store.addFrame [] none .empty).2 =
        .error .emptyName (Store.addFrame [] none .empty).2 := by
      unfold Library.install
      rw [if_pos hempty]
      rfl
    rw [Effect.bind_error hinstall] at h
    cases h
  · unfold Library.install at h
    rw [if_neg hempty] at h
    cases h
    exact ⟨rfl, rfl, rfl⟩

/-- In the global frame of a new interpreter are native procedures, and no nodes. -/
lemma wellFormed_of_new (h : Interpreter.new library mode announced limit .empty = .ok i s) :
    s.WellFormed := by
  obtain ⟨-, hextent, hframe⟩ := eq_of_new h
  intro m n hm hlead
  rw [hextent] at hm
  cases m with
  | cell c => exact absurd hm (Nat.not_lt_zero c)
  | closure k => exact absurd hm (Nat.not_lt_zero k)
  | frame f =>
    obtain rfl : f = 0 := Nat.lt_one_iff.mp hm
    cases hlead with
    | binding hb hn =>
      rw [hframe] at hb
      rcases Bindings.mem_putAll hb with hb | ⟨b, hb, heq⟩
      · cases hb
      · obtain ⟨entry, -, rfl⟩ := List.mem_map.mp hb
        rw [heq] at hn
        cases hn
    | outer hg =>
      rw [hframe] at hg
      cases hg

lemma nested_of_new (h : Interpreter.new library mode announced limit .empty = .ok i s) :
    s.Nested i.globals := by
  obtain ⟨hglobals, hextent, hframe⟩ := eq_of_new h
  have hframes : s.frames.size = 1 := congrArg Extent.frames hextent
  have hclosures : s.closures.size = 0 := congrArg Extent.closures hextent
  have hfirst {f : FrameId} (hf : f < s.frames.size) : f = 0 := Nat.lt_one_iff.mp (hframes ▸ hf)
  refine ⟨?_, fun f hf _ => (hfirst hf).trans hglobals.symm, fun f hf g hg => ?_, fun k hk => ?_⟩
  · rw [hglobals, hframes]
    exact Nat.one_pos
  · rw [hfirst hf, hframe] at hg
    cases hg
  · exact absurd (hclosures ▸ hk) (Nat.not_lt_zero k)

lemma bound_of_new (h : Interpreter.new library mode announced limit .empty = .ok i s)
    {name : String} (hname : name ∈ library.keys) :
    ((s.frame i.globals).bindings.get? ⟨name⟩).isSome := by
  obtain ⟨hglobals, -, hframe⟩ := eq_of_new h
  rw [hglobals, hframe]
  refine Bindings.isSome_get?_putAll (.inl ?_)
  obtain ⟨entry, hentry, rfl⟩ := List.mem_map.mp hname
  exact List.mem_map.mpr ⟨_, List.mem_map.mpr ⟨entry, hentry, rfl⟩, rfl⟩

/-- Names that are bound when an interpreter is new stay bound. -/
lemma bound_of_moment {x : Symbol} (hglobals : i.globals < s.frames.size)
    (hx : ((s.frame i.globals).bindings.get? x).isSome) (ht : i.Moment s t) :
    ((t.frame i.globals).bindings.get? x).isSome := by
  obtain ⟨w, hle, hholds⟩ := Discipline.exists_moment
    (D := Store.evolution fun _ => True) (w := s) (fun _ => trivial) (fun _ _ _ _ _ _ => trivial)
    rfl trivial ht
  have hevolves : s.Evolves (fun _ => True) t := by
    rw [show t = w from hholds]
    exact hle
  have hframe : (s.frame i.globals).Evolves (fun _ => True) i.globals (t.frame i.globals) :=
    hevolves.at_node (.frame i.globals) hglobals
  exact hframe.bound x hx

/-- **The store is sound at every moment of a session**, whatever is evaluated or applied and
whether it succeeds or fails.  So looking for a name from a frame ends, and if a form turns out to be
an empty sequence while a closure is applied, it is one that is evaluated for the body and not the
body itself. -/
theorem moment_sound (hnew : Interpreter.new library mode announced limit .empty = .ok i s)
    (ht : i.Moment s t) :
    i.Sound library t ∧
    (∀ f < t.frames.size, ∀ x, t.Finds x f (t.find? f x)) ∧
    ∀ k < t.closures.size, ∀ (mode : Mode) (limit : Nat) (ev : Evaluator) (args : List Value)
      (t' : Store), Eval.apply mode limit ev (.closure k) args t =
        .error (.ofForm .emptySequence) t' →
      ∃ form ∈ (t.closure k).body, ∃ env t₁, ev form env t₁ = .error (.ofForm .emptySequence) t' := by
  have hnested := nested_of_new hnew
  have hstart : (Store.nesting i.globals).Holds s.extent s :=
    ⟨Store.encapsulated_whole_iff.mpr ⟨rfl, wellFormed_of_new hnew⟩, hnested⟩
  have hglobals : (Store.nesting i.globals).Scope s.extent i.globals :=
    ⟨fun _ => trivial, hnested.globals_lt⟩
  -- a value may be used if it exists
  have hgood : ∀ w s v, (Store.nesting i.globals).Holds w s → s.Knows v →
      ∀ r, (Store.nesting i.globals).Good w r v := by
    intro w s v hs hv r n hn
    exact ⟨fun _ => trivial, hs.1.extent_eq ▸ hv n hn⟩
  obtain ⟨w, -, hholds, hnested'⟩ :=
    Discipline.exists_moment (fun _ => trivial) hgood hstart hglobals ht
  have hwf := (Store.encapsulated_whole_iff.mp hholds).2
  refine ⟨⟨fun f hf => ?_, fun k hk => ?_, hwf, fun name hname => ?_⟩, fun f hf x => ?_,
    fun k hk mode limit ev args t' => ?_⟩
  · obtain ⟨hchain, hlast⟩ := hnested'.enclosing hf
    exact ⟨hchain, t.nodup_scopes f, hlast⟩
  · exact ⟨hnested'.body_ne_nil k hk, hwf (.closure k) _ hk (.env k)⟩
  · exact bound_of_moment hnested.globals_lt (bound_of_new hnew hname) ht
  · exact (hnested'.enclosing hf).1.finds x
  · exact Eval.exists_of_apply_closure (hnested'.body_ne_nil k hk)

/-- A procedure is defined that gives the first part of its argument. -/
def defining : Action := .request (.run "(define (f n) (car n))".toList)

/-- It is applied to a number. -/
def misapplying : Action := .apply (.closure 0) [.number 5]

/-- The application fails, and leaves a frame for its argument that the global frame encloses. -/
theorem moment_sound_misapplying : ∃ t,
    Interpreter.new (.standard .standard) .plain false 30 .empty = .ok small smallStart ∧
    small.Moment smallStart t ∧ (t.frame 1).bindings = [(⟨"n"⟩, .number 5)] ∧
    t.Enclosing 1 (t.scopes 1) ∧ (t.scopes 1).getLast? = some 0 ∧ t.Finds ⟨"car"⟩ 1 (some 0) := by
  have hnew : Interpreter.new (.standard .standard) .plain false 30 .empty =
      .ok small smallStart := rfl
  have hdefined : small.Reached smallStart (small.perform smallStart defining) :=
    .action .start (List.forall_mem_nil _)
  have hknows : ∀ v ∈ misapplying.values, (small.perform smallStart defining).Knows v := by
    intro v hv n hn
    rcases List.mem_pair.mp hv with rfl | rfl
    · cases hn
      decide +kernel
    · cases hn
  have ht : small.Moment smallStart
      (small.perform (small.perform smallStart defining) misapplying) :=
    .reached (.action hdefined hknows)
  obtain ⟨hsound, hfinds, -⟩ := moment_sound hnew ht
  have hlt : 1 < (small.perform (small.perform smallStart defining) misapplying).frames.size := by
    decide +kernel
  obtain ⟨hchain, -, hlast⟩ := hsound.enclosing 1 hlt
  refine ⟨_, hnew, ht, by decide +kernel, hchain, hlast, ?_⟩
  have hfind : (small.perform (small.perform smallStart defining) misapplying).find? 1 ⟨"car"⟩ =
      some 0 := by
    decide +kernel
  rw [← hfind]
  exact hfinds 1 hlt ⟨"car"⟩

end Interpreter

end SmallScheme
