import SmallScheme.Proofs.Consultation
import SmallScheme.Proofs.PrintingError
import SmallScheme.Proofs.StoreReading

/-!
# Abridgements

Two runs of one program are compared that differ in how it is run: in what counts as an error, in
what is reported or in how deeply it may nest.  The first run abridges the second one if it does the
same, or stops early with one of certain errors; then whatever it has printed is a prefix of what the
second one prints (`RunPair.Abridges`).  Nothing else is promised of the first run after it has
stopped, and that is enough, since no step catches an error: a sequence of steps stops where one of
them does, while the second run only goes on printing.

A `RunPair` says which modes are compared, which errors are stops and which events are forgotten.
Here are the rules for sequences of steps; the rules of the language follow.
-/

namespace SmallScheme

/-- How two runs differ. -/
structure RunPair where
  /-- How the first program is run. -/
  mode : Mode
  /-- How the second program is run. -/
  mode' : Mode
  /-- Which events of the first run the second one is to have as well. -/
  forget : Array Event → Array Event
  /-- The errors with which the first run may stop early. -/
  Stops : Error → Prop
  stops_ordinary : ∀ {e}, Stops e → e.Ordinary
  strict : mode'.strict = mode.strict ∨ mode'.strict = false ∧ ∀ x, Stops (.unbound x)
  traced : (mode'.traced = mode.traced ∧ ∀ es e, forget (es.push e) = (forget es).push e) ∨
    mode'.traced = false ∧ (mode.traced = true →
      (∀ es e, forget (es.push e) = forget es) ∧ ∀ e, e.OfLimit → Stops e)

namespace RunPair

variable {P : RunPair} {α β : Type} {x y : Effect α} {f g : α → Effect β} {s s' t : Store}

/-- The store that the second run is to have. -/
def view (P : RunPair) (s : Store) : Store :=
  { s with events := P.forget s.events }

/-- The result that the second run is to have. -/
def viewResult (P : RunPair) : EStateM.Result Error Store α → EStateM.Result Error Store α
  | .ok a s => .ok a (P.view s)
  | .error e s => .error e (P.view s)

lemma sameNodes_view (P : RunPair) (s : Store) : s.SameNodes (P.view s) :=
  ⟨rfl, rfl, rfl⟩

/-- The first step does the same as the second one or stops early, and the second one takes nothing
back that has been printed. -/
structure Abridges (P : RunPair) (x y : Effect α) : Prop where
  run : ∀ s, y (P.view s) = P.viewResult (x s) ∨
    ∃ e t, x s = .error e t ∧ P.Stops e ∧ (P.view t).Precedes (Effect.final (y (P.view s)))
  forward : ∀ s : Store, s.Precedes (Effect.final (y s))

/-! ## Rules -/

lemma abridges_pure (a : α) : P.Abridges (pure a) (pure a) :=
  ⟨fun _ => .inl rfl, .refl⟩

lemma abridges_throw (e : Error) : P.Abridges (throw e : Effect α) (throw e) :=
  ⟨fun _ => .inl rfl, .refl⟩

/-- What comes next is printed after what has been printed before. -/
lemma precedes_bind (hg : ∀ a (s : Store), s.Precedes (Effect.final (g a s))) (y : Effect α) (s : Store) :
    (Effect.final (y s)).Precedes (Effect.final ((y >>= g) s)) := by
  cases h : y s with
  | ok a t =>
    rw [Effect.bind_ok h]
    exact hg a t
  | error e t =>
    rw [Effect.bind_error h]
    exact .refl t

lemma Abridges.bind (hx : P.Abridges x y) (hf : ∀ a, P.Abridges (f a) (g a)) :
    P.Abridges (x >>= f) (y >>= g) := by
  have hforward (s : Store) := precedes_bind (fun a => (hf a).forward) y s
  refine ⟨fun s => ?_, fun s => (hx.forward s).trans (hforward s)⟩
  rcases hx.run s with heq | ⟨e, t, hstop, he, hle⟩
  · cases h : x s with
    | ok a t =>
      rw [h] at heq
      rw [Effect.bind_ok h, Effect.bind_ok heq]
      exact (hf a).run t
    | error e t =>
      rw [h] at heq
      rw [Effect.bind_error h, Effect.bind_error heq]
      exact .inl rfl
  · -- the first run has stopped, but the second one may go on
    exact .inr ⟨e, t, Effect.bind_error hstop, he, hle.trans (hforward _)⟩

lemma Abridges.discard (hx : P.Abridges x y) : P.Abridges (discard x) (discard y) :=
  hx.bind fun _ => abridges_pure _

/-- Both steps look at the store. -/
lemma abridges_get_bind {f g : Store → Effect α}
    (h : ∀ s s' : Store, s.SameNodes s' → P.Abridges (f s) (g s')) : P.Abridges (get >>= f) (get >>= g) :=
  ⟨fun s => (h s (P.view s) (P.sameNodes_view s)).run s, fun s => (h s s (.refl s)).forward s⟩

lemma abridges_ask {f g : Store → Except Error α}
    (h : ∀ s s' : Store, s.SameNodes s' → Shortens P.Stops (f s) (g s')) :
    P.Abridges (Effect.ask f) (Effect.ask g) := by
  have hfinal (s : Store) : Effect.final (Effect.ask g s) = s := by
    cases hg : g s with
    | ok a => rw [Effect.ask_ok hg]; rfl
    | error e => rw [Effect.ask_error hg]; rfl
  refine ⟨fun s => ?_, fun s => (hfinal s).symm ▸ .refl s⟩
  rcases h s (P.view s) (P.sameNodes_view s) with heq | ⟨e, he, hf⟩
  · cases hf : f s with
    | ok a =>
      rw [Effect.ask_ok hf, Effect.ask_ok (heq.trans hf)]
      exact .inl rfl
    | error e =>
      rw [Effect.ask_error hf, Effect.ask_error (heq.trans hf)]
      exact .inl rfl
  · exact .inr ⟨e, s, Effect.ask_error hf, he, (hfinal (P.view s)).symm ▸ .refl _⟩

/-- A function on the store that does not depend on what has been reported. -/
lemma abridges_modifyGet {f : Store → α × Store}
    (hview : ∀ s, f (P.view s) = ((f s).1, P.view (f s).2)) (hle : ∀ s : Store, s.Precedes (f s).2) :
    P.Abridges (modifyGet f) (modifyGet f) := by
  refine ⟨fun s => .inl ?_, hle⟩
  show EStateM.Result.ok (f (P.view s)).1 (f (P.view s)).2 = .ok (f s).1 (P.view (f s).2)
  rw [hview]

lemma abridges_modify {f : Store → Store} (hview : ∀ s, f (P.view s) = P.view (f s))
    (hle : ∀ s : Store, s.Precedes (f s)) : P.Abridges (modify f : Effect PUnit) (modify f) :=
  abridges_modifyGet (fun s => by rw [hview]) hle

/-- A step for each member of a list. -/
lemma abridges_mapM {f g : α → Effect β} {as : List α}
    (h : ∀ a ∈ as, P.Abridges (f a) (g a)) : P.Abridges (as.mapM f) (as.mapM g) := by
  induction as with
  | nil => exact abridges_pure _
  | cons a as ih =>
    rw [List.mapM_cons, List.mapM_cons]
    refine (h a (by simp)).bind fun b => ?_
    exact (ih fun a' ha' => h a' (by simp [ha'])).bind fun bs => abridges_pure _

/-! ## Messages and reports -/

section Messages

variable {limit limit' : Nat} {v proc : Value} {args : List Value}

lemma abridges_shown (hlimits : Limits P.Stops limit limit') (v : Value) :
    P.Abridges (Effect.shown limit v) (Effect.shown limit' v) :=
  abridges_ask fun _ _ hsame => Store.render_shortens hsame hlimits v

lemma abridges_display (hlimits : Limits P.Stops limit limit') (v : Value) :
    P.Abridges (Effect.ask fun s => s.display limit v) (Effect.ask fun s => s.display limit' v) :=
  abridges_ask fun _ _ hsame => Store.display_shortens hsame hlimits v

/-- An error with a value that is shown in the message. -/
lemma abridges_throw_shown (hlimits : Limits P.Stops limit limit') (v : Value)
    (error : String → Error) :
    P.Abridges (do throw (error (← Effect.shown limit v)) : Effect α)
      (do throw (error (← Effect.shown limit' v))) :=
  (abridges_shown hlimits v).bind fun _ => abridges_throw _

lemma abridges_malformed (fault : FormFault) :
    P.Abridges (Effect.malformed fault : Effect α) (Effect.malformed fault) :=
  abridges_throw _

lemma abridges_malformedBy (hlimits : Limits P.Stops limit limit') (fault : String → FormFault)
    (v : Value) :
    P.Abridges (Effect.malformedBy limit fault v : Effect α) (Effect.malformedBy limit' fault v) :=
  (abridges_shown hlimits v).bind fun _ => abridges_malformed _

/-- An event that the second run has as well. -/
lemma abridges_report (hforget : ∀ es e, P.forget (es.push e) = (P.forget es).push e)
    (event : Event) :
    P.Abridges (modify fun s => s.report event) (modify fun s => s.report event) := by
  refine abridges_modify (fun s => ?_) fun s => Store.precedes_of_printed_eq rfl
  simp [view, Store.report, hforget]

/-- A report that the second run does not make. -/
lemma abridges_unreported {report : Effect Unit}
    (hforget : ∀ es e, P.forget (es.push e) = P.forget es) (hstops : ∀ e, e.OfLimit → P.Stops e)
    (hreport : ∀ s : Store, (∃ event, report s = .ok () (s.report event)) ∨
      ∃ e, e.OfLimit ∧ report s = .error e s) : P.Abridges report (pure ()) := by
  refine ⟨fun s => ?_, .refl⟩
  rcases hreport s with ⟨event, hok⟩ | ⟨e, he, herror⟩
  · refine .inl ?_
    rw [hok]
    show EStateM.Result.ok () (P.view s) = .ok () (P.view (s.report event))
    simp [view, Store.report, hforget]
  · exact .inr ⟨e, s, herror, hstops e he, .refl _⟩

lemma abridges_reportEval (hlimits : Limits P.Stops limit limit') (expr : Value) :
    P.Abridges (P.mode.reportEval limit expr) (P.mode'.reportEval limit' expr) := by
  rcases P.traced with ⟨heq, hforget⟩ | ⟨hfalse, hreports⟩
  · unfold Mode.reportEval
    rw [heq]
    split
    · exact (abridges_shown hlimits expr).bind fun _ => abridges_report hforget _
    · exact abridges_pure _
  · have huntraced : P.mode'.reportEval limit' expr = pure () := by
      unfold Mode.reportEval
      rw [hfalse]
      rfl
    rw [huntraced]
    cases htraced : P.mode.traced with
    | true =>
      obtain ⟨hforget, hstops⟩ := hreports htraced
      refine abridges_unreported hforget hstops fun s => ?_
      refine (Mode.reportEval_cases htraced limit expr s).imp_right fun ⟨e, he, herror⟩ => ?_
      exact ⟨e, Store.ofLimit_of_render he, herror⟩
    | false =>
      unfold Mode.reportEval
      rw [htraced]
      exact abridges_pure _

lemma abridges_reportApply (hlimits : Limits P.Stops limit limit') (proc : Value)
    (args : List Value) :
    P.Abridges (P.mode.reportApply limit proc args) (P.mode'.reportApply limit' proc args) := by
  rcases P.traced with ⟨heq, hforget⟩ | ⟨hfalse, hreports⟩
  · unfold Mode.reportApply
    rw [heq]
    split
    · refine (abridges_shown hlimits proc).bind fun _ => ?_
      refine (abridges_mapM fun v _ => abridges_shown hlimits v).bind fun _ => ?_
      exact abridges_report hforget _
    · exact abridges_pure _
  · have huntraced : P.mode'.reportApply limit' proc args = pure () := by
      unfold Mode.reportApply
      rw [hfalse]
      rfl
    rw [huntraced]
    cases htraced : P.mode.traced with
    | true =>
      obtain ⟨hforget, hstops⟩ := hreports htraced
      refine abridges_unreported hforget hstops fun s => ?_
      refine (Mode.reportApply_cases htraced limit proc args s).imp_right ?_
      exact fun ⟨_, _, e, he, herror⟩ => ⟨e, Store.ofLimit_of_render he, herror⟩
    | false =>
      unfold Mode.reportApply
      rw [htraced]
      exact abridges_pure _

end Messages

end RunPair

end SmallScheme
