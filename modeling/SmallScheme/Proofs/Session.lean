import SmallScheme.Interpreter
import SmallScheme.Proofs.Calls

/-!
# Sessions

A session is a sequence of requests to an interpreter to read and evaluate texts, each of which may
succeed or fail.  `Interpreter.SessionCall` collects the calls of the evaluator in a whole session,
and `Interpreter.Snapshot` the stores between them: those before and after each call and each
request.

The main result is `exists_session`: if a discipline that permits all deeds holds when a session
starts, it holds in all its snapshots and for all its calls.
-/

namespace SmallScheme

/-! ## Errors of reading -/

/-- The errors that reading leads to. -/
def Error.OfReading : Error → Prop
  | .lexical .. | .malformed (.reading _) _ | .tooDeep => True
  | _ => False

lemma Error.OfReading.ordinary {e : Error} (h : e.OfReading) : e.Ordinary := by
  cases e <;> trivial

namespace Reading

lemma ofReading_of_next {limit : Nat} {text : List Char} {r : Reading} {token : Token} {e : Error}
    (h : next limit text r token = .error e) : e.OfReading := by
  have ofReading_of_mapError {position : Nat} {x : Except ReadFault Reading}
      (h : x.mapError (.atPosition text position) = .error e) : e.OfReading := by
    obtain ⟨fault, -, rfl⟩ := mapError_eq_error.mp h
    trivial
  have ofReading_of_push {inner : Opened} (h : r.push limit inner = .error e) : e.OfReading := by
    unfold push at h
    split at h
    · cases h
    · cases h
      trivial
  unfold next at h
  split at h
  · exact ofReading_of_push h
  · exact ofReading_of_push h
  · exact ofReading_of_mapError h
  · exact ofReading_of_mapError h

lemma ofReading_of_foldlM_next {limit : Nat} {text : List Char} {r : Reading} {ts : List Token}
    {e : Error} (h : ts.foldlM (next limit text) r = .error e) : e.OfReading := by
  induction ts generalizing r with
  | nil => cases h
  | cons token ts ih =>
    rw [List.foldlM_cons] at h
    rcases bind_eq_error.mp h with h | ⟨_, _, h⟩
    · exact ofReading_of_next h
    · exact ih h

end Reading

lemma ofReading_of_read {limit : Nat} {text : List Char} {e : Error}
    (h : read limit text = .error e) : e.OfReading := by
  rcases bind_eq_error.mp h with h | ⟨r, -, h⟩
  · exact Reading.ofReading_of_foldlM_next h
  · cases hfault : (tokenize text).fault with
    | some position =>
      rw [hfault] at h
      cases h
      trivial
    | none =>
      rw [hfault] at h
      have hfinish : r.finish text = .error e := h
      unfold Reading.finish at hfinish
      split at hfinish
      · cases hfinish
      · cases hfinish
        trivial
      · cases hfinish
        trivial

/-! ## Requests -/

/-- What an interpreter is asked for. -/
inductive Request where
  /-- The value of a text. -/
  | eval (text : List Char)
  /-- To run a text. -/
  | run (text : List Char)

/-- The text of a request. -/
def Request.text : Request → List Char
  | eval text => text
  | run text => text

namespace Interpreter

/-- The store after a request, whether it has succeeded or failed. -/
def after (i : Interpreter) (s : Store) : Request → Store
  | .eval text => Effect.final (i.eval text s)
  | .run text => Effect.final (i.run text s)

/-- An expression is evaluated in the global frame by the given evaluator. -/
def interpretWith (i : Interpreter) (ev : Evaluator) (expr : Value) : Effect Value := do
  if i.announced then
    let form ← Effect.shown i.limit expr
    modify fun s => s.report (.interpret form)
  ev expr i.globals

/-- Some expressions are evaluated in order by the given evaluator. -/
def interpretAllWith (i : Interpreter) (ev : Evaluator) : List Value → Effect Value
  | [] => return .nil
  | [expr] => i.interpretWith ev expr
  | expr :: rest => do
    discard <| i.interpretWith ev expr
    i.interpretAllWith ev rest

/-- A text is read and evaluated by the given evaluator. -/
def evalWith (i : Interpreter) (ev : Evaluator) (text : List Char) : Effect Value := do
  i.interpretAllWith ev (← i.parse text)

/-- The evaluator of an interpreter. -/
abbrev evaluator (i : Interpreter) : Evaluator :=
  SmallScheme.eval i.mode i.limit

lemma interpretAllWith_evaluator (i : Interpreter) (exprs : List Value) :
    i.interpretAllWith i.evaluator exprs = i.interpretAll exprs := by
  induction exprs with
  | nil => rfl
  | cons expr rest ih =>
    cases rest with
    | nil => rfl
    | cons expr' rest =>
      show (do discard <| i.interpret expr; i.interpretAllWith i.evaluator (expr' :: rest)) = _
      rw [ih]
      rfl

/-- An interpreter evaluates texts by its evaluator. -/
theorem evalWith_evaluator (i : Interpreter) (text : List Char) :
    i.evalWith i.evaluator text = i.eval text := by
  unfold evalWith eval
  simp only [interpretAllWith_evaluator]

lemma after_eq (i : Interpreter) (s : Store) (request : Request) :
    i.after s request = Effect.final (i.evalWith i.evaluator request.text s) := by
  cases request with
  | eval text => rw [evalWith_evaluator]; rfl
  | run text =>
    rw [evalWith_evaluator]
    show Effect.final ((i.eval text >>= fun _ => pure ()) s) = Effect.final (i.eval text s)
    cases h : i.eval text s with
    | ok v t =>
      rw [Effect.bind_ok h]
      rfl
    | error e t =>
      rw [Effect.bind_error h]
      rfl

/-- The calls of the evaluator in a session, each with the limit that is left for it. -/
inductive SessionCall (i : Interpreter) : List Request → Store → Nat → Call → Prop
  | now {request : Request} {later : List Request} {s : Store} {call call' : Call} {limit : Nat} :
      Consults (fun ev => i.evalWith ev request.text) i.evaluator s call →
      Reaches i.mode i.limit call limit call' → SessionCall i (request :: later) s limit call'
  | later {request : Request} {later : List Request} {s : Store} {call : Call} {limit : Nat} :
      SessionCall i later (i.after s request) limit call →
      SessionCall i (request :: later) s limit call

/-- The first expression of a text is evaluated as soon as the text has been read and stored. -/
lemma sessionCall_first {i : Interpreter} {request : Request} {d : Datum} {ds : List Datum}
    (later : List Request) (s : Store) (hannounced : i.announced = false)
    (hread : read i.limit request.text = .ok (d :: ds)) :
    i.SessionCall (request :: later) s i.limit
      ⟨(s.load d).1, i.globals, (s.loadAll (d :: ds)).2⟩ := by
  set call : Call := ⟨(s.load d).1, i.globals, (s.loadAll (d :: ds)).2⟩
  refine .now (fun e => ?_) (.here i.limit call)
  have hcall : i.interpretWith (stopAt call e i.evaluator) call.expr call.store =
      .error e call.store := by
    rw [interpretWith, hannounced]
    exact if_pos rfl
  refine (Effect.bind_ok (parse_of_read s hread)).trans ?_
  cases ds with
  | nil => exact hcall
  | cons d' ds => exact Effect.bind_error (Effect.bind_error hcall)

/-- The stores of a session, before and after each call and each request. -/
inductive Snapshot (i : Interpreter) : List Request → Store → Store → Prop
  | start (requests : List Request) (s : Store) : Snapshot i requests s s
  | before {requests : List Request} {s : Store} {limit : Nat} {call : Call} :
      i.SessionCall requests s limit call → Snapshot i requests s call.store
  | after {requests : List Request} {s : Store} {limit : Nat} {call : Call} :
      i.SessionCall requests s limit call →
      Snapshot i requests s (Effect.final (call.run (SmallScheme.eval i.mode limit)))
  | later {request : Request} {later : List Request} {s t : Store} :
      Snapshot i later (i.after s request) t → Snapshot i (request :: later) s t

/-- A small interpreter. -/
def small : Interpreter := ⟨.plain, false, 30, 0⟩

/-- The store in which it is new. -/
def smallStart : Store :=
  Effect.final (Interpreter.new (.standard .standard) .plain false 30 .empty)

end Interpreter

/-! ## Sessions keep every discipline -/

namespace Discipline

variable {D : Discipline} {w : D.World} {s : Store}

/-- A datum that is stored may be used in every role. -/
lemma exists_load (hs : D.Holds w s) (r : Role) (d : Datum) :
    ∃ w', D.le w w' ∧ D.Holds w' (s.load d).2 ∧ D.Good w' r (s.load d).1 := by
  induction d generalizing w s r with
  | atom a => exact ⟨w, D.le_refl w, hs, D.good_atom w r a⟩
  | cons car cdr ihcar ihcdr =>
    obtain ⟨w₁, hle₁, hs₁, hcar⟩ := ihcar hs r.first
    -- the first part is stored first, and it settles the role of the second one
    obtain ⟨w₂, hle₂, hs₂, hcdr⟩ := ihcdr hs₁ (r.refine (s.load car).1).rest
    rw [← r.first_refine (s.load car).1] at hcar
    obtain ⟨w₃, hle₃, hs₃, hpair⟩ := D.cons hs₂ (D.good_mono hle₂ hcar) hcdr
    exact ⟨w₃, D.le_trans hle₁ (D.le_trans hle₂ hle₃), hs₃, hpair⟩

lemma exists_loadAll (hs : D.Holds w s) (ds : List Datum) :
    ∃ w', D.le w w' ∧ D.Holds w' (s.loadAll ds).2 ∧ ∀ v ∈ (s.loadAll ds).1, D.IsExpr w' v := by
  induction ds generalizing w s with
  | nil => exact ⟨w, D.le_refl w, hs, List.forall_mem_nil _⟩
  | cons d ds ih =>
    obtain ⟨w₁, hle₁, hs₁, hv⟩ := exists_load hs .expr d
    obtain ⟨w₂, hle₂, hs₂, hvs⟩ := ih hs₁
    refine ⟨w₂, D.le_trans hle₁ hle₂, hs₂, List.forall_mem_cons.mpr ⟨?_, hvs⟩⟩
    exact D.good_mono hle₂ hv

section Requests

variable {Allowed : Call → Prop} {Runs : D.World → Call → D.World → Prop} {ev : Evaluator}
  {i : Interpreter} {v : Value} {vs : List Value}

lemma ensures_parse (text : List Char) :
    D.Ensures w (i.parse text) fun w' vs => ∀ v ∈ vs, D.IsExpr w' v := by
  have hread : D.Ensures w (Effect.ask fun _ => read i.limit text) fun _ _ => True :=
    ensures_ask (fun _ _ _ _ => trivial) fun _ _ h => D.fails_ordinary (ofReading_of_read h).ordinary
  refine Ensures.bind hread fun w₁ ds _ _ => ?_
  exact ensures_modifyGet fun s hs => exists_loadAll hs ds

lemma ensuresBy_interpretWith (hev : D.Obeys Allowed Runs ev) (hv : D.IsExpr w v)
    (hglobals : D.Scope w i.globals) :
    D.EnsuresBy Allowed Runs ev w (fun ev => i.interpretWith ev v) D.IsData := by
  unfold Interpreter.interpretWith
  have hcall {w₁ : D.World} (hle : D.le w w₁) :
      D.EnsuresBy Allowed Runs ev w₁ (fun ev => ev v i.globals) D.IsData :=
    ensuresBy_call hev (D.good_mono hle hv) (D.scope_mono hle hglobals)
  split
  · refine Ensures.bind_by ensures_shown fun w₁ form hle₁ _ => ?_
    refine Ensures.bind_by (ensures_modify fun _ hs => D.report hs) fun w₂ _ hle₂ _ => ?_
    exact hcall (D.le_trans hle₁ hle₂)
  · exact hcall (D.le_refl w)

lemma ensuresBy_interpretAllWith (hev : D.Obeys Allowed Runs ev) (hvs : ∀ v ∈ vs, D.IsExpr w v)
    (hglobals : D.Scope w i.globals) :
    D.EnsuresBy Allowed Runs ev w (fun ev => i.interpretAllWith ev vs) D.IsData := by
  induction vs generalizing w with
  | nil => exact ensures_atom.by_any
  | cons v vs ih =>
    have hfirst := ensuresBy_interpretWith hev (hvs v (by simp)) hglobals
    cases vs with
    | nil => exact hfirst
    | cons v' vs =>
      refine hfirst.discard.bind fun w₁ _ hle _ => ih (fun v hv => ?_) (D.scope_mono hle hglobals)
      exact D.good_mono hle (hvs v (List.mem_cons_of_mem _ hv))

lemma ensuresBy_evalWith (hev : D.Obeys Allowed Runs ev) (hglobals : D.Scope w i.globals)
    (text : List Char) : D.EnsuresBy Allowed Runs ev w (fun ev => i.evalWith ev text) D.IsData :=
  Ensures.bind_by (ensures_parse text) fun _ _ hle hvs =>
    ensuresBy_interpretAllWith hev hvs (D.scope_mono hle hglobals)

end Requests

/-- **A session keeps every discipline.**  Between the worlds of its start and its end are worlds
of all its snapshots, and all its calls are allowed. -/
theorem exists_session {i : Interpreter} (hpermits : ∀ d, D.Permits d) (requests : List Request)
    (hs : D.Holds w s) (hglobals : D.Scope w i.globals) :
    ∃ w', D.le w w' ∧
      (∀ limit call, i.SessionCall requests s limit call → D.RunsWithin i.mode limit w call w') ∧
      ∀ t, i.Snapshot requests s t → ∃ w₁, D.le w w₁ ∧ D.Holds w₁ t ∧ D.le w₁ w' := by
  induction requests generalizing w s with
  | nil =>
    refine ⟨w, D.le_refl w, fun limit call h => (nomatch h), fun t ht => ?_⟩
    cases ht with
    | start => exact ⟨w, D.le_refl w, hs, D.le_refl w⟩
    | before h | after h => exact nomatch h
  | cons request later ih =>
    have hev := obeys_eval hpermits i.mode i.limit
    have hrequest := ensuresBy_evalWith (i := i) hev hglobals request.text
    obtain ⟨w₁, hle₁, hout, hmade⟩ := hrequest s hs fun _ _ => trivial
    -- the later requests start where this one ends, be it in a value or in an error
    have hafter : D.Holds w₁ (i.after s request) := by
      rw [i.after_eq]
      exact hout.holds
    obtain ⟨w', hle', hcalls, hsnapshots⟩ := ih hafter (D.scope_mono hle₁ hglobals)
    have hcalls' {limit : Nat} {call : Call}
        (h : i.SessionCall (request :: later) s limit call) :
        D.RunsWithin i.mode limit w call w' := by
      cases h with
      | now hconsults hreaches =>
        exact (runsWithin_of_reaches hmade hconsults hreaches).mono (D.le_refl w) hle'
      | later h => exact (hcalls _ _ h).mono hle₁ (D.le_refl w')
    refine ⟨w', D.le_trans hle₁ hle', fun _ _ => hcalls', fun t ht => ?_⟩
    cases ht with
    | start => exact ⟨w, D.le_refl w, hs, D.le_trans hle₁ hle'⟩
    | before h =>
      obtain ⟨w₂, w₃, hle₂, hmeets, hle₃, -, hle₄⟩ := hcalls' h
      exact ⟨w₂, hle₂, hmeets.holds, D.le_trans hle₃ hle₄⟩
    | after h =>
      obtain ⟨w₂, w₃, hle₂, -, hle₃, hrun, hle₄⟩ := hcalls' h
      exact ⟨w₃, D.le_trans hle₂ hle₃, hrun.holds, hle₄⟩
    | later h =>
      obtain ⟨w₂, hle₂, hs₂, hle₃⟩ := hsnapshots t h
      exact ⟨w₂, D.le_trans hle₁ hle₂, hs₂, hle₃⟩

end Discipline

end SmallScheme
