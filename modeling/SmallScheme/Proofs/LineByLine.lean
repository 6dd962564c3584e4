import SmallScheme.Proofs.LoadedAhead
import SmallScheme.Proofs.NextLine

/-!
# Line by line

A text can be run as a whole, or its lines can be taken one after another, each read by itself and only
its first expression evaluated (`Interpreter.evalFirst`, `Interpreter.afterFirsts`).  If no line has
more than one expression and none fails, both do the same (`Interpreter.exists_run_of_lines`).  Only the
numbers of cells differ, since the whole text is read first.
-/

namespace SmallScheme

/-! ## Lines of a text -/

section Reading

variable {limit : Nat} {lines : List (List Char)} {dss : List (List Datum)}

lemma read_nil (limit : Nat) : read limit [] = .ok [] := by
  rw [read_eq (tokensFrom_nil 0)]
  rfl

/-- If all lines can be read, so can the text, and its data are theirs. -/
lemma read_intercalate (h : List.Forall₂ (fun line ds => read limit line = .ok ds) lines dss) :
    read limit (['\n'].intercalate lines) = .ok dss.flatten := by
  induction h with
  | nil => exact read_nil limit
  | @cons line ds rest dss hline hrest ih =>
    cases hrest with
    | nil => simpa using hline
    | @cons line' _ rest _ =>
      have htext : ['\n'].intercalate (line :: line' :: rest) =
          line ++ '\n' :: ['\n'].intercalate (line' :: rest) := by simp [List.intercalate]
      rw [htext, List.flatten_cons]
      exact (resumes_read hline _).eq_ok ih

end Reading

/-! ## Interpreters in both stores -/

namespace Replication

variable {R : Replication} {s t : Store} {v w : Value} {n : Nat}

lemma Holds.load (h : R.Holds s t) (d : Datum) :
    R.Holds (s.load d).2 (t.load d).2 ∧ R.Copies (s.load d).2.cells.size (s.load d).1 (t.load d).1 := by
  induction d generalizing s t with
  | atom a => exact ⟨h, copies_atom _ a⟩
  | cons car cdr ihcar ihcdr =>
    obtain ⟨h₁, hcar⟩ := ihcar h
    obtain ⟨h₂, hcdr⟩ := ihcdr h₁
    have hcar₂ := hcar.mono (Store.extends_load cdr (s.load car).2).size_le
    have hpair := h₂.cons hcar₂.2 hcdr.2
    rw [← hcar₂.1, ← hcdr.1] at hpair
    have hsize : (s.load (.cons car cdr)).2.cells.size = _ := Array.size_push _
    refine ⟨hpair, congrArg Value.pair (h₂.nextCell 0).symm, ?_⟩
    rw [hsize]
    exact Nat.lt_succ_self _

lemma Holds.loadAll (h : R.Holds s t) (ds : List Datum) :
    R.Holds (s.loadAll ds).2 (t.loadAll ds).2 ∧
      R.CopiesAll (s.loadAll ds).2.cells.size (s.loadAll ds).1 (t.loadAll ds).1 := by
  induction ds generalizing s t with
  | nil => exact ⟨h, copiesAll_nil _⟩
  | cons d ds ih =>
    obtain ⟨h₁, hv⟩ := h.load d
    obtain ⟨h₂, hvs⟩ := ih h₁
    exact ⟨h₂, .cons (hv.mono (Store.extends_loadAll ds _).size_le) hvs⟩

lemma repeats_parse (i : Interpreter) (text : List Char) :
    R.Repeats n R.CopiesAll (i.parse text) (i.parse text) := by
  refine (repeats_ask fun _ _ _ _ => rfl).bind fun k _ ds hk heq => ?_
  obtain rfl := heq
  refine repeats_modifyGet fun s t h hn => ?_
  obtain ⟨h', hvs⟩ := h.loadAll ds
  exact ⟨h', hn.trans (Store.extends_loadAll ds s).size_le, hvs⟩

lemma repeats_interpret (i : Interpreter) (hv : R.Copies n v w) :
    R.Repeats n R.Copies (i.interpret v) (i.interpret w) := by
  unfold Interpreter.interpret
  split
  · refine (repeats_shown i.limit hv).bind fun k form _ hk heq => ?_
    obtain rfl := heq
    refine (repeats_report _).bind fun m _ _ hm _ => ?_
    exact repeats_eval R i.mode i.limit i.globals (hv.mono (hk.trans hm))
  · exact repeats_eval R i.mode i.limit i.globals hv

end Replication

/-! ## First expressions -/

namespace Interpreter

variable {i : Interpreter} {line text : List Char} {lines : List (List Char)} {s t : Store}

/-- The value of the first expression of a text, if it has one. -/
def evalFirst (i : Interpreter) (text : List Char) : Effect (Option Value) := do
  match ← i.parse text with
  | [] => return none
  | expr :: _ => return some (← i.interpret expr)

/-- The same by the given evaluator. -/
def evalFirstWith (i : Interpreter) (ev : Evaluator) (text : List Char) : Effect (Option Value) := do
  match ← i.parse text with
  | [] => return none
  | expr :: _ => return some (← i.interpretWith ev expr)

/-- The first expressions of some texts are evaluated in order.  The store that is left by the last one
is the result; a text that fails leaves what it has done before. -/
def afterFirsts (i : Interpreter) (texts : List (List Char)) (s : Store) : Store :=
  texts.foldl (fun s text => Effect.final (i.evalFirst text s)) s

lemma afterFirsts_cons (i : Interpreter) (text : List Char) (texts : List (List Char)) (s : Store) :
    i.afterFirsts (text :: texts) s = i.afterFirsts texts (Effect.final (i.evalFirst text s)) :=
  rfl

/-- The texts, each with the store in which it is taken if they are taken in order. -/
def turns (i : Interpreter) : List (List Char) → Store → List (List Char × Store)
  | [], _ => []
  | text :: rest, s => (text, s) :: i.turns rest (Effect.final (i.evalFirst text s))

/-- What every evaluation keeps holds whenever a text is taken. -/
lemma forall_turns {P : Store → Prop} (hstep : ∀ s text, P s → P (Effect.final (i.evalFirst text s)))
    (texts : List (List Char)) (hs : P s) : ∀ turn ∈ i.turns texts s, P turn.2 := by
  induction texts generalizing s with
  | nil => exact List.forall_mem_nil _
  | cons text rest ih => exact List.forall_mem_cons.mpr ⟨hs, ih (hstep s text hs)⟩

lemma evalFirst_nil (s : Store) (h : read i.limit text = .ok []) :
    i.evalFirst text s = .ok none s :=
  Effect.bind_ok (parse_of_read s h)

lemma evalFirst_error {e : Error} (s : Store) (h : read i.limit text = .error e) :
    i.evalFirst text s = .error e s := by
  have hparse : i.parse text s = .error e s :=
    Effect.bind_error (Effect.ask_error (f := fun _ => read i.limit text) h)
  exact Effect.bind_error hparse

lemma evalFirst_cons {d : Datum} {ds : List Datum} (s : Store)
    (h : read i.limit text = .ok (d :: ds)) :
    i.evalFirst text s = (some <$> i.interpret (s.load d).1) (s.loadAll (d :: ds)).2 :=
  Effect.bind_ok (parse_of_read s h)

/-- The values of first expressions correspond. -/
lemma repeats_evalFirst {R : Replication} {n : Nat} (i : Interpreter) (text : List Char) :
    R.Repeats n (fun n v? w? => w? = v?.map R.value ∧ ∀ v ∈ v?, v.Within n) (i.evalFirst text)
      (i.evalFirst text) := by
  refine (Replication.repeats_parse i text).bind fun k vs ws _ hvs => ?_
  cases vs with
  | nil =>
    rw [hvs.of_nil]
    exact Replication.repeats_pure fun _ _ => ⟨rfl, nofun⟩
  | cons v vs =>
    obtain ⟨w, ws, rfl, hv, -⟩ := hvs.of_cons
    refine (Replication.repeats_interpret i hv).bind fun m a b _ ha => ?_
    refine Replication.repeats_pure fun m' hm' => ⟨congrArg some ha.1, fun v hv => ?_⟩
    cases hv
    exact ha.2.mono hm'

/-- The first of some expressions is evaluated, and then the others. -/
lemma interpretAll_cons {v a b : Value} {vs : List Value} {t' : Store} (hv : i.interpret v s = .ok a t)
    (hvs : i.interpretAll vs t = .ok b t') : ∃ c, i.interpretAll (v :: vs) s = .ok c t' := by
  cases vs with
  | nil =>
    cases hvs
    exact ⟨a, hv⟩
  | cons v' vs =>
    have hfirst : (discard (i.interpret v) : Effect PUnit) s = .ok () t := Effect.bind_ok hv
    exact ⟨b, (Effect.bind_ok hfirst).trans hvs⟩

/-- **What is loaded ahead is evaluated as the lines are**, if it is in the hidden cells. -/
lemma exists_interpretAll {R : Replication} {lo hi : Nat} {dss : List (List Datum)} {vs : List Value}
    (hread : List.Forall₂ (fun line ds => read i.limit line = .ok ds) lines dss)
    (hshort : ∀ ds ∈ dss, ds.length ≤ 1)
    (hok : ∀ turn ∈ i.turns lines s, ∀ e u, i.evalFirst turn.1 turn.2 ≠ .error e u)
    (h : R.Holds s t) (hvs : R.second.StoresAll lo hi dss.flatten vs) (hhides : R.HidesBetween lo hi) :
    ∃ R' v t', i.interpretAll vs t = .ok v t' ∧ R.Continues s.cells.size R' ∧
      R'.Holds (i.afterFirsts lines s) t' ∧ ∀ d, ¬R'.Hides d := by
  induction hread generalizing R s t lo vs with
  | nil =>
    cases hvs
    refine ⟨R, _, t, rfl, .refl R _, h, fun d hd => ?_⟩
    obtain ⟨hle, hlt⟩ := (hhides d).mp hd
    exact lt_irrefl _ (hle.trans_lt hlt)
  | @cons line ds lines dss hline _ ih =>
    rw [List.forall_mem_cons] at hshort
    obtain ⟨hds, hshort⟩ := hshort
    obtain ⟨hfirst, hok⟩ := List.forall_mem_cons.mp hok
    match ds with
    | [] =>
      rw [evalFirst_nil s hline] at hok
      rw [afterFirsts_cons, evalFirst_nil s hline]
      exact ih hshort hok h hvs hhides
    | [d] =>
      cases hvs with
      | @cons _ mid _ _ _ w ws hd hrest =>
        obtain ⟨R₁, hcontinues₁, h₁, hhides₁, hw⟩ := h.exists_load hd hhides hrest.le
        have hout := Replication.repeats_interpret i hw _ _ h₁ le_rfl
        generalize hr : i.interpret (s.load d).1 (s.load d).2 = r at hout
        generalize hr' : i.interpret w t = r' at hout
        cases hout with
        | error =>
          exact absurd ((evalFirst_cons s hline).trans (Effect.bind_error hr)) (hfirst _ _)
        | @ok a b s₂ t₂ h₂ hle _ =>
          have hvalue : i.evalFirst line s = .ok (some a) s₂ :=
            (evalFirst_cons s hline).trans (Effect.bind_ok hr)
          rw [hvalue] at hok
          rw [← hcontinues₁.second_eq] at hrest
          obtain ⟨R', v, t', hall, hcontinues', h', hnone⟩ := ih hshort hok h₂ hrest hhides₁
          obtain ⟨c, hc⟩ := interpretAll_cons hr' hall
          have hle' := (Store.extends_load d s).size_le.trans hle
          rw [afterFirsts_cons, hvalue]
          exact ⟨R', c, t', hc, hcontinues₁.trans hcontinues' hle', h', hnone⟩

/-- **Lines can be run as one text.**  If no line has more than one expression and none fails, the text
that consists of the lines is run without failure.  The store after it is the one after the lines, with
other numbers for cells that were not there before, and the same has been printed. -/
theorem exists_run_of_lines (hs : s.WellFormed)
    (hread : ∀ line ∈ lines, ∃ ds, read i.limit line = .ok ds ∧ ds.length ≤ 1)
    (hok : ∀ turn ∈ i.turns lines s, ∀ e u, i.evalFirst turn.1 turn.2 ≠ .error e u) :
    ∃ ρ t, i.run (['\n'].intercalate lines) s = .ok () t ∧ (i.afterFirsts lines s).Mirrors ρ t ∧
      Function.Surjective ρ.cell ∧ (∀ k, ρ.closure k = k) ∧ ∀ n, s.extent.Has n → ρ.node n = n := by
  choose! data hdata hlength using hread
  set dss := lines.map data
  have hdss : List.Forall₂ (fun line ds => read i.limit line = .ok ds) lines dss := by
    rw [List.forall₂_map_right_iff, List.forall₂_same]
    exact hdata
  have hshort : ∀ ds ∈ dss, ds.length ≤ 1 := List.forall_mem_map.mpr hlength
  set t₀ := (s.loadAll dss.flatten).2
  have hfresh : s.AddsFresh t₀ := Store.addsFresh_loadAll _ s
  have hhides : (s.shifted t₀).HidesBetween s.cells.size t₀.cells.size := fun _ =>
    Store.shift_ne_iff hfresh.cells.size_le
  have hstores : t₀.StoresAll s.cells.size t₀.cells.size dss.flatten (s.loadAll dss.flatten).1 :=
    Store.storesAll_loadAll _ s
  obtain ⟨R, v, t, hall, hcontinues, h, hnone⟩ :=
    exists_interpretAll hdss hshort hok (Store.holds_shifted hs hfresh) hstores hhides
  have hrun : i.run (['\n'].intercalate lines) s = .ok () t := by
    have hparse := parse_of_read s (read_intercalate hdss)
    exact Effect.bind_ok ((Effect.bind_ok hparse).trans hall)
  refine ⟨R.toRenaming, t, hrun, h.mirrors ?_, fun d => ?_, fun k => ?_, fun n hn => ?_⟩
  · rw [hcontinues.first_eq, hcontinues.second_eq]
    exact hfresh.printed
  · by_contra hd
    exact hnone d (not_exists.mp hd)
  · rw [hcontinues.closure_eq]
    exact Store.shift_closure_eq (Store.closures_loadAll _ s) k
  · refine Eq.trans ?_ (s.shift_node t₀ hn)
    cases n with
    | cell c => exact congrArg Node.cell (hcontinues.cell_eq c hn)
    | frame f => rfl
    | closure k => exact congrArg Node.closure (hcontinues.closure_eq k)

end Interpreter

/-- First expressions keep every discipline. -/
lemma Discipline.ensuresBy_evalFirstWith {D : Discipline} {w : D.World} {Allowed : Call → Prop}
    {Runs : D.World → Call → D.World → Prop} {ev : Evaluator} {i : Interpreter}
    (hev : D.Obeys Allowed Runs ev) (hglobals : D.Scope w i.globals) (text : List Char) :
    D.EnsuresBy Allowed Runs ev w (fun ev => i.evalFirstWith ev text) fun _ _ => True := by
  refine Ensures.bind_by (ensures_parse text) fun w₁ vs hle hvs => ?_
  cases vs with
  | nil => exact (ensures_pure trivial).by_any
  | cons v vs =>
    have hvalue := ensuresBy_interpretWith hev (hvs v (by simp)) (D.scope_mono hle hglobals)
    exact hvalue.bind fun _ _ _ _ => (ensures_pure trivial).by_any

end SmallScheme
