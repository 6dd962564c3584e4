import SmallScheme.Proofs.LineByLine
import SmallScheme.Proofs.NativeStores
import SmallScheme.Proofs.Soundness
import SmallScheme.Proofs.Trimming
import SmallScheme.Repl

/-!
# What the interactive loop does

The loop takes the lines of its input up to the first one that says `quit` (`Repl.taken`).  It evaluates
the first expression of each line and prints before and after that, but evaluation does not depend on
what has been printed: with other output in the store it does the same
(`Replication.Holds.eq_reprinted`).  So the loop is a fold over the lines, with a prompt before and at
most one answer after each (`Repl.run_eq_fold`).
-/

namespace SmallScheme

open Text (lines stripChars)

/-! ## Other output -/

namespace Replication

variable {s t u : Store} {printed : Array (Channel × String)}

/-- A run and one in a store that is the same but for its output.  All numbers are the same. -/
def reprinted (s : Store) (printed : Array (Channel × String)) : Replication where
  cell := id
  closure := id
  cell_injective := Function.injective_id
  closure_injective := Function.injective_id
  first := s
  second := { s with printed := printed }

@[simp] lemma reprinted_value (v : Value) : (reprinted s printed).value v = v := by
  cases v <;> rfl

lemma reprinted_onCell (cell : Cell) : (reprinted s printed).onCell cell = cell := by
  simp [Renaming.onCell]

lemma reprinted_onFrame (frame : Frame) : (reprinted s printed).onFrame frame = frame := by
  simp [Renaming.onFrame, Renaming.onBindings]

lemma reprinted_onClosure (closure : Closure) :
    (reprinted s printed).onClosure closure = closure := by
  have hvalue : (reprinted s printed).value = id := funext reprinted_value
  rw [Renaming.onClosure, hvalue, List.map_id]

lemma holds_reprinted (hs : s.Closed) (printed : Array (Channel × String)) :
    (reprinted s printed).Holds s { s with printed := printed } where
  closed := hs
  cell c := (reprinted_onCell _).symm
  nextCell _ := rfl
  otherCell _ _ := rfl
  closure k := (reprinted_onClosure _).symm
  nextClosure _ := rfl
  otherClosure _ _ := rfl
  frame f := (reprinted_onFrame _).symm
  framesSize := rfl
  printed := ⟨#[], by simp [reprinted], by simp [reprinted]⟩
  events := rfl
  foreigns := rfl
  installations := rfl

/-- Both stores stay the same, and the same is printed. -/
lemma Holds.eq_reprinted (h : (reprinted s printed).Holds t u) :
    ∃ later, t.printed = s.printed ++ later ∧ u = { t with printed := printed ++ later } := by
  obtain ⟨later, ht, hu⟩ := h.printed
  refine ⟨later, ht, ?_⟩
  have hcells : u.cells = t.cells := by
    refine Array.ext (h.nextCell 0).symm fun c hc hc' => ?_
    have hcell := (h.cell c).trans (reprinted_onCell _)
    simpa [Store.cell, reprinted, hc, hc'] using hcell
  have hclosures : u.closures = t.closures := by
    refine Array.ext (h.nextClosure 0).symm fun k hk hk' => ?_
    have hclosure := (h.closure k).trans (reprinted_onClosure _)
    simpa [Store.closure, reprinted, hk, hk'] using hclosure
  have hframes : u.frames = t.frames := by
    refine Array.ext h.framesSize fun f hf hf' => ?_
    have hframe := (h.frame f).trans (reprinted_onFrame _)
    simpa [Store.frame, hf, hf'] using hframe
  have hprinted : u.printed = printed ++ later := hu
  cases u
  cases t
  simp only [Store.mk.injEq]
  exact ⟨hcells, hframes, hclosures, h.installations, h.foreigns, hprinted, h.events⟩

end Replication

/-! ## Lines that are taken -/

lemma lines_eq_nil {text : List Char} : lines text = [] ↔ text = [] := by
  cases text with
  | nil => simp
  | cons c cs =>
    rw [lines]
    split
    · simp
    · split <;> simp

/-- What follows a text on a new line leaves its lines as they are. -/
lemma prefix_lines_append (text later : List Char) : lines text <+: lines (text ++ '\n' :: later) := by
  induction text with
  | nil => exact List.nil_prefix
  | cons c cs ih =>
    by_cases hc : c = '\n'
    · subst hc
      rw [List.cons_append, Text.lines_newline, Text.lines_newline]
      exact (List.prefix_cons_inj _).mpr ih
    · rw [List.cons_append, lines, lines, if_neg hc, if_neg hc]
      cases hcs : lines cs with
      | nil =>
        obtain rfl := lines_eq_nil.mp hcs
        exact (List.prefix_cons_inj _).mpr List.nil_prefix
      | cons line rest =>
        rw [hcs] at ih
        obtain ⟨more, hmore⟩ := ih
        rw [← hmore]
        exact (List.prefix_cons_inj _).mpr (List.prefix_append rest more)

lemma takeWhile_of_prefix {α : Type} {p : α → Bool} {xs ys : List α} (h : xs <+: ys)
    (hstop : ∃ x ∈ xs, p x = false) : ys.takeWhile p = xs.takeWhile p := by
  obtain ⟨zs, rfl⟩ := h
  rw [List.takeWhile_append, if_neg]
  intro hlength
  have hall := List.takeWhile_eq_self_iff.mp ((List.takeWhile_prefix p).eq_of_length hlength)
  obtain ⟨x, hx, hfalse⟩ := hstop
  exact absurd (hall x hx) (by simp [hfalse])

namespace Repl

/-- The lines up to the first one that says `quit`. -/
def taken (input : List Char) : List (List Char) :=
  (lines input).takeWhile fun line => stripChars line ≠ quitWord

/-- A line is evaluated, and the answer to it is worded, if there is one. -/
def answered (i : Interpreter) (line : List Char) : Effect (Option String) := do
  match ← i.evalFirst (stripChars line) with
  | none => return none
  | some v => Effect.ask fun s => answer? s i.limit v

/-- The answer to a line in a store: the value, or else the error. -/
def reply? (i : Interpreter) (line : List Char) (s : Store) : Option String :=
  match answered i line s with
  | .ok text? _ => text?
  | .error e _ => some ("error: " ++ e.message)

/-- What the evaluation of a line prints in a store. -/
def written (i : Interpreter) (line : List Char) (s : Store) : List (Channel × String) :=
  (Effect.final (i.evalFirst line s)).printed.toList.drop s.printed.size

/-- What is printed after the prompt: what the line prints, and then the answer, if there is one. -/
def response (i : Interpreter) (line : List Char) (s : Store) : List (Channel × String) :=
  written i line s ++ (reply? i line s).toList.map fun text => (.standard, text ++ "\n")

/-- What is printed from one prompt up to the next one. -/
def exchange (i : Interpreter) (turn : List Char × Store) : List (Channel × String) :=
  (.standard, prompt) :: response i turn.1 turn.2

/-- All that is printed after the banner: one exchange for each line, and a last prompt. -/
def exchanges (i : Interpreter) (texts : List (List Char)) (s : Store) : List (Channel × String) :=
  (i.turns texts s).flatMap (exchange i) ++ [(.standard, prompt)]

section Turns

variable {R : Replication} {i : Interpreter} {line : List Char} {s t : Store} {n : Nat}

/-- The blanks around a line do not matter for what it does. -/
lemma final_answered (i : Interpreter) (line : List Char) (s : Store) :
    Effect.final (answered i line s) = Effect.final (i.evalFirst line s) := by
  have hanswer : Effect.final (answered i line s) =
      Effect.final (i.evalFirst (stripChars line) s) := by
    cases h : i.evalFirst (stripChars line) s with
    | error e t => rw [answered, Effect.bind_error h]; rfl
    | ok v? t =>
      rw [answered, Effect.bind_ok h]
      cases v? with
      | none => rfl
      | some v =>
        show Effect.final (Effect.ask (fun s => answer? s i.limit v) t) = t
        unfold Effect.ask
        split <;> rfl
  rw [hanswer]
  cases h : read i.limit line with
  | ok ds =>
    have h' := read_stripChars.mpr h
    rw [Interpreter.evalFirst, Effect.bind_ok (Interpreter.parse_of_read s h'), Interpreter.evalFirst,
      Effect.bind_ok (Interpreter.parse_of_read s h)]
  | error e =>
    cases h' : read i.limit (stripChars line) with
    | ok ds => cases h.symm.trans (read_stripChars.mp h')
    | error e' => rw [Interpreter.evalFirst_error s h, Interpreter.evalFirst_error s h']; rfl

lemma answer?_value (h : R.Holds s t) (limit : Nat) {v : Value} (hv : v.Within s.cells.size) :
    answer? t limit (R.value v) = answer? s limit v := by
  have hrender := h.render_value limit hv
  cases v with
  | atom a =>
    cases a with
    | nil => rfl
    | _ => exact congrArg (fun x => do return some (": " ++ (← x))) hrender
  | closure k => rfl
  | _ => exact congrArg (fun x => do return some (": " ++ (← x))) hrender

/-- The answer to a line and what it does do not depend on the numbers of cells. -/
lemma repeats_answered (i : Interpreter) (line : List Char) :
    R.Repeats n Replication.Same (answered i line) (answered i line) := by
  refine (i.repeats_evalFirst (stripChars line)).bind fun k v? w? _ hvalue => ?_
  obtain ⟨rfl, hwithin⟩ := hvalue
  cases v? with
  | none => exact Replication.repeats_pure fun _ _ => rfl
  | some v =>
    exact Replication.repeats_ask fun s t h hk =>
      answer?_value h i.limit ((hwithin v rfl).mono hk)

lemma evaluate_eq (i : Interpreter) (line : List Char) :
    evaluate i (stripChars line) = answered i line >>= fun text? =>
      match text? with
      | some text => say (text ++ "\n")
      | none => pure () := by
  unfold evaluate answered Interpreter.evalFirst
  simp only [bind_assoc]
  congr 1
  funext vs
  cases vs with
  | nil => rfl
  | cons v vs =>
    simp only [bind_assoc, pure_bind]
    refine congrArg _ (funext fun a => congrArg _ (funext fun text? => ?_))
    cases text? <;> rfl

/-- An error ends the answer to a line. -/
lemma respond_error {e : Error} (h : evaluate i line s = .error e t) (hrecovers : recovers e = true) :
    respond i line s = .ok () (t.print .standard ("error: " ++ e.message ++ "\n")) := by
  show EStateM.tryCatch (evaluate i line) _ s = _
  delta EStateM.tryCatch
  rw [h]
  dsimp only
  rw [hrecovers]
  rfl

lemma respond_ok (h : evaluate i line s = .ok () t) : respond i line s = .ok () t := by
  show EStateM.tryCatch (evaluate i line) _ s = _
  delta EStateM.tryCatch
  rw [h]

/-- **What the loop does with a line does not depend on what has been printed before**, and if the
loop recovers from all errors, it goes on. -/
lemma respond_eq (hs : s.Closed)
    (hrecovers : ∀ e t, answered i line s = .error e t → recovers e = true)
    (p : Array (Channel × String)) :
    respond i (stripChars line) { s with printed := p } =
      .ok () { Effect.final (i.evalFirst line s) with
        printed := p ++ (response i line s).toArray } := by
  have hout := repeats_answered (R := .reprinted s p) i line _ _ (Replication.holds_reprinted hs p) le_rfl
  have hfinal := final_answered i line s
  unfold response written reply?
  rw [← hfinal]
  generalize hr : answered i line s = r at hout hrecovers
  generalize hr' : answered i line { s with printed := p } = r' at hout
  have hwritten {t : Store} {later : Array (Channel × String)}
      (hlater : t.printed = s.printed ++ later) : t.printed.toList.drop s.printed.size = later.toList := by
    simp [hlater]
  have hpush (later : Array (Channel × String)) (piece : Channel × String) :
      (p ++ later).push piece = p ++ (later.toList ++ [piece]).toArray := by
    apply Array.ext'
    simp
  cases hout with
  | @ok _ text? t u h _ heq =>
    obtain rfl := heq
    obtain ⟨later, hlater, rfl⟩ := h.eq_reprinted
    refine respond_ok ?_
    rw [evaluate_eq, Effect.bind_ok hr']
    dsimp only [Effect.final]
    rw [hwritten hlater]
    cases text? with
    | none => exact congrArg (EStateM.Result.ok ()) (by simp)
    | some text => exact congrArg (EStateM.Result.ok ()) (congrArg (Store.mk _ _ _ _ _ · _) (hpush _ _))
  | @error e t u h _ =>
    obtain ⟨later, hlater, rfl⟩ := h.eq_reprinted
    have hevaluate : evaluate i (stripChars line) { s with printed := p } =
        .error e { t with printed := p ++ later } := by
      rw [evaluate_eq, Effect.bind_error hr']
    rw [respond_error hevaluate (hrecovers e t rfl)]
    dsimp only [Effect.final]
    rw [hwritten hlater]
    exact congrArg (EStateM.Result.ok ()) (congrArg (Store.mk _ _ _ _ _ · _) (hpush _ _))

/-- Evaluation prints after what is there, and it leaves a closed store. -/
lemma printed_evalFirst (hs : s.Closed) (i : Interpreter) (line : List Char) :
    (Effect.final (i.evalFirst line s)).printed = s.printed ++ (written i line s).toArray ∧
      (Effect.final (i.evalFirst line s)).Closed := by
  have hout := i.repeats_evalFirst line _ _ (Replication.holds_reprinted hs s.printed) le_rfl
  unfold written
  generalize i.evalFirst line s = r at hout
  generalize i.evalFirst line { s with printed := s.printed } = r' at hout
  cases hout with
  | ok h =>
    obtain ⟨later, hlater, -⟩ := h.eq_reprinted
    exact ⟨by simp [Effect.final, hlater], h.closed⟩
  | error h =>
    obtain ⟨later, hlater, -⟩ := h.eq_reprinted
    exact ⟨by simp [Effect.final, hlater], h.closed⟩

end Turns

/-! ## The loop -/

section Loop

variable {i : Interpreter} {line : List Char} {input : List Char} {texts : List (List Char)}
  {s t : Store}

lemma respond_nil (i : Interpreter) (s : Store) : respond i [] s = .ok () s :=
  respond_ok (Effect.bind_ok (Interpreter.parse_of_read s (read_nil i.limit)))

/-- Unless it is the last one, a line is answered and the loop goes on. -/
lemma turn_eq (h : stripChars line ≠ quitWord) (i : Interpreter) :
    turn i line = respond i (stripChars line) >>= fun _ => pure true := by
  funext s
  unfold turn
  dsimp only
  rw [if_neg h]
  cases hline : stripChars line with
  | nil =>
    rw [Effect.bind_ok (respond_nil i s)]
    rfl
  | cons c cs => rfl

/-- **What comes after the word `quit` makes no difference.** -/
lemma loop_takeWhile (i : Interpreter) (texts : List (List Char)) :
    loop i texts = loop i (texts.takeWhile fun line => stripChars line ≠ quitWord) := by
  induction texts with
  | nil => rfl
  | cons line rest ih =>
    by_cases h : stripChars line = quitWord
    · have hturn : turn i line = pure false := by
        unfold turn
        dsimp only
        rw [if_pos h]
      rw [List.takeWhile_cons_of_neg (by simpa using h)]
      show (say prompt >>= fun _ => turn i line >>= fun goesOn => if goesOn then loop i rest else pure ())
        = say prompt
      rw [hturn]
      rfl
    · rw [List.takeWhile_cons_of_pos (by simpa using h), loop, loop, ih]

/-- The lines are answered in order. -/
lemma loop_eq (hs : s.Closed) (htexts : ∀ line ∈ texts, stripChars line ≠ quitWord)
    (hrecovers : ∀ turn ∈ i.turns texts s, ∀ e t, answered i turn.1 turn.2 = .error e t →
      recovers e = true) (p : Array (Channel × String)) :
    loop i texts { s with printed := p } =
      .ok () { i.afterFirsts texts s with printed := p ++ (exchanges i texts s).toArray } := by
  induction texts generalizing s p with
  | nil =>
    have hlast : p.push (.standard, prompt) = p ++ (exchanges i [] s).toArray := by
      apply Array.ext'
      simp [exchanges, Interpreter.turns]
    rw [Interpreter.afterFirsts, List.foldl_nil, ← hlast]
    rfl
  | cons line rest ih =>
    obtain ⟨hline, hrest⟩ := List.forall_mem_cons.mp htexts
    obtain ⟨hfirst, hrecovers⟩ := List.forall_mem_cons.mp hrecovers
    have hprompt : say prompt { s with printed := p } =
        .ok () { s with printed := p.push (.standard, prompt) } := rfl
    rw [loop, Effect.bind_ok hprompt, turn_eq hline, bind_assoc,
      Effect.bind_ok (respond_eq hs hfirst _), pure_bind, if_pos rfl,
      ih (printed_evalFirst hs i line).2 hrest hrecovers, Interpreter.afterFirsts_cons]
    have hlater : p.push (.standard, prompt) ++ (response i line s).toArray ++
        (exchanges i rest (Effect.final (i.evalFirst line s))).toArray =
          p ++ (exchanges i (line :: rest) s).toArray := by
      apply Array.ext'
      simp [exchanges, exchange, Interpreter.turns]
    rw [hlater]

/-! ### Native stores -/

/-- The evaluation of a line keeps stores native, and only ordinary errors arise. -/
lemma ordinary_evalFirst (hs : s.Native) (i : Interpreter) (line : List Char) :
    (Effect.final (i.evalFirst line s)).Native ∧
      ∀ e t, i.evalFirst line s = .error e t → e.Ordinary := by
  have hev := Discipline.obeys_eval (D := Store.nativity) (fun _ => trivial) i.mode i.limit
  have hfirst := Discipline.ensuresBy_evalFirstWith (w := ()) hev (i := i) trivial line
  obtain ⟨_, _, hout, _⟩ := hfirst s hs fun _ _ => trivial
  replace hout : Store.nativity.Outcome _ _ (i.evalFirst line s) := hout
  refine ⟨hout.holds, fun e t h => ?_⟩
  rw [h] at hout
  exact hout.2

lemma ordinary_of_answer? {limit : Nat} {v : Value} {e : Error} (h : answer? s limit v = .error e) :
    e.Ordinary := by
  have hshown (h : (do return some (": " ++ (← s.render limit v)) : Except Error _) = .error e) :
      e.Ordinary := by
    rcases bind_eq_error.mp h with hrender | ⟨text, -, h⟩
    · exact (Store.ofLimit_of_render hrender).ordinary
    · cases h
  cases v with
  | atom a =>
    cases a with
    | nil => cases h
    | _ => exact hshown h
  | closure k => cases h
  | _ => exact hshown h

lemma ordinary_of_answered {e : Error} (hs : s.Native) (h : answered i line s = .error e t) :
    e.Ordinary := by
  rw [answered] at h
  cases hfirst : i.evalFirst (stripChars line) s with
  | error e' t' =>
    cases (Effect.bind_error hfirst).symm.trans h
    exact (ordinary_evalFirst hs i _).2 _ _ hfirst
  | ok v? t' =>
    replace h := (Effect.bind_ok hfirst).symm.trans h
    cases v? with
    | none => cases h
    | some v =>
      cases hanswer : answer? t' i.limit v with
      | error e' =>
        cases (Effect.ask_error (f := fun s => answer? s i.limit v) hanswer).symm.trans h
        exact ordinary_of_answer? hanswer
      | ok text? => cases (Effect.ask_ok (f := fun s => answer? s i.limit v) hanswer).symm.trans h

lemma recovers_of_ordinary {e : Error} (h : e.Ordinary) :
    recovers e = true ∨ e = .tooManyDigits := by
  cases e <;> first | exact .inl rfl | exact .inr rfl | cases h

end Loop

/-! ## The whole loop -/

section Run

variable {s : Store}

/-- **The loop is a fold over its lines**, from every well-formed store.

* If the loop recovers from all errors that the lines lead to, it ends normally.  Then the store is the
  one after the first expressions of the lines have been evaluated in order, except for its output,
  which is the banner, an exchange for each line and a last prompt.
* In a native store the loop recovers from every error but that a number has too many digits.
* What the evaluation of a line prints in an exchange is what it prints without the loop.
* What follows the word `quit` makes no difference.
* If no line has more than one expression and none fails, the lines can also be run as one text: the
  same is printed, and the store is the same but for the numbers of new cells. -/
theorem run_eq_fold (i : Interpreter) (hs : s.WellFormed) (input : List Char) :
    ((∀ turn ∈ i.turns (taken input) s, ∀ e t, answered i turn.1 turn.2 = .error e t →
        recovers e = true) →
      run i input s = .ok () { i.afterFirsts (taken input) s with
        printed := s.printed ++ ((.standard, banner) :: exchanges i (taken input) s).toArray }) ∧
    (s.Native → ∀ turn ∈ i.turns (taken input) s, ∀ e t, answered i turn.1 turn.2 = .error e t →
      recovers e = true ∨ e = .tooManyDigits) ∧
    (∀ turn ∈ i.turns (taken input) s, (Effect.final (i.evalFirst turn.1 turn.2)).printed =
      turn.2.printed ++ (written i turn.1 turn.2).toArray) ∧
    (∀ later, (∃ line ∈ lines input, stripChars line = quitWord) →
      run i (input ++ '\n' :: later) = run i input) ∧
    ((∀ line ∈ taken input, ∃ ds, read i.limit line = .ok ds ∧ ds.length ≤ 1) →
      (∀ turn ∈ i.turns (taken input) s, ∀ e t, i.evalFirst turn.1 turn.2 ≠ .error e t) →
      ∃ ρ t, i.run (['\n'].intercalate (taken input)) s = .ok () t ∧
        (i.afterFirsts (taken input) s).Mirrors ρ t ∧ Function.Surjective ρ.cell ∧
        (∀ k, ρ.closure k = k) ∧ ∀ n, s.extent.Has n → ρ.node n = n) := by
  have hquit : ∀ line ∈ taken input, stripChars line ≠ quitWord := fun line hline => by
    simpa using List.mem_takeWhile_imp hline
  refine ⟨fun hrecovers => ?_, fun hnative => ?_, ?_, fun later hlast => ?_, fun hread hok =>
    Interpreter.exists_run_of_lines hs hread hok⟩
  · have hbanner : say banner s = .ok () { s with printed := s.printed.push (.standard, banner) } :=
      rfl
    have hlater : s.printed.push (.standard, banner) ++ (exchanges i (taken input) s).toArray =
        s.printed ++ ((.standard, banner) :: exchanges i (taken input) s).toArray := by
      apply Array.ext'
      simp
    rw [run, Effect.bind_ok hbanner, loop_takeWhile, ← hlater]
    exact loop_eq hs.closed hquit hrecovers _
  · have hkeeps := fun s line hs => (ordinary_evalFirst (s := s) hs i line).1
    exact fun turn hturn e t h => recovers_of_ordinary <| ordinary_of_answered
      (Interpreter.forall_turns (P := Store.Native) hkeeps _ hnative turn hturn) h
  · exact fun turn hturn => (printed_evalFirst (Interpreter.forall_turns (P := Store.Closed)
      (fun s line hs => (printed_evalFirst hs i line).2) _ hs.closed turn hturn) i turn.1).1
  · have htaken : taken (input ++ '\n' :: later) = taken input :=
      takeWhile_of_prefix (prefix_lines_append input later) (by simpa using hlast)
    rw [run, run, loop_takeWhile, loop_takeWhile i (lines input)]
    exact congrArg (fun texts => say banner >>= fun _ => loop i texts) htaken

/-- Of the lines `(car 1)`, `(write 2) 3`, a blank one, `quit` and `x`, the first three are taken.  The
lines `(define x 5)` and `x` can be run as one text. -/
theorem run_eq_fold_quit : ∃ s, s = Interpreter.smallStart ∧ s.WellFormed ∧
    (∃ t, run .small "(car 1)\n (write 2) 3\n \nquit\nx".toList s = .ok () t ∧
      t.output .standard = banner ++ prompt ++ "error: car: expected a pair, got 1\n" ++ prompt ++
        "2\n" ++ prompt ++ prompt) ∧
    ∃ ρ t, Interpreter.small.run "(define x 5)\nx".toList s = .ok () t ∧
      (Interpreter.small.afterFirsts (taken "(define x 5)\nx".toList) s).Mirrors ρ t := by
  set s := Interpreter.smallStart
  have hnew : Interpreter.new (.standard .standard) .plain false 30 .empty =
      .ok Interpreter.small Interpreter.smallStart := rfl
  have hwf : s.WellFormed := Interpreter.wellFormed_of_new hnew
  set input := "(car 1)\n (write 2) 3\n \nquit\nx".toList
  have hall : ((Interpreter.small.turns (taken input) s).all fun turn =>
      match answered .small turn.1 turn.2 with
      | .ok _ _ => true
      | .error e _ => recovers e) = true := by decide +kernel
  have hrecovers : ∀ turn ∈ Interpreter.small.turns (taken input) s, ∀ e t,
      answered .small turn.1 turn.2 = .error e t → recovers e = true := fun turn hturn e t h => by
    have hturn' := List.all_eq_true.mp hall turn hturn
    rwa [h] at hturn'
  have hrun := (run_eq_fold .small hwf input).1 hrecovers
  set lines := "(define x 5)\nx".toList
  have hread : ∀ line ∈ taken lines, ∃ ds, read 30 line = .ok ds ∧ ds.length ≤ 1 := by
    have hall : ((taken lines).all fun line =>
        match read 30 line with
        | .ok ds => decide (ds.length ≤ 1)
        | .error _ => false) = true := by decide +kernel
    intro line hline
    have hline' := List.all_eq_true.mp hall line hline
    cases hds : read 30 line with
    | ok ds =>
      rw [hds] at hline'
      exact ⟨ds, rfl, of_decide_eq_true hline'⟩
    | error e =>
      rw [hds] at hline'
      cases hline'
  have hok : ∀ turn ∈ Interpreter.small.turns (taken lines) s, ∀ e t,
      Interpreter.small.evalFirst turn.1 turn.2 ≠ .error e t := by
    have hall : ((Interpreter.small.turns (taken lines) s).all fun turn =>
        match Interpreter.small.evalFirst turn.1 turn.2 with
        | .ok _ _ => true
        | .error _ _ => false) = true := by decide +kernel
    intro turn hturn e t h
    have hturn' := List.all_eq_true.mp hall turn hturn
    rw [h] at hturn'
    cases hturn'
  obtain ⟨ρ, t, ht, hmirrors, -⟩ := (run_eq_fold .small hwf lines).2.2.2.2 hread hok
  exact ⟨s, rfl, hwf, ⟨_, hrun, by decide +kernel⟩, ρ, t, ht, hmirrors⟩

end Run

end Repl

end SmallScheme
