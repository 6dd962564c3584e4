import SmallScheme.Proofs.LargerLimits
import SmallScheme.Proofs.LongestMatch
import SmallScheme.Proofs.GrammarReading

/-!
# Reading on after a line feed

If one text follows another one after a line feed, no token goes across it: the tokens of both
together are those of the first text and then those of the second one, which only stand further
behind (`tokensFrom_append_newline`).  Each token is read before anything behind it counts.  So what
has been read of the first text stays, and the second text is read on top of it as it would be read
alone (`Reading.Resumes`).

Limits do not count here: a text is read with some limit that is large enough (`Reads`).  The main
result is `read_next_line`.
-/

namespace SmallScheme

open Text (Place)

/-! ## Cutting -/

section Cutting

variable {kind : TokenKind} {lexeme gap cs rest : List Char} {position : Nat} {tokens : List Token}
  {fault : Option Nat}

lemma TokenKind.Spells.newline_not_mem (h : kind.Spells lexeme) : '\n' ∉ lexeme := by
  have hsubsequent : isSubsequent '\n' = false := by decide
  cases kind with
  | boolean => rcases h with rfl | rfl <;> decide
  | number =>
    obtain ⟨radix, ds, hspelled⟩ := h
    have hdigits {ds : List Char} (hrun : IsRun radix.isDigit ds) : '\n' ∉ ds := fun hmem =>
      absurd (isSubsequent_of_isAlphanum (radix.isAlphanum_of_isDigit (hrun.2 _ hmem)))
        (by simp [hsubsequent])
    cases hspelled with
    | plain hrun => exact hdigits hrun
    | marked _ hrun =>
      have hletter : '\n' ≠ radix.letter := by cases radix <;> decide
      simp [hletter, hdigits hrun]
  | identifier =>
    rcases h with ⟨c, cs, rfl, hc, hcs⟩ | rfl | rfl
    · intro hmem
      rcases List.mem_cons.mp hmem with rfl | hmem
      · exact absurd hc (by decide)
      · exact absurd (hcs _ hmem) (by simp [hsubsequent])
    · decide
    · decide
  | string =>
    obtain ⟨body, rfl, hbody⟩ := h
    have hmem : '\n' ∉ body := fun hmem => (hbody _ hmem).2 rfl
    simp [hmem]
  | _ =>
    cases h
    decide

/-- A spelling does not go across a line feed. -/
lemma TokenKind.Spells.prefix_append_newline (h : kind.Spells lexeme) (cs rest : List Char) :
    lexeme <+: cs ++ '\n' :: rest ↔ lexeme <+: cs := by
  refine ⟨fun hfront => ?_, fun hfront => hfront.trans (List.prefix_append _ _)⟩
  rcases Nat.lt_or_ge cs.length lexeme.length with hlong | hshort
  · have hline : cs ++ ['\n'] <+: cs ++ '\n' :: rest := by simp
    have hover : cs ++ ['\n'] <+: lexeme :=
      List.prefix_of_prefix_length_le hline hfront (by simpa using hlong)
    exact absurd (hover.subset (by simp)) h.newline_not_mem
  · exact List.prefix_of_prefix_length_le hfront (List.prefix_append _ _) hshort

lemma IsLongest.append_newline (h : IsLongest cs kind lexeme) (rest : List Char) :
    IsLongest (cs ++ '\n' :: rest) kind lexeme where
  spells := h.spells
  front := (h.spells.prefix_append_newline cs rest).mpr h.front
  length_le kind' lexeme' hspells hfront :=
    h.length_le kind' lexeme' hspells ((hspells.prefix_append_newline cs rest).mp hfront)

/-- A line feed ends a comment that the end of the text ends. -/
lemma Skipped.append_newline (h : Skipped gap cs) (rest : List Char) :
    Skipped gap (cs ++ '\n' :: rest) := by
  induction h with
  | nil => exact .nil _
  | blank hc _ ih => exact .blank hc ih
  | @comment body gap cs hbody hend _ ih =>
    refine .comment hbody (fun c hc => ?_) ih
    rw [← List.append_assoc] at hc
    cases hfront : gap ++ cs with
    | nil =>
      rw [hfront] at hc
      cases hc
      rfl
    | cons d ds =>
      rw [hfront] at hc
      exact hend c (by rw [hfront]; exact hc)

/-- Tokens and fault of a text that is cut completely, and then those of another one. -/
lemma Decomposes.tokensFrom_append_newline (h : Decomposes position cs tokens fault)
    (rest : List Char) (hfault : fault = none) :
    tokensFrom position (cs ++ '\n' :: rest) =
      ⟨tokens ++ (tokensFrom (position + cs.length + 1) rest).tokens,
        (tokensFrom (position + cs.length + 1) rest).fault⟩ := by
  induction h with
  | @finished position gap hgap =>
    have hline : Skipped ['\n'] rest := .blank (by decide) (.nil rest)
    exact ((hgap.append_newline rest).tokensFrom_append position).trans (hline.tokensFrom_append _)
  | stuck => cases hfault
  | @token position gap lexeme after kind tokens fault hgap hlongest _ ih =>
    have hgap' := hgap.append_newline rest
    have hlongest' := hlongest.append_newline rest
    rw [List.append_assoc] at hgap' hlongest'
    have hscan := scan?_eq_some_iff.mpr hlongest'
    rw [List.append_assoc, List.append_assoc, hgap'.tokensFrom_append, tokensFrom_of_scan? hscan,
      ih hfault]
    simp only [List.length_append, List.cons_append, add_assoc]

/-- Where cutting stops, it stops whatever follows. -/
lemma Decomposes.append_newline (h : Decomposes position cs tokens fault) (rest : List Char)
    (hfault : fault ≠ none) : Decomposes position (cs ++ '\n' :: rest) tokens fault := by
  induction h with
  | finished => exact absurd rfl hfault
  | @stuck position gap after c hgap hblank hcomment hnone =>
    have hgap' := hgap.append_newline rest
    rw [List.append_assoc]
    refine .stuck hgap' hblank hcomment fun kind lexeme hspells hfront => ?_
    exact hnone kind lexeme hspells ((hspells.prefix_append_newline (c :: after) rest).mp hfront)
  | @token position gap lexeme after kind tokens fault hgap hlongest _ ih =>
    have hgap' := hgap.append_newline rest
    have hlongest' := hlongest.append_newline rest
    rw [List.append_assoc] at hgap' hlongest'
    rw [List.append_assoc, List.append_assoc]
    exact .token hgap' hlongest' (ih hfault)

/-- No token and no fault stands behind the end of the text. -/
lemma Decomposes.le_length (h : Decomposes position cs tokens fault) :
    (∀ t ∈ tokens, t.position ≤ position + cs.length) ∧ ∀ p ∈ fault, p ≤ position + cs.length := by
  induction h with
  | finished => simp
  | stuck => simp
  | @token position gap lexeme rest kind tokens fault _ _ _ ih =>
    obtain ⟨htokens, hfault⟩ := ih
    simp only [List.length_append]
    refine ⟨List.forall_mem_cons.mpr ⟨by dsimp only; omega, fun t ht => ?_⟩, fun p hp => ?_⟩
    · have hle := htokens t ht
      omega
    · have hle := hfault p hp
      omega

/-- The same token, so many characters further behind. -/
def Token.shift (n : Nat) (token : Token) : Token :=
  { token with position := token.position + n }

/-- A text further behind has its tokens further behind. -/
lemma Decomposes.shift (h : Decomposes position cs tokens fault) (n : Nat) :
    Decomposes (position + n) cs (tokens.map (.shift n)) (fault.map (· + n)) := by
  induction h with
  | finished hgap => exact .finished hgap
  | @stuck position gap rest c hgap hblank hcomment hnone =>
    show Decomposes (position + n) (gap ++ c :: rest) [] (some (position + gap.length + n))
    rw [add_right_comm]
    exact .stuck hgap hblank hcomment hnone
  | @token position gap lexeme rest kind tokens fault hgap hlongest _ ih =>
    rw [add_right_comm, add_right_comm position] at ih
    have htoken : Decomposes (position + n) (gap ++ (lexeme ++ rest)) _ _ := .token hgap hlongest ih
    rw [add_right_comm] at htoken
    exact htoken

lemma tokensFrom_add (position n : Nat) (cs : List Char) :
    tokensFrom (position + n) cs =
      ⟨(tokensFrom position cs).tokens.map (.shift n),
        (tokensFrom position cs).fault.map (· + n)⟩ :=
  ((decomposes_tokensFrom position cs).shift n).tokensFrom_eq

variable {s : List Char}

/-- **No token goes across a line feed.**  The tokens of the text behind it follow those of the text
before it. -/
theorem tokenize_append_newline (hs : (tokenize s).fault = none) (t : List Char) :
    tokenize (s ++ '\n' :: t) =
      ⟨(tokenize s).tokens ++ (tokenize t).tokens.map (.shift (s.length + 1)),
        (tokenize t).fault.map (· + (s.length + 1))⟩ := by
  have hboth := (decomposes_tokensFrom 0 s).tokensFrom_append_newline t hs
  rw [add_assoc, tokensFrom_add 0 (s.length + 1) t] at hboth
  exact hboth

lemma tokenize_append_newline_of_fault (hs : (tokenize s).fault ≠ none) (t : List Char) :
    tokenize (s ++ '\n' :: t) = tokenize s :=
  ((decomposes_tokensFrom 0 s).append_newline t hs).tokensFrom_eq

end Cutting

/-! ## Reading -/

/-- The same fault in another text, in which it stands so many characters further behind. -/
inductive Error.Moved (text text' : List Char) (n : Nat) : Error → Error → Prop
  | lexical {position : Nat} : position ≤ text.length →
      Moved text text' n (.lexicalAt text position) (.lexicalAt text' (position + n))
  | malformed {position : Nat} {fault : ReadFault} : position ≤ text.length →
      Moved text text' n (.atPosition text position fault) (.atPosition text' (position + n) fault)

/-- The text has ended too early. -/
inductive Error.AtEnd : Error → Prop
  | unexpectedEnd (place : Place) : AtEnd (.malformed (.reading .unexpectedEnd) place)
  | unclosedList (place : Place) : AtEnd (.malformed (.reading .unclosedList) place)

/-- A place in a text is the same if more text follows. -/
lemma place_append {text : List Char} {position : Nat} (h : position ≤ text.length)
    (more : List Char) : Place.ofPosition (text ++ more) position = .ofPosition text position := by
  simp only [Place.ofPosition, Text.coordinateAt, List.take_append_of_le_length h]

namespace Reading

variable {text text' more : List Char} {n limit : Nat} {before : List Datum} {r : Reading}
  {token : Token} {tokens : List Token}

/-- More text changes nothing for the tokens before it. -/
lemma next_append (h : token.position ≤ text.length) (limit : Nat) (more : List Char)
    (r : Reading) : next limit (text ++ more) r token = next limit text r token := by
  have hfault : Error.atPosition (text ++ more) token.position =
      .atPosition text token.position := by
    funext fault
    rw [Error.atPosition, Error.atPosition, place_append h]
  unfold next
  rw [hfault]

lemma foldlM_append_text (h : ∀ token ∈ tokens, token.position ≤ text.length) (limit : Nat)
    (more : List Char) (r : Reading) :
    tokens.foldlM (next limit (text ++ more)) r = tokens.foldlM (next limit text) r := by
  induction tokens generalizing r with
  | nil => rfl
  | cons token tokens ih =>
    obtain ⟨hfirst, hrest⟩ := List.forall_mem_cons.mp h
    rw [List.foldlM_cons, List.foldlM_cons, next_append hfirst]
    exact congrArg _ (funext fun r => ih hrest r)

/-- A reading with some data that were complete before. -/
def after (before : List Datum) (r : Reading) : Reading :=
  { r with done := r.done ++ before }

lemma complete_after (before done : List Datum) (d : Datum) (opened : List Opened) :
    complete (done ++ before) d opened = (complete done d opened).after before := by
  induction opened generalizing d with
  | nil => rfl
  | cons inner outer ih =>
    cases inner with
    | quote => exact ih d.quoted
    | list items => rfl
    | dotted items behind => rfl

lemma simple_after (before : List Datum) (r : Reading) (token : Token) :
    (r.after before).simple token = (r.simple token).map (after before) := by
  unfold simple
  cases atomOf token with
  | error fault => rfl
  | ok a => exact congrArg Except.ok (complete_after before r.done (.atom a) r.opened)

lemma close_after (before : List Datum) (r : Reading) (token : Token) :
    (r.after before).close token = (r.close token).map (after before) := by
  obtain ⟨done, opened⟩ := r
  match opened with
  | .list items :: outer =>
    exact congrArg Except.ok (complete_after before done (.ofList items.reverse .nil) outer)
  | .dotted items [last] :: outer =>
    exact congrArg Except.ok (complete_after before done (.ofList items.reverse last) outer)
  | .dotted _ [] :: _ | .dotted _ (_ :: _ :: _) :: _ => rfl
  | [] | .quote :: _ => rfl

lemma dot_after (before : List Datum) (r : Reading) (token : Token) :
    (r.after before).dot token = (r.dot token).map (after before) := by
  obtain ⟨done, opened⟩ := r
  match opened with
  | .list items :: outer | .dotted items behind :: outer => rfl
  | [] | .quote :: outer => exact simple_after before _ token

/-- A step of reading one text goes as the step of reading another one, in which it happens further
behind and gives what `f` says. -/
inductive Resumes {α : Type} (text text' : List Char) (n : Nat) (f : α → α) :
    Except Error α → Except Error α → Prop
  | ok (a : α) : Resumes text text' n f (.ok a) (.ok (f a))
  | moved {e e' : Error} : e.Moved text text' n e' → Resumes text text' n f (.error e) (.error e')
  | tooDeep : Resumes text text' n f (.error .tooDeep) (.error .tooDeep)

lemma Resumes.bind {α β : Type} {f : α → α} {g : β → β} {x x' : Except Error α}
    {k k' : α → Except Error β} (hx : Resumes text text' n f x x')
    (hk : ∀ a, Resumes text text' n g (k a) (k' (f a))) :
    Resumes text text' n g (x >>= k) (x' >>= k') := by
  cases hx with
  | ok a => exact hk a
  | moved he => exact .moved he
  | tooDeep => exact .tooDeep

lemma Resumes.eq_ok {α : Type} {f : α → α} {x x' : Except Error α} {a : α}
    (h : Resumes text text' n f x x') (hx : x = .ok a) : x' = .ok (f a) := by
  cases h with
  | ok a' =>
    cases hx
    rfl
  | moved | tooDeep => cases hx

lemma Resumes.exists_moved {α : Type} {f : α → α} {x x' : Except Error α} {e : Error}
    (h : Resumes text text' n f x x') (hx : x = .error e) (hdeep : e ≠ .tooDeep) :
    ∃ e', x' = .error e' ∧ e.Moved text text' n e' := by
  cases h with
  | ok a => cases hx
  | moved hmoved =>
    cases hx
    exact ⟨_, rfl, hmoved⟩
  | tooDeep =>
    cases hx
    exact absurd rfl hdeep

lemma resumes_push (limit : Nat) (inner : Opened) (r : Reading) :
    Resumes text text' n (after before) (r.push limit inner)
      ((r.after before).push limit inner) := by
  have hopened : (r.after before).opened = r.opened := rfl
  unfold push
  rw [hopened]
  split
  · exact .ok _
  · exact .tooDeep

lemma resumes_mapError {position : Nat} {y y' : Except ReadFault Reading}
    (h : position ≤ text.length) (heq : y' = y.map (after before)) :
    Resumes text text' n (after before) (y.mapError (.atPosition text position))
      (y'.mapError (.atPosition text' (position + n))) := by
  subst heq
  cases y with
  | ok r => exact .ok r
  | error fault => exact .moved (.malformed h)

lemma resumes_next (h : token.position ≤ text.length) (limit : Nat) (r : Reading) :
    Resumes text text' n (after before) (next limit text r token)
      (next limit text' (r.after before) (token.shift n)) := by
  have hsingle : Resumes text text' n (after before)
      ((if token.isDot then r.dot token else r.simple token).mapError
        (.atPosition text token.position))
      ((if token.isDot then (r.after before).dot token else (r.after before).simple token).mapError
        (.atPosition text' (token.position + n))) := by
    refine resumes_mapError h ?_
    rw [dot_after, simple_after, apply_ite (Except.map (after before))]
  have hshift : (token.shift n).kind = token.kind := rfl
  cases hkind : token.kind with
  | lparen =>
    rw [next_lparen hkind, next_lparen (hshift.trans hkind)]
    exact resumes_push limit _ r
  | quote =>
    rw [next_quote hkind, next_quote (hshift.trans hkind)]
    exact resumes_push limit _ r
  | rparen =>
    rw [next_rparen hkind, next_rparen (hshift.trans hkind)]
    exact resumes_mapError h (close_after before r token)
  | boolean | number | identifier | string =>
    unfold next
    rw [hshift, hkind]
    exact hsingle

lemma resumes_foldlM (h : ∀ token ∈ tokens, token.position ≤ text.length) (limit : Nat)
    (r : Reading) :
    Resumes text text' n (after before) (tokens.foldlM (next limit text) r)
      ((tokens.map (.shift n)).foldlM (next limit text') (r.after before)) := by
  induction tokens generalizing r with
  | nil => exact .ok r
  | cons token tokens ih =>
    obtain ⟨hfirst, hrest⟩ := List.forall_mem_cons.mp h
    rw [List.map_cons, List.foldlM_cons, List.foldlM_cons]
    exact (resumes_next hfirst limit r).bind fun r => ih hrest r

/-- There are no more tokens: the text ends, or it cannot be cut any further. -/
def conclude (text : List Char) (fault : Option Nat) (r : Reading) : Except Error (List Datum) :=
  match fault with
  | some position => .error (.lexicalAt text position)
  | none => r.finish text

lemma resumes_conclude {fault : Option Nat} (hlength : text'.length = text.length + n)
    (h : ∀ p ∈ fault, p ≤ text.length) (before : List Datum) (r : Reading) :
    Resumes text text' n (before.reverse ++ ·) (r.conclude text fault)
      ((r.after before).conclude text' (fault.map (· + n))) := by
  obtain ⟨done, opened⟩ := r
  match fault, opened with
  | some position, _ => exact .moved (.lexical (h position rfl))
  | none, [] =>
    show Resumes text text' n (before.reverse ++ ·) (.ok done.reverse)
      (.ok (done ++ before).reverse)
    rw [List.reverse_append]
    exact .ok _
  | none, .quote :: _ | none, .list _ :: _ | none, .dotted .. :: _ =>
    unfold conclude finish
    rw [hlength]
    exact .moved (.malformed le_rfl)

lemma atEnd_of_finish {e : Error} (h : r.finish text = .error e) : e.AtEnd := by
  unfold finish at h
  split at h
  · cases h
  · cases h
    exact .unexpectedEnd _
  · cases h
    exact .unclosedList _

end Reading

/-! ## Whole texts -/

section Texts

variable {limit : Nat} {s : List Char} {ds : List Datum} {e : Error}

lemma read_eq {cut : Tokens} (h : tokenize s = cut) (limit : Nat) :
    read limit s =
      cut.tokens.foldlM (Reading.next limit s) .empty >>= Reading.conclude s cut.fault := by
  subst h
  rfl

/-- All tokens are read, and then nothing is open and the text has no fault. -/
lemma read_eq_ok (h : read limit s = .ok ds) :
    (tokenize s).tokens.foldlM (Reading.next limit s) .empty = .ok ⟨ds.reverse, []⟩ ∧
      (tokenize s).fault = none := by
  rw [read_eq rfl] at h
  obtain ⟨⟨done, opened⟩, hfold, hconclude⟩ := bind_eq_ok.mp h
  match hfault : (tokenize s).fault, opened with
  | some _, _ | none, .quote :: _ | none, .list _ :: _ | none, .dotted .. :: _ =>
    rw [hfault] at hconclude
    cases hconclude
  | none, [] =>
    rw [hfault] at hconclude
    cases hconclude
    rw [List.reverse_reverse]
    exact ⟨hfold, rfl⟩

/-- The tokens of a text that is followed by another one are read as if it stood alone. -/
lemma foldlM_tokens_append_newline (limit : Nat) (s t : List Char) :
    (tokenize s).tokens.foldlM (Reading.next limit (s ++ '\n' :: t)) .empty =
      (tokenize s).tokens.foldlM (Reading.next limit s) .empty := by
  have hle := (decomposes_tokensFrom 0 s).le_length.1
  rw [zero_add] at hle
  exact Reading.foldlM_append_text hle limit _ _

/-- **The text behind a text that can be read is read as if it stood alone**, and its data follow
those before. -/
theorem resumes_read (h : read limit s = .ok ds) (t : List Char) :
    Reading.Resumes t (s ++ '\n' :: t) (s.length + 1) (ds ++ ·) (read limit t)
      (read limit (s ++ '\n' :: t)) := by
  obtain ⟨hfold, hfault⟩ := read_eq_ok h
  obtain ⟨htokens, hposition⟩ := (decomposes_tokensFrom 0 t).le_length
  rw [zero_add] at htokens hposition
  have hlength : (s ++ '\n' :: t).length = t.length + (s.length + 1) := by simp; omega
  rw [read_eq rfl limit, read_eq (tokenize_append_newline hfault t) limit,
    Reading.foldlM_next_append ((foldlM_tokens_append_newline limit s t).trans hfold)]
  refine (Reading.resumes_foldlM htokens limit .empty).bind fun r => ?_
  have hconclude := Reading.resumes_conclude hlength hposition ds.reverse r
  rwa [List.reverse_reverse] at hconclude

/-- A text in which something is wrong is refused for it whatever follows, unless it only ends too
early. -/
theorem read_append_newline_of_error (h : read limit s = .error e) (hend : ¬e.AtEnd)
    (t : List Char) : read limit (s ++ '\n' :: t) = .error e := by
  have hfold := foldlM_tokens_append_newline limit s t
  obtain ⟨hle, hposition⟩ := (decomposes_tokensFrom 0 s).le_length
  rw [read_eq rfl] at h
  cases hfault : (tokenize s).fault with
  | none =>
    -- the tokens themselves are refused
    rw [hfault] at h
    have herror := (bind_eq_error.mp h).resolve_right fun ⟨r, _, hfinish⟩ =>
      hend (Reading.atEnd_of_finish hfinish)
    rw [read_eq (tokenize_append_newline hfault t), List.foldlM_append, hfold, herror]
    rfl
  | some position =>
    have hplace : Error.lexicalAt (s ++ '\n' :: t) position = .lexicalAt s position := by
      have hle : position ≤ s.length := by simpa using hposition position hfault
      rw [Error.lexicalAt, Error.lexicalAt, place_append hle]
    rw [read_eq (tokenize_append_newline_of_fault (by simp [hfault]) t), hfold, ← h, hfault]
    refine congrArg _ (funext fun r => ?_)
    exact congrArg Except.error hplace

/-! ## Limits that are large enough -/

/-- The text is read in this way, unless the limit is too small. -/
def Reads (text : List Char) (r : Except Error (List Datum)) : Prop :=
  r ≠ .error .tooDeep ∧ ∃ limit, read limit text = r

/-- A text is read in one way only, and any limit is large enough that is not smaller than the
number of its characters. -/
theorem reads_iff {text : List Char} {r : Except Error (List Datum)}
    (hlimit : text.length ≤ limit) : Reads text r ↔ read limit text = r := by
  have hroom : read limit text ≠ .error .tooDeep := fun hdeep => by
    rcases read_error hdeep hlimit with ⟨_, h⟩ | ⟨_, _, h⟩ <;> cases h
  constructor
  · rintro ⟨hr, smaller, rfl⟩
    exact (read_mono (le_max_right smaller limit) hroom).symm.trans
      (read_mono (le_max_left smaller limit) hr)
  · rintro rfl
    exact ⟨hroom, limit, rfl⟩

/-- **A text can be read line by line.**  If a text can be read, then whatever comes after it on a
new line is read as if it stood alone: its data follow those of the first text, and a fault in it is
the same fault, as many characters further behind as there are before it.  If something else is
wrong with a text than that it ends too early, this is the error whatever comes after it, be it
tokens or not. -/
theorem read_next_line (s t : List Char) :
    (∀ ds es, Reads s (.ok ds) → Reads t (.ok es) → Reads (s ++ '\n' :: t) (.ok (ds ++ es))) ∧
    (∀ ds e, Reads s (.ok ds) → Reads t (.error e) →
      ∃ e', Reads (s ++ '\n' :: t) (.error e') ∧ e.Moved t (s ++ '\n' :: t) (s.length + 1) e') ∧
    ∀ e, Reads s (.error e) → ¬e.AtEnd → Reads (s ++ '\n' :: t) (.error e) := by
  have hs : s.length ≤ (s ++ '\n' :: t).length := by simp
  have ht : t.length ≤ (s ++ '\n' :: t).length := by simp; omega
  simp only [reads_iff hs, reads_iff ht, reads_iff (le_refl (s ++ '\n' :: t).length)]
  refine ⟨fun ds es hds hes => ?_, fun ds e hds he => ?_, fun e he hend => ?_⟩
  · exact (resumes_read hds t).eq_ok hes
  · have hdeep : e ≠ .tooDeep := fun hdeep => ((reads_iff ht).mpr he).1 (congrArg _ hdeep)
    exact (resumes_read hds t).exists_moved he hdeep
  · exact read_append_newline_of_error he hend t

/-- The data of `a` and `(b)` follow each other.  The bracket `)` is refused on the second line as
it is on the first one, and there it is refused even if the second line cannot be cut. -/
theorem read_next_line_brackets :
    Reads "a\n(b)".toList (.ok [.symbol ⟨"a"⟩, .ofList [.symbol ⟨"b"⟩] .nil]) ∧
    (∃ e, Reads "a\n)".toList (.error e) ∧
      (Error.atPosition ")".toList 0 (.unexpectedToken ")")).Moved ")".toList "a\n)".toList 2 e) ∧
    Reads ")\n#".toList (.error (.atPosition ")".toList 0 (.unexpectedToken ")"))) := by
  have ha : Reads "a".toList (.ok [.symbol ⟨"a"⟩]) :=
    (reads_iff le_rfl).mpr (by decide +kernel)
  have hb : Reads "(b)".toList (.ok [.ofList [.symbol ⟨"b"⟩] .nil]) :=
    (reads_iff le_rfl).mpr (by decide +kernel)
  have hbracket : Reads ")".toList (.error (.atPosition ")".toList 0 (.unexpectedToken ")"))) :=
    (reads_iff le_rfl).mpr (by decide +kernel)
  exact ⟨(read_next_line "a".toList "(b)".toList).1 _ _ ha hb,
    (read_next_line "a".toList ")".toList).2.1 _ _ ha hbracket,
    (read_next_line ")".toList "#".toList).2.2 _ hbracket nofun⟩

end Texts

end SmallScheme
