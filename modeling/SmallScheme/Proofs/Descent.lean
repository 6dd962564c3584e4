import SmallScheme.Proofs.Cutting
import SmallScheme.Proofs.GrammarReading
import SmallScheme.Proofs.NextLine
import SmallScheme.Token.Cursor

/-!
# Reading by recursive descent

The rules of the grammar, as procedures that call each other and move a cursor: `datum` reads one
datum, `rest` the rest of a list, and `file` all data of a text.  A list keeps its data in order,
and the number of those before the point.  Whatever a rule asks for, the present token, the last
datum of a list or the symbol of a name, may be missing, and the host answers for it.  The text is
cut by alternatives before (`Cutting.cut`).

The rules nest as deeply as lists and quotations do, which `room` bounds; `steps` bounds how many
rules may be applied one inside the other, and is never used up.  The main result is
`Descent.read_eq`: read by recursive descent, each text gives the same data or the same error as
before, whatever the host answers for missing parts.
-/

namespace SmallScheme

namespace Cursor

/-- The tokens from the present one on. -/
def ahead (c : Cursor) : List Token :=
  c.current.toList ++ c.later

/-- The cursor stands on a token as long as there are any, and all tokens are spelled properly. -/
structure Sound (c : Cursor) : Prop where
  ended : c.current = none → c.later = [] ∧ c.fault = none
  spells : ∀ token ∈ c.ahead, token.kind.Spells token.text.toList

end Cursor

namespace Descent

open Access Reading

section Definitions

variable (missing : HostFault → Error)

/-- Asks for a token of a kind. -/
def expect (kind : TokenKind) (c : Cursor) : Except Error Cursor := do
  if c.current.isNone then throw (.atPosition c.text c.text.length (.expected kind.name none))
  let token ← need missing .missingAttribute c.current
  if token.kind = kind then c.advance
  else throw (.atPosition c.text token.position (.expected kind.name (some token)))

/-- The atom of a token that is a datum by itself. -/
def atom (text : List Char) (token : Token) : Except Error Atom :=
  match token.kind with
  | .boolean => return .bool (token.text == "#t")
  | .number =>
    match Numeral.read? token.text.toList with
    | some n => return .number n
    | none => throw (.atPosition text token.position .invalidNumber)
  | .identifier => return .symbol (← need missing .badValue (Symbol.ofName? token.text))
  | .string => return .text (String.ofList (token.text.toList.drop 1).dropLast)
  | _ => throw (.atPosition text token.position (.unexpectedToken token.text))

/-- A datum that is a single token. -/
def single (c : Cursor) : Except Error (Datum × Cursor) := do
  let token ← need missing .missingAttribute c.current
  let a ← atom missing c.text token
  return (.atom a, ← c.advance)

/-- The end of a list with the given data. -/
def closing (items : List Datum) (dot : Option Nat) (c : Cursor) :
    Except Error (Datum × Cursor) := do
  let token ← need missing .missingAttribute c.current
  match dot with
  | none => do
    let c ← expect missing .rparen c
    return (.ofList items .nil, c)
  | some n =>
    if n + 1 = items.length then
      let c ← expect missing .rparen c
      return (.ofList items.dropLast (← last missing items), c)
    else throw (.atPosition c.text token.position .misplacedDot)

mutual

/-- A datum. -/
def datum : Nat → Nat → Cursor → Except Error (Datum × Cursor)
  | 0, _, _ => throw .tooDeep
  | steps + 1, room, c => do
    if c.current.isNone then throw (.atPosition c.text c.text.length .unexpectedEnd)
    let token ← need missing .missingAttribute c.current
    match token.kind with
    | .lparen =>
      match room with
      | 0 => throw .tooDeep
      | room + 1 => rest steps room [] none (← expect missing .lparen c)
    | .quote =>
      match room with
      | 0 => throw .tooDeep
      | room + 1 => do
        let (d, c) ← datum steps room (← expect missing .quote c)
        return (d.quoted, c)
    | _ => single missing c

/-- The rest of a list, after the given data; `dot` is the number of those before the point. -/
def rest : Nat → Nat → List Datum → Option Nat → Cursor → Except Error (Datum × Cursor)
  | 0, _, _, _, _ => throw .tooDeep
  | steps + 1, room, items, dot, c => do
    if c.current.isNone then throw (.atPosition c.text c.text.length .unclosedList)
    let token ← need missing .missingAttribute c.current
    if token.kind = .rparen then closing missing items dot c
    else if token.isDot then
      if dot.isSome then throw (.atPosition c.text token.position .repeatedDot)
      else rest steps room items (some items.length) (← c.advance)
    else
      let (d, c) ← datum steps room c
      rest steps room (items ++ [d]) dot c

end

/-- All data of a text, after those read so far, the last one first. -/
def file (limit : Nat) : Nat → List Datum → Cursor → Except Error (List Datum)
  | 0, _, _ => throw .tooDeep
  | steps + 1, done, c => do
    if c.current.isNone then return done.reverse
    let (d, c) ← datum missing steps limit c
    file limit steps (d :: done) c

/-- The data of a text.  Each character is cut off in a step at most, and each token is read with
two rules at most. -/
def read (limit : Nat) (text : List Char) : Except Error (List Datum) := do
  let cut ← Cutting.cut missing (text.length + 1) 0 text
  let c ← Cursor.advance ⟨text, none, cut.tokens, cut.fault⟩
  file missing limit (2 * cut.tokens.length + 2) [] c

end Definitions

/-! ## The stack of what is open -/

/-- What is open while a list is read: its data, and how many of them stand before the point. -/
def inner (items : List Datum) : Option Nat → Opened
  | none => .list items.reverse
  | some n => .dotted (items.take n).reverse (items.drop n).reverse

/-- Reads on from a cursor. -/
def resume (limit : Nat) (c : Cursor) (r : Reading) : Except Error (List Datum) :=
  c.ahead.foldlM (next limit c.text) r >>= conclude c.text c.fault

/-- A rule reads one datum from the cursor on, which goes where `f` says: reading on behind it is
the same as reading on from here.  Fewer than `n` tokens are left. -/
inductive Reads (limit n : Nat) (c : Cursor) (r : Reading) (f : Datum → Reading) :
    Except Error (Datum × Cursor) → Prop
  | ok {d : Datum} {c' : Cursor} : c'.Sound → c'.text = c.text → c'.ahead.length < n →
      resume limit c r = resume limit c' (f d) → Reads limit n c r f (.ok (d, c'))
  | error {e : Error} : resume limit c r = .error e → Reads limit n c r f (.error e)

section Rules

variable {limit n : Nat} {c : Cursor} {r r' : Reading} {token : Token} {f : Datum → Reading}
  {x : Except Error (Datum × Cursor)}

lemma ahead_eq (h : c.current = some token) : c.ahead = token :: c.later := by
  simp [Cursor.ahead, h]

/-- At the end of a text, reading ends. -/
lemma resume_end (hc : c.Sound) (h : c.current = none) : resume limit c r = r.finish c.text := by
  obtain ⟨hlater, hfault⟩ := hc.ended h
  simp [resume, Cursor.ahead, h, hlater, hfault, conclude]

/-- A token is read, and then the tokens behind it. -/
lemma resume_token (limit : Nat) (r : Reading) (h : c.current = some token) :
    resume limit c r = next limit c.text r token >>= fun r' =>
      c.later.foldlM (next limit c.text) r' >>= conclude c.text c.fault := by
  rw [resume, ahead_eq h, List.foldlM_cons, bind_assoc]

/-- The cursor moves on to the tokens behind it, unless the text cannot be cut there. -/
lemma advance_cases (hspells : ∀ t ∈ c.later, t.kind.Spells t.text.toList) :
    (∃ c', c.advance = .ok c' ∧ c'.Sound ∧ c'.text = c.text ∧ c'.fault = c.fault ∧
      c'.ahead = c.later) ∨
    ∃ position, c.advance = .error (.lexicalAt c.text position) ∧ c.later = [] ∧
      c.fault = some position := by
  unfold Cursor.advance
  cases hlater : c.later with
  | cons first later =>
    rw [hlater] at hspells
    exact .inl ⟨_, rfl, ⟨nofun, hspells⟩, rfl, rfl, rfl⟩
  | nil =>
    cases hfault : c.fault with
    | none =>
      exact .inl ⟨_, rfl, ⟨fun _ => ⟨rfl, rfl⟩, by simp [Cursor.ahead]⟩, rfl, rfl, rfl⟩
    | some position => exact .inr ⟨position, rfl, rfl, rfl⟩

/-- A rule that reads a datum from a later cursor on reads it from this one on. -/
lemma Reads.of_later {c' : Cursor} (hx : Reads limit n c' r' f x) (htext : c'.text = c.text)
    (heq : resume limit c r = resume limit c' r') : Reads limit n c r f x := by
  cases hx with
  | ok hc htext' hlt heq' => exact .ok hc (htext'.trans htext) hlt (heq.trans heq')
  | error herror => exact .error (heq.trans herror)

/-- A token is read, the cursor moves on, and reading goes on there. -/
lemma Reads.advance (r' : Reading) {k : Cursor → Except Error (Datum × Cursor)} (hc : c.Sound)
    (h : c.current = some token) (hnext : next limit c.text r token = .ok r')
    (hk : ∀ c', c'.Sound → c'.text = c.text → c'.ahead.length + 1 = c.ahead.length →
      Reads limit n c' r' f (k c')) :
    Reads limit n c r f (c.advance >>= k) := by
  have hresume := resume_token limit r h
  rw [hnext] at hresume
  have hspells : ∀ t ∈ c.later, t.kind.Spells t.text.toList := fun t ht =>
    hc.spells t (by rw [ahead_eq h]; exact List.mem_cons_of_mem _ ht)
  rcases advance_cases hspells with
    ⟨c', hadvance, hc', htext, hfault, hahead⟩ | ⟨position, hadvance, hlater, hfault⟩
  · rw [hadvance]
    have hlength : c'.ahead.length + 1 = c.ahead.length := by
      rw [hahead, ahead_eq h, List.length_cons]
    refine (hk c' hc' htext hlength).of_later htext ?_
    rw [hresume, resume, hahead, htext, hfault]
    rfl
  · rw [hadvance]
    refine .error ?_
    rw [hresume, hlater, hfault]
    rfl

lemma Reads.error_of_next {e : Error} (h : c.current = some token)
    (hnext : next limit c.text r token = .error e) : Reads limit n c r f (.error e) := by
  refine .error ?_
  rw [resume_token limit r h, hnext]
  rfl

lemma Reads.mono {m : Nat} (hx : Reads limit m c r f x) (hle : m ≤ n) : Reads limit n c r f x := by
  cases hx with
  | ok hc htext hlt heq => exact .ok hc htext (hlt.trans_le hle) heq
  | error herror => exact .error herror

lemma Reads.map {g : Datum → Reading} {m : Datum → Datum} (hx : Reads limit n c r f x)
    (hfg : ∀ d, f d = g (m d)) :
    Reads limit n c r g (x >>= fun (d, c) => pure (m d, c)) := by
  cases hx with
  | ok hc htext hlt heq => exact .ok hc htext hlt (heq.trans (by rw [hfg]))
  | error herror => exact .error herror

lemma Reads.bind {m : Nat} {g : Datum → Reading}
    {k : Datum → Cursor → Except Error (Datum × Cursor)}
    (hx : Reads limit m c r f x)
    (hk : ∀ d c', c'.Sound → c'.text = c.text → c'.ahead.length < m →
      Reads limit n c' (f d) g (k d c')) :
    Reads limit n c r g (x >>= fun (d, c) => k d c) := by
  cases hx with
  | error herror => exact .error herror
  | @ok d c' hc htext hlt heq => exact (hk d c' hc htext hlt).of_later htext heq

end Rules

/-! ## The rules do what the stack does -/

section Agreement

variable (missing : HostFault → Error) {limit : Nat} {c : Cursor} {token : Token}
  {done : List Datum} {opened : List Opened}

/-- A token that is there and of the right kind is found. -/
lemma expect_eq {kind : TokenKind} (h : c.current = some token) (hkind : token.kind = kind) :
    expect missing kind c = c.advance := by
  simp [expect, h, hkind]

/-- An identifier has a name, so there is a symbol for it. -/
lemma atom_eq (text : List Char) (h : token.kind.Spells token.text.toList) :
    atom missing text token = (atomOf token).mapError (.atPosition text token.position) := by
  unfold atom atomOf
  cases hkind : token.kind with
  | number => cases Numeral.read? token.text.toList <;> rfl
  | identifier =>
    have hname : token.text.isEmpty = false := by
      simpa using h.ne_nil
    simp only [Symbol.ofName?, hname]
    rfl
  | _ => rfl

/-- Outside of lists, points and closing parentheses are nothing special. -/
lemma next_of_simple (limit : Nat) (text : List Char) (done : List Datum)
    (hkind : token.kind ≠ .lparen ∧ token.kind ≠ .quote)
    (hopened : InList opened → token.kind ≠ .rparen ∧ token.isDot = false) :
    next limit text ⟨done, opened⟩ token =
      (Reading.simple ⟨done, opened⟩ token).mapError (.atPosition text token.position) := by
  by_cases hright : token.kind = .rparen
  · have hout : ¬InList opened := fun hin => (hopened hin).1 hright
    rw [next_rparen hright]
    match opened with
    | [] | .quote :: _ => simp [close, Reading.simple, atomOf, hright]
    | .list _ :: _ | .dotted _ _ :: _ => exact absurd (by simp) hout
  · by_cases hdot : token.isDot = true
    · have hout : ¬InList opened := fun hin => by simp [(hopened hin).2] at hdot
      rw [next_dot hdot]
      match opened with
      | [] | .quote :: _ => rfl
      | .list _ :: _ | .dotted _ _ :: _ => exact absurd (by simp) hout
    · unfold next
      split
      · exact absurd (by assumption) hkind.1
      · exact absurd (by assumption) hkind.2
      · exact absurd (by assumption) hright
      · rw [if_neg hdot]

lemma reads_single (hc : c.Sound) (h : c.current = some token)
    (hkind : token.kind ≠ .lparen ∧ token.kind ≠ .quote)
    (hopened : InList opened → token.kind ≠ .rparen ∧ token.isDot = false) :
    Reads limit c.ahead.length c ⟨done, opened⟩ (complete done · opened) (single missing c) := by
  have hnext := next_of_simple limit c.text done hkind hopened
  have hspells : token.kind.Spells token.text.toList := hc.spells token (by simp [ahead_eq h])
  unfold single
  rw [h, need_some, pure_bind, atom_eq missing c.text hspells]
  cases hatom : atomOf token with
  | error fault =>
    refine .error_of_next h ?_
    rw [hnext, Reading.simple, hatom]
    rfl
  | ok a =>
    refine .advance (complete done (.atom a) opened) hc h ?_ fun c' hc' htext hlength =>
      .ok hc' rfl (by omega) rfl
    rw [hnext, Reading.simple, hatom]
    rfl

/-- A datum in a list goes behind those that are there. -/
lemma complete_inner {items : List Datum} {dot : Option Nat} (hdot : ∀ n ∈ dot, n ≤ items.length)
    (d : Datum) (outer : List Opened) :
    complete done d (inner items dot :: outer) = ⟨done, inner (items ++ [d]) dot :: outer⟩ := by
  cases dot with
  | none => simp [inner, complete]
  | some n =>
    have hn := hdot n rfl
    simp [inner, complete, List.take_append_of_le_length hn, List.drop_append_of_le_length hn]

lemma close_dotted {before behind : List Datum} {outer : List Opened} (h : behind.length ≠ 1) :
    close ⟨done, .dotted before behind :: outer⟩ token = .error .misplacedDot := by
  match behind with
  | [] | _ :: _ :: _ => rfl
  | [_] => exact absurd rfl h

lemma reads_closing {items : List Datum} {dot : Option Nat} {outer : List Opened} (hc : c.Sound)
    (h : c.current = some token) (hkind : token.kind = .rparen)
    (hdot : ∀ n ∈ dot, n ≤ items.length) :
    Reads limit c.ahead.length c ⟨done, inner items dot :: outer⟩ (complete done · outer)
      (closing missing items dot c) := by
  have hadvance {d : Datum}
      (hclose : close ⟨done, inner items dot :: outer⟩ token = .ok (complete done d outer)) :
      Reads limit c.ahead.length c ⟨done, inner items dot :: outer⟩ (complete done · outer)
        (c.advance >>= fun c => pure (d, c)) := by
    refine .advance (complete done d outer) hc h ?_ fun c' hc' htext hlength =>
      .ok hc' rfl (by omega) rfl
    rw [next_rparen hkind, hclose]
    rfl
  unfold closing
  rw [h, need_some, pure_bind]
  simp only [expect_eq missing h hkind]
  cases dot with
  | none => exact hadvance (by simp [inner, close])
  | some n =>
    have hn := hdot n rfl
    by_cases hlast : n + 1 = items.length
    · -- exactly one datum is behind the point
      obtain ⟨before, d, rfl⟩ := items.eq_nil_or_concat'.resolve_left (by rintro rfl; simp at hlast)
      obtain rfl : n = before.length := by simpa using hlast
      have hclose : close ⟨done, inner (before ++ [d]) (some before.length) :: outer⟩ token =
          .ok (complete done (.ofList before d) outer) := by
        simp [inner, close]
      dsimp only
      rw [if_pos hlast]
      simp only [last_concat, List.dropLast_concat, pure_bind]
      exact hadvance hclose
    · dsimp only
      rw [if_neg hlast]
      refine .error_of_next h ?_
      have hlength : (items.drop n).reverse.length ≠ 1 := by
        rw [List.length_reverse, List.length_drop]
        omega
      have hclose : close ⟨done, inner items (some n) :: outer⟩ token = .error .misplacedDot :=
        close_dotted hlength
      rw [next_rparen hkind, hclose]
      rfl

/-- With so many steps a datum is read, wherever one is expected. -/
def DatumReads (limit steps : Nat) : Prop :=
  ∀ (room : Nat) (done : List Datum) (opened : List Opened) {c : Cursor}, c.Sound →
    2 * c.ahead.length + 1 ≤ steps → room + opened.length = limit →
    (c.current = none → ∃ outer, opened = .quote :: outer) →
    (∀ token, c.current = some token → InList opened →
      token.kind ≠ .rparen ∧ token.isDot = false) →
    Reads limit c.ahead.length c ⟨done, opened⟩ (complete done · opened)
      (datum missing steps room c)

/-- With so many steps the rest of a list is read. -/
def RestReads (limit steps : Nat) : Prop :=
  ∀ (room : Nat) (items : List Datum) (dot : Option Nat) (done : List Datum)
    (outer : List Opened) {c : Cursor}, c.Sound → 2 * c.ahead.length + 2 ≤ steps →
    room + outer.length + 1 = limit → (∀ n ∈ dot, n ≤ items.length) →
    Reads limit c.ahead.length c ⟨done, inner items dot :: outer⟩ (complete done · outer)
      (rest missing steps room items dot c)

variable {missing} {steps : Nat}

lemma push_eq_error (inner : Opened) (h : limit ≤ opened.length) :
    (⟨done, opened⟩ : Reading).push limit inner = .error .tooDeep :=
  if_neg (not_lt.mpr h)

lemma datumReads_succ (hdatum : DatumReads missing limit steps)
    (hrest : RestReads missing limit steps) : DatumReads missing limit (steps + 1) := by
  intro room done opened c hc hsteps hroom hend hopened
  cases h : c.current with
  | none =>
    obtain ⟨outer, rfl⟩ := hend h
    simp only [datum, h]
    exact .error (resume_end hc h)
  | some token =>
    simp only [datum, h, Option.isNone_some, Bool.false_eq_true, if_false, need_some, pure_bind]
    cases hkind : token.kind with
    | lparen =>
      cases room with
      | zero => exact .error_of_next h ((next_lparen hkind).trans (push_eq_error _ (by omega)))
      | succ room =>
        have hpush : Reading.push limit (.list []) ⟨done, opened⟩ =
            .ok ⟨done, .list [] :: opened⟩ := push_eq_ok _ (by simp only; omega)
        simp only [expect_eq missing h hkind]
        refine .advance _ hc h ((next_lparen hkind).trans hpush) fun c' hc' _ hlength => ?_
        exact (hrest room [] none done opened hc' (by omega) (by omega) nofun).mono (by omega)
    | quote =>
      cases room with
      | zero => exact .error_of_next h ((next_quote hkind).trans (push_eq_error _ (by omega)))
      | succ room =>
        have hpush : Reading.push limit .quote ⟨done, opened⟩ = .ok ⟨done, .quote :: opened⟩ :=
          push_eq_ok _ (by simp only; omega)
        simp only [expect_eq missing h hkind]
        refine .advance _ hc h ((next_quote hkind).trans hpush) fun c' hc' _ hlength => ?_
        have hquoted := hdatum room done (.quote :: opened) hc' (by omega)
          (by rw [List.length_cons]; omega) (fun _ => ⟨_, rfl⟩)
          fun _ _ hin => absurd hin (not_inList_quote _)
        exact (hquoted.map (m := Datum.quoted) fun d => rfl).mono (by omega)
    | _ => exact reads_single missing hc h (by simp [hkind]) (hopened token h)

lemma restReads_succ (hdatum : DatumReads missing limit steps)
    (hrest : RestReads missing limit steps) : RestReads missing limit (steps + 1) := by
  intro room items dot done outer c hc hsteps hroom hdot
  cases h : c.current with
  | none =>
    simp only [rest, h]
    refine .error ((resume_end hc h).trans ?_)
    cases dot <;> rfl
  | some token =>
    simp only [rest, h, Option.isNone_some, Bool.false_eq_true, if_false, need_some, pure_bind]
    by_cases hright : token.kind = .rparen
    · rw [if_pos hright]
      exact reads_closing missing hc h hright hdot
    rw [if_neg hright]
    by_cases hpoint : token.isDot = true
    · rw [if_pos hpoint]
      cases dot with
      | some n => exact .error_of_next h ((next_dot hpoint).trans rfl)
      | none =>
        have hbefore : inner items (some items.length) = .dotted items.reverse [] := by
          simp [inner]
        refine .advance ⟨done, inner items (some items.length) :: outer⟩ hc h
          ((next_dot hpoint).trans ?_) fun c' hc' _ hlength => ?_
        · rw [hbefore]
          rfl
        · have hlist := hrest room items (some items.length) done outer hc' (by omega) hroom
            (by simp)
          exact hlist.mono (by omega)
    · rw [if_neg hpoint]
      have hopened (t : Token) (ht : c.current = some t) : t.kind ≠ .rparen ∧ t.isDot = false := by
        cases h.symm.trans ht
        exact ⟨hright, by simpa using hpoint⟩
      have hfirst := hdatum room done (inner items dot :: outer) hc (by omega)
        (by rw [List.length_cons]; omega) (by simp [h]) fun t ht _ => hopened t ht
      refine Reads.bind (k := fun d c => rest missing steps room (items ++ [d]) dot c) hfirst
        fun d c' hc' _ hlt => ?_
      rw [complete_inner hdot]
      have hlist := hrest room (items ++ [d]) dot done outer hc' (by omega) hroom fun n hn =>
        (hdot n hn).trans (by simp)
      exact hlist.mono hlt.le

lemma reads (missing : HostFault → Error) (limit steps : Nat) :
    DatumReads missing limit steps ∧ RestReads missing limit steps := by
  induction steps with
  | zero =>
    exact ⟨fun _ _ _ _ _ h => absurd h (by omega), fun _ _ _ _ _ _ _ h => absurd h (by omega)⟩
  | succ steps ih => exact ⟨datumReads_succ ih.1 ih.2, restReads_succ ih.1 ih.2⟩

/-- All data of a text are read, whatever was read before. -/
lemma file_eq (hc : c.Sound) (hsteps : 2 * c.ahead.length + 2 ≤ steps) :
    file missing limit steps done c = resume limit c ⟨done, []⟩ := by
  induction steps generalizing c done with
  | zero => omega
  | succ steps ih =>
    unfold file
    cases h : c.current with
    | none => exact (resume_end (r := ⟨done, []⟩) hc h).symm
    | some token =>
      have hfirst := (reads missing limit steps).1 limit done [] hc (by omega) rfl (by simp [h])
        fun _ _ hin => absurd hin not_inList_nil
      simp only [Option.isNone_some, Bool.false_eq_true, if_false]
      generalize datum missing steps limit c = x at hfirst
      cases hfirst with
      | error herror => exact herror.symm
      | ok hc' htext hlt heq => exact (ih hc' (by omega)).trans heq.symm

end Agreement

/-- **Reading by recursive descent is the same**, whatever the host answers for missing parts. -/
theorem read_eq (missing : HostFault → Error) (limit : Nat) (text : List Char) :
    read missing limit text = SmallScheme.read limit text := by
  let cut := tokenize text
  have hspells : ∀ t ∈ cut.tokens, t.kind.Spells t.text.toList := fun t ht =>
    spells_of_mem_tokensFrom ht
  have hread := SmallScheme.read_eq (s := text) rfl limit
  have hcut : Cutting.cut missing (text.length + 1) 0 text = .ok cut :=
    Cutting.cut_eq missing (Nat.lt_succ_self _)
  have hfile : read missing limit text =
      Cursor.advance ⟨text, none, cut.tokens, cut.fault⟩ >>= fun c =>
        file missing limit (2 * cut.tokens.length + 2) [] c := by
    rw [read, hcut]
    rfl
  rw [hread, hfile]
  rcases advance_cases (c := ⟨text, none, cut.tokens, cut.fault⟩) hspells with
    ⟨c, hadvance, hc, htext, hfault, hahead⟩ | ⟨position, hadvance, hnil, hfault⟩
  · have hsteps : 2 * c.ahead.length + 2 ≤ 2 * cut.tokens.length + 2 := by rw [hahead]
    rw [hadvance]
    refine (file_eq hc hsteps).trans ?_
    rw [resume, hahead, htext, hfault]
    rfl
  · simp only at hnil hfault
    rw [hadvance, hnil, hfault]
    rfl

end Descent

end SmallScheme
