import SmallScheme.Reading
import SmallScheme.Proofs.ExceptBind
import SmallScheme.Proofs.Grammar
import SmallScheme.Proofs.TokenText

/-!
# Reading accepts exactly the grammar

Reading keeps what is open on a stack, and the grammar is a set of rules without any stack.  The
two are compared in both directions:

* completeness (`foldlM_next_of_program`): the tokens of a program are read one by one into its
  data, whatever was read before, if the stack has room for them;
* soundness (`Accounts`): at any time the tokens read so far are a program followed by the
  beginnings of the lists and quotations that are still open.

The main result is `read_accepts_grammar`.
-/

namespace SmallScheme

/-- If the token is a decimal numeral, it is not too long to be read. -/
def Token.Fits (token : Token) : Prop :=
  token.kind = .number → ∀ ds, Numeral.Spelled .decimal ds token.text.toList →
    ds.length ≤ Numeral.maxDecimalDigits

namespace Reading

/-- What was opened last is a list. -/
def InList (opened : List Opened) : Prop :=
  ∃ inner ∈ opened.head?, inner ≠ .quote

@[simp] lemma not_inList_nil : ¬InList [] := by
  simp [InList]

@[simp] lemma not_inList_quote (outer : List Opened) : ¬InList (.quote :: outer) := by
  simp [InList]

@[simp] lemma inList_list (items : List Datum) (outer : List Opened) :
    InList (.list items :: outer) := by
  simp [InList]

@[simp] lemma inList_dotted (items after : List Datum) (outer : List Opened) :
    InList (.dotted items after :: outer) := by
  simp [InList]

/-! ## Single tokens -/

lemma atomOf_eq_ok {token : Token} {a : Atom} (h : AtomOf token a) (hfits : token.Fits) :
    atomOf token = .ok a := by
  cases h with
  | boolean hkind => simp [atomOf, hkind]
  | @number radix ds hkind hspelled =>
    have hshort : ¬Numeral.TooLong radix ds := by
      rintro ⟨rfl, hlong⟩
      exact absurd (hfits hkind ds hspelled) (not_le.mpr hlong)
    simp [atomOf, hkind, Numeral.read?_of_spelled hspelled, hshort]
  | identifier hkind => simp [atomOf, hkind]
  | string hkind htext => simp [atomOf, hkind, htext]

/-- What a token is taken for is its atom, and a numeral that was taken for a number fits. -/
lemma of_atomOf_eq_ok {token : Token} {a : Atom} (h : atomOf token = .ok a)
    (hspells : token.kind.Spells token.text.toList) : AtomOf token a ∧ token.Fits := by
  have fits_of_ne (hne : token.kind ≠ .number) : token.Fits := fun hkind => absurd hkind hne
  unfold atomOf at h
  split at h
  · rename_i hkind
    cases h
    exact ⟨.boolean hkind, fits_of_ne (by simp [hkind])⟩
  · rename_i hkind
    rw [hkind] at hspells
    obtain ⟨radix, ds, hspelled⟩ := hspells
    rw [Numeral.read?_of_spelled hspelled] at h
    split at h
    · rename_i hread
      cases h
      split at hread
      · simp at hread
      · rename_i hshort
        cases hread
        refine ⟨.number hkind hspelled, fun _ es hes => ?_⟩
        obtain ⟨rfl, rfl⟩ := hes.unique hspelled
        exact not_lt.mp fun hlong => hshort ⟨rfl, hlong⟩
    · simp at h
  · rename_i hkind
    cases h
    exact ⟨.identifier hkind, fits_of_ne (by simp [hkind])⟩
  · rename_i hkind
    rw [hkind] at hspells
    obtain ⟨body, htext, -⟩ := hspells
    cases h
    refine ⟨?_, fits_of_ne (by simp [hkind])⟩
    have hbody : (token.text.toList.drop 1).dropLast = body := by simp [htext]
    rw [hbody]
    exact .string hkind htext
  · simp at h

section Next

variable {limit : Nat} {text : List Char} {r : Reading} {token : Token}

lemma push_eq_ok (inner : Opened) (h : r.opened.length < limit) :
    r.push limit inner = .ok ⟨r.done, inner :: r.opened⟩ := by
  simp [push, h]

lemma next_lparen (h : token.kind = .lparen) :
    next limit text r token = r.push limit (.list []) := by
  simp [next, h]

lemma next_quote (h : token.kind = .quote) :
    next limit text r token = r.push limit .quote := by
  simp [next, h]

lemma next_rparen (h : token.kind = .rparen) :
    next limit text r token = (r.close token).mapError (.atPosition text token.position) := by
  simp [next, h]

lemma next_dot (h : token.isDot = true) :
    next limit text r token = (r.dot token).mapError (.atPosition text token.position) := by
  simp [next, Token.kind_of_isDot h, h]

/-- A token that is a datum by itself, other than a point directly inside a list. -/
lemma next_simple {a : Atom} (ha : AtomOf token a) (hfits : token.Fits)
    (hdot : token.isDot = true → ¬InList r.opened) :
    next limit text r token = .ok (complete r.done (.atom a) r.opened) := by
  have hsimple : r.simple token = .ok (complete r.done (.atom a) r.opened) := by
    simp only [simple, atomOf_eq_ok ha hfits]
    rfl
  by_cases hd : token.isDot = true
  · have hr : r.dot token = r.simple token := by
      have hopen := hdot hd
      unfold dot
      split
      · simp_all
      · simp_all
      · rfl
    rw [next_dot hd, hr, hsimple]
    rfl
  · have hnext : next limit text r token =
        (r.simple token).mapError (.atPosition text token.position) := by
      unfold next
      split
      · rcases ha.kind_cases with h | h | h | h <;> simp_all
      · rcases ha.kind_cases with h | h | h | h <;> simp_all
      · rcases ha.kind_cases with h | h | h | h <;> simp_all
      · rw [if_neg hd]
    rw [hnext, hsimple]
    rfl

end Next

/-! ## Completeness -/

section Complete

variable {limit : Nat} {text : List Char}

lemma foldlM_next_cons {r r' : Reading} {token : Token} (h : next limit text r token = .ok r')
    (ts : List Token) : (token :: ts).foldlM (next limit text) r = ts.foldlM (next limit text) r' := by
  rw [List.foldlM_cons, h]
  rfl

lemma foldlM_next_append {r r' : Reading} {ts : List Token}
    (h : ts.foldlM (next limit text) r = .ok r') (us : List Token) :
    (ts ++ us).foldlM (next limit text) r = us.foldlM (next limit text) r' := by
  rw [List.foldlM_append, h]
  rfl

/-- Reading the tokens of a datum completes the datum, if `room` more lists and quote marks may be
opened. -/
def ReadsDatum (limit : Nat) (text : List Char) (room : Nat) (ts : List Token) (d : Datum) : Prop :=
  ∀ r : Reading, (StartsWithDot ts → ¬InList r.opened) → r.opened.length + room ≤ limit →
    ts.foldlM (next limit text) r = .ok (complete r.done d r.opened)

/-- Reading the rest of a list, its end included, completes the list: the items so far, and then
the chain `d`. -/
def ReadsRest (limit : Nat) (text : List Char) (room : Nat) (ts : List Token) (d : Datum) : Prop :=
  ∀ (done items : List Datum) (outer : List Opened), outer.length + 1 + room ≤ limit →
    ts.foldlM (next limit text) ⟨done, .list items :: outer⟩ =
      .ok (complete done (.ofList items.reverse d) outer)

variable {room room' : Nat} {ts us : List Token} {d e : Datum}

lemma ReadsDatum.mono (h : ReadsDatum limit text room ts d) (hle : room ≤ room') :
    ReadsDatum limit text room' ts d :=
  fun r hdot hlimit => h r hdot (by omega)

/-! One lemma for each rule of the grammar. -/

lemma readsDatum_simple {token : Token} {a : Atom} (ha : AtomOf token a) (hfits : token.Fits) :
    ReadsDatum limit text room [token] (.atom a) := by
  intro r hdot _
  exact foldlM_next_cons (next_simple ha hfits fun h => hdot (startsWithDot_cons.mpr h)) []

lemma ReadsDatum.quote {mark : Token} (h : ReadsDatum limit text room ts d)
    (hmark : mark.kind = .quote) : ReadsDatum limit text (room + 1) (mark :: ts) d.quoted := by
  intro r _ hlimit
  have hopen : next limit text r mark = .ok ⟨r.done, .quote :: r.opened⟩ := by
    rw [next_quote hmark, push_eq_ok _ (by omega)]
  rw [foldlM_next_cons hopen]
  refine h ⟨r.done, .quote :: r.opened⟩ (fun _ => not_inList_quote _) ?_
  rw [List.length_cons]
  omega

lemma ReadsRest.list {left : Token} (h : ReadsRest limit text room ts d)
    (hleft : left.kind = .lparen) : ReadsDatum limit text (room + 1) (left :: ts) d := by
  intro r _ hlimit
  have hopen : next limit text r left = .ok ⟨r.done, .list [] :: r.opened⟩ := by
    rw [next_lparen hleft, push_eq_ok _ (by omega)]
  rw [foldlM_next_cons hopen]
  exact h r.done [] r.opened (by omega)

lemma readsRest_nil {right : Token} (hright : right.kind = .rparen) :
    ReadsRest limit text room [right] .nil := by
  intro done items outer _
  refine foldlM_next_cons ?_ []
  rw [next_rparen hright]
  rfl

lemma ReadsDatum.last {dot right : Token} (h : ReadsDatum limit text room ts d)
    (hdot : dot.isDot = true) (hstart : ¬StartsWithDot ts) (hright : right.kind = .rparen) :
    ReadsRest limit text room (dot :: (ts ++ [right])) d := by
  intro done items outer hlimit
  have hpoint : next limit text ⟨done, .list items :: outer⟩ dot =
      .ok ⟨done, .dotted items [] :: outer⟩ := by
    rw [next_dot hdot]
    rfl
  have hlast := h ⟨done, .dotted items [] :: outer⟩ (fun h => absurd h hstart)
    (by rw [List.length_cons]; omega)
  rw [foldlM_next_cons hpoint, foldlM_next_append hlast]
  refine foldlM_next_cons ?_ []
  rw [next_rparen hright]
  rfl

lemma ReadsDatum.cons (hd : ReadsDatum limit text room ts d) (hstart : ¬StartsWithDot ts)
    (h : ReadsRest limit text room us e) : ReadsRest limit text room (ts ++ us) (.cons d e) := by
  intro done items outer hlimit
  have hfirst := hd ⟨done, .list items :: outer⟩ (fun h => absurd h hstart)
    (by rw [List.length_cons]; omega)
  have hrest := h done (d :: items) outer hlimit
  rw [foldlM_next_append hfirst, complete, hrest]
  simp [Datum.ofList]

end Complete

/-! ## Soundness -/

/-- Tokens that began the lists and quotations which are still open. -/
inductive Opening : List Token → List Opened → Prop
  | none : Opening [] []
  | quote {ts : List Token} {outer : List Opened} {mark : Token} : Opening ts outer →
      mark.kind = .quote → Opening (ts ++ [mark]) (.quote :: outer)
  | list {ts us : List Token} {outer : List Opened} {left : Token} {ds : List Datum} :
      Opening ts outer → left.kind = .lparen → ItemsOf us ds →
      Opening (ts ++ left :: us) (.list ds.reverse :: outer)
  | dotted {ts us vs : List Token} {outer : List Opened} {left dot : Token} {ds es : List Datum} :
      Opening ts outer → left.kind = .lparen → ItemsOf us ds → dot.isDot = true → ItemsOf vs es →
      Opening (ts ++ left :: (us ++ dot :: vs)) (.dotted ds.reverse es.reverse :: outer)

/-- The tokens that were read account for what has been read: they are a program, and then what
began everything that is still open. -/
def Accounts (ts : List Token) (r : Reading) : Prop :=
  ∃ us vs, ts = us ++ vs ∧ ProgramOf us r.done.reverse ∧ Opening vs r.opened

lemma accounts_empty : Accounts [] empty :=
  ⟨[], [], rfl, .nil, .none⟩

lemma Opening.length_le {ts : List Token} {opened : List Opened} (h : Opening ts opened) :
    opened.length ≤ ts.length := by
  induction h <;> simp only [List.length_append, List.length_cons, List.length_nil] <;> omega

/-- The tokens of a datum that is complete go to whatever was opened last. -/
lemma accounts_complete {ts us vs : List Token} {opened : List Opened} {done : List Datum}
    {d : Datum} (hdone : ProgramOf ts done.reverse) (hopen : Opening us opened) (hd : DatumOf vs d)
    (hstart : StartsWithDot vs → ¬InList opened) :
    Accounts (ts ++ us ++ vs) (complete done d opened) := by
  induction hopen generalizing vs d with
  | none => exact ⟨ts ++ vs, [], by simp, by simpa [complete] using hdone.concat hd, .none⟩
  | @quote us outer mark _ hmark ih =>
    -- the quotation is complete as well, and goes to what was opened before it
    have hstart' : StartsWithDot (mark :: vs) → ¬InList outer := fun h =>
      absurd (startsWithDot_cons.mp h) (Token.not_isDot_of_kind hmark (by simp))
    simpa [complete] using ih (.quote hmark hd) hstart'
  | @list us items outer left ds hopen hleft hitems _ =>
    have hitems' := hitems.concat hd fun h => hstart h (inList_list _ _)
    refine ⟨ts, us ++ left :: (items ++ vs), by simp, hdone, ?_⟩
    simpa [complete] using Opening.list hopen hleft hitems'
  | @dotted us items after outer left dot ds es hopen hleft hitems hdot hafter _ =>
    have hafter' := hafter.concat hd fun h => hstart h (inList_dotted _ _ _)
    refine ⟨ts, us ++ left :: (items ++ dot :: (after ++ vs)), by simp, hdone, ?_⟩
    simpa [complete] using Opening.dotted hopen hleft hitems hdot hafter'

section Step

variable {limit : Nat} {text : List Char} {r r' : Reading} {token : Token} {ts : List Token}

lemma Accounts.push {inner : Opened} (h : Accounts ts r) (hpush : r.push limit inner = .ok r')
    (hinner : ∀ us, Opening us r.opened → Opening (us ++ [token]) (inner :: r.opened)) :
    Accounts (ts ++ [token]) r' := by
  obtain ⟨us, vs, rfl, hdone, hopen⟩ := h
  unfold Reading.push at hpush
  split at hpush
  · cases hpush
    exact ⟨us, vs ++ [token], by simp, hdone, hinner vs hopen⟩
  · simp at hpush

lemma Accounts.close (h : Accounts ts r) (hkind : token.kind = .rparen)
    (hclose : r.close token = .ok r') : Accounts (ts ++ [token]) r' := by
  obtain ⟨us, vs, rfl, hdone, hopen⟩ := h
  obtain ⟨done, opened⟩ := r
  -- A closed list starts with its parenthesis, so it may go anywhere.
  have start_of_lparen {left : Token} (hleft : left.kind = .lparen) (ws : List Token) :
      ¬StartsWithDot (left :: ws) := by
    rw [startsWithDot_cons]
    exact Token.not_isDot_of_kind hleft (by simp)
  cases hopen with
  | none => simp [Reading.close] at hclose
  | quote => simp [Reading.close] at hclose
  | @list vs ws outer left ds hopen hleft hitems =>
    simp only [Reading.close, List.reverse_reverse, Except.ok.injEq] at hclose
    subst hclose
    have hlist := DatumOf.list hleft hitems hkind
    simpa using accounts_complete hdone hopen hlist fun h => absurd h (start_of_lparen hleft _)
  | @dotted vs ws xs outer left dot ds es hopen hleft hitems hdot hafter =>
    generalize hes : es.reverse = after at hclose
    match after, hes, hclose with
    | [], _, hclose => simp [Reading.close] at hclose
    | [last], hes, hclose =>
      simp only [Reading.close, List.reverse_reverse, Except.ok.injEq] at hclose
      subst hclose
      obtain rfl : es = [last] := by simpa using congrArg List.reverse hes
      obtain ⟨hlast, hstart⟩ := hafter.singleton_inv
      have hlist := DatumOf.dotted hleft hitems hdot hlast hstart hkind
      simpa using accounts_complete hdone hopen hlist fun h => absurd h (start_of_lparen hleft _)
    | _ :: _ :: _, _, hclose => simp [Reading.close] at hclose

lemma Accounts.simple (h : Accounts ts r) (hspells : token.kind.Spells token.text.toList)
    (hdot : token.isDot = true → ¬InList r.opened) (hsimple : r.simple token = .ok r') :
    Accounts (ts ++ [token]) r' ∧ token.Fits := by
  obtain ⟨us, vs, rfl, hdone, hopen⟩ := h
  obtain ⟨a, hatom, hr⟩ := bind_eq_ok.mp hsimple
  cases hr
  obtain ⟨ha, hfits⟩ := of_atomOf_eq_ok hatom hspells
  refine ⟨accounts_complete hdone hopen (.simple ha) fun hstart => ?_, hfits⟩
  exact hdot (startsWithDot_cons.mp hstart)

lemma Accounts.dot (h : Accounts ts r) (hspells : token.kind.Spells token.text.toList)
    (hdot : token.isDot = true) (hread : r.dot token = .ok r') :
    Accounts (ts ++ [token]) r' ∧ token.Fits := by
  obtain ⟨done, opened⟩ := r
  cases opened with
  | nil => exact h.simple hspells (fun _ => not_inList_nil) hread
  | cons inner outer =>
    cases inner with
    | quote => exact h.simple hspells (fun _ => not_inList_quote outer) hread
    | dotted items after => simp [Reading.dot] at hread
    | list items =>
      cases hread
      obtain ⟨us, vs, rfl, hdone, hopen⟩ := h
      refine ⟨⟨us, vs ++ [token], by simp, hdone, ?_⟩, fun hkind => ?_⟩
      · cases hopen with
        | list hopen hleft hitems => simpa using Opening.dotted hopen hleft hitems hdot .nil
      · simp [Token.kind_of_isDot hdot] at hkind

/-- Reading a token keeps the account, and the token fits. -/
lemma Accounts.next (h : Accounts ts r) (hspells : token.kind.Spells token.text.toList)
    (hnext : next limit text r token = .ok r') : Accounts (ts ++ [token]) r' ∧ token.Fits := by
  have fits_of_kind {kind : TokenKind} (hkind : token.kind = kind) (hne : kind ≠ .number) :
      token.Fits := fun h => absurd (hkind.symm.trans h) hne
  unfold Reading.next at hnext
  split at hnext
  · rename_i hkind
    refine ⟨h.push hnext fun us hopen => ?_, fits_of_kind hkind (by simp)⟩
    simpa using Opening.list hopen hkind .nil
  · rename_i hkind
    exact ⟨h.push hnext fun us hopen => .quote hopen hkind, fits_of_kind hkind (by simp)⟩
  · rename_i hkind
    exact ⟨h.close hkind (mapError_eq_ok.mp hnext), fits_of_kind hkind (by simp)⟩
  · have hread := mapError_eq_ok.mp hnext
    split at hread
    · rename_i hdot
      exact h.dot hspells hdot hread
    · rename_i hdot
      exact h.simple hspells (fun h => absurd h hdot) hread

/-- A token is refused for a fault at its position, unless too much is open. -/
lemma next_error {e : Error} (h : next limit text r token = .error e) (hopen : r.opened.length < limit) :
    ∃ fault, e = .atPosition text token.position fault := by
  unfold Reading.next at h
  split at h
  · simp [push_eq_ok _ hopen] at h
  · simp [push_eq_ok _ hopen] at h
  · obtain ⟨fault, -, rfl⟩ := mapError_eq_error.mp h
    exact ⟨fault, rfl⟩
  · obtain ⟨fault, -, rfl⟩ := mapError_eq_error.mp h
    exact ⟨fault, rfl⟩

/-- Tokens are refused for a fault at the position of one of them, if there is room for all. -/
lemma Accounts.foldlM_next_error {us : List Token} {e : Error} (h : Accounts ts r)
    (hspells : ∀ token ∈ us, token.kind.Spells token.text.toList)
    (hread : us.foldlM (Reading.next limit text) r = .error e)
    (hlimit : ts.length + us.length ≤ limit) :
    ∃ position fault, e = .atPosition text position fault := by
  induction us generalizing ts r with
  | nil => cases hread
  | cons token us ih =>
    rw [List.length_cons] at hlimit
    rw [List.foldlM_cons] at hread
    rcases bind_eq_error.mp hread with hnext | ⟨r₁, hnext, hread⟩
    · obtain ⟨vs, ws, rfl, -, hopen⟩ := h
      have hroom := hopen.length_le
      rw [List.length_append] at hlimit
      obtain ⟨fault, hfault⟩ := next_error hnext (by omega)
      exact ⟨token.position, fault, hfault⟩
    · obtain ⟨h₁, -⟩ := h.next (hspells token (by simp)) hnext
      refine ih h₁ (fun token h => hspells token (by simp [h])) hread ?_
      rw [List.length_append, List.length_singleton]
      omega

/-- Nothing is left open at the end of a program. -/
lemma Accounts.finish {ds : List Datum} (h : Accounts ts r) (hfinish : r.finish text = .ok ds) :
    ProgramOf ts ds := by
  obtain ⟨us, vs, rfl, hdone, hopen⟩ := h
  obtain ⟨done, opened⟩ := r
  cases hopen with
  | none =>
    cases hfinish
    simpa using hdone
  | _ => simp [Reading.finish] at hfinish

lemma finish_error {e : Error} (h : r.finish text = .error e) :
    ∃ position fault, e = .atPosition text position fault := by
  unfold Reading.finish at h
  split at h
  · cases h
  · exact ⟨_, _, (Except.error.inj h).symm⟩
  · exact ⟨_, _, (Except.error.inj h).symm⟩

end Step

end Reading

/-! ## Whole texts -/

/-- A text is refused because it cannot be cut or because its tokens make up no data, unless it is
nested too deeply. -/
lemma read_error {limit : Nat} {text : List Char} {e : Error} (h : read limit text = .error e)
    (hlimit : text.length ≤ limit) :
    (∃ position, e = .lexicalAt text position) ∨
      ∃ position fault, e = .atPosition text position fault := by
  have hspells : ∀ token ∈ (tokenize text).tokens, token.kind.Spells token.text.toList :=
    fun _ => spells_of_mem_tokensFrom
  have hlength : (tokenize text).tokens.length ≤ limit :=
    (length_tokensFrom_le 0 text).trans hlimit
  rcases bind_eq_error.mp h with hread | ⟨r, hread, h⟩
  · exact .inr (Reading.accounts_empty.foldlM_next_error hspells hread (by simpa using hlength))
  · cases hfault : (tokenize text).fault with
    | some position =>
      rw [hfault] at h
      exact .inl ⟨position, (Except.error.inj h).symm⟩
    | none =>
      rw [hfault] at h
      exact .inr (Reading.finish_error h)

end SmallScheme
