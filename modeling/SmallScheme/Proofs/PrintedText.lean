import SmallScheme.Proofs.GrammarReading

/-!
# Texts that are read as given data

`ReadsAs` says of a piece of text that it is read as a datum wherever it stands, as long as no
identifier could go on after it; `ReadsAsRest` says the same of the rest of a list with its closing
parenthesis.  Atoms have their written forms (`readsAs_atom`), lists are put together from the
right (`readsAsRest_nil`, `readsAsRest_last`, `readsAsRest_cons`, `ReadsAsRest.list`), and texts
with gaps between them are read one after the other (`read_joined`).

The main results are `ReadsAs.unique`, a text is read as one datum at most, and `read_joined`.
-/

namespace SmallScheme

/-- Tokens in front of what else is cut. -/
def Tokens.prepend (ts : List Token) (later : Tokens) : Tokens :=
  ⟨ts ++ later.tokens, later.fault⟩

lemma Tokens.prepend_prepend (ts us : List Token) (later : Tokens) :
    prepend ts (prepend us later) = prepend (ts ++ us) later := by
  simp [prepend]

/-- Before any text that breaks, `cs` is cut into tokens with the property `R`. -/
def CutsInto (cs : List Char) (R : List Token → Prop) : Prop :=
  ∀ position rest, Breaks rest → ∃ ts, R ts ∧
    tokensFrom position (cs ++ rest) = .prepend ts (tokensFrom (position + cs.length) rest)

namespace CutsInto

variable {cs cs' g : List Char} {R R' : List Token → Prop}

lemma mono (h : CutsInto cs R) (hR : ∀ ts, R ts → R' ts) : CutsInto cs R' := by
  intro position rest hrest
  obtain ⟨ts, hts, hcut⟩ := h position rest hrest
  exact ⟨ts, hR ts hts, hcut⟩

/-- A piece of text and a further one that breaks. -/
lemma append (h : CutsInto cs R) (h' : CutsInto cs' R')
    (hbreaks : ∀ rest, Breaks (cs' ++ rest)) :
    CutsInto (cs ++ cs') fun ts => ∃ us vs, ts = us ++ vs ∧ R us ∧ R' vs := by
  intro position rest hrest
  obtain ⟨us, hus, hcut⟩ := h position (cs' ++ rest) (hbreaks rest)
  obtain ⟨vs, hvs, hcut'⟩ := h' (position + cs.length) rest hrest
  refine ⟨us ++ vs, ⟨us, vs, rfl, hus, hvs⟩, ?_⟩
  rw [List.append_assoc, hcut, hcut', Tokens.prepend_prepend, List.length_append, add_assoc]

lemma gap (h : CutsInto cs R) (hg : Gap g) : CutsInto (g ++ cs) R := by
  intro position rest hrest
  obtain ⟨ts, hts, hcut⟩ := h (position + g.length) rest hrest
  refine ⟨ts, hts, ?_⟩
  rw [List.append_assoc, tokensFrom_gap_append hg, hcut, List.length_append, add_assoc]

/-- Anything may follow a parenthesis. -/
lemma lparen (h : CutsInto cs R) :
    CutsInto ('(' :: cs) fun ts => ∃ left us, ts = left :: us ∧ left.kind = .lparen ∧ R us := by
  intro position rest hrest
  obtain ⟨ts, hts, hcut⟩ := h (position + 1) rest hrest
  have hscan : scan? (['('] ++ (cs ++ rest)) = some (.lparen, ['(']) := rfl
  have hfirst := tokensFrom_of_scan? hscan position
  refine ⟨⟨.lparen, String.ofList ['('], position⟩ :: ts, ⟨_, ts, rfl, rfl, hts⟩, ?_⟩
  rw [List.length_singleton, hcut] at hfirst
  rw [List.length_cons, show position + (cs.length + 1) = position + 1 + cs.length by omega]
  exact hfirst

end CutsInto

lemma cutsInto_token {kind : TokenKind} {lexeme : List Char} (h : kind.Spells lexeme) :
    CutsInto lexeme fun ts => ∃ position, ts = [⟨kind, String.ofList lexeme, position⟩] := by
  intro position rest hrest
  exact ⟨_, ⟨position, rfl⟩, tokensFrom_token h hrest position⟩

lemma isSubsequent_eq_false_of_isBlank {c : Char} (h : Text.isBlank c = true) :
    isSubsequent c = false := by
  have hmarks : ∀ d ∈ "!$%&*.:<=>?^_~+-.@".toList, Text.isBlank d = false :=
    List.all_iff_forall_prop.mp (by decide)
  by_contra hc
  have hc : isSubsequent c = true := by simpa using hc
  have hcases : c.isAlphanum = true ∨ c ∈ "!$%&*.:<=>?^_~+-.@".toList := by
    simp only [isSubsequent, isInitial, Bool.or_eq_true, List.contains_iff_mem] at hc
    rcases hc with ((hc | hc) | hc) | hc
    · exact .inl (by simp [Char.isAlphanum, hc])
    · exact .inr (List.mem_append_left "+-.@".toList hc)
    · exact .inl (by simp [Char.isAlphanum, hc])
    · exact .inr (List.mem_append_right "!$%&*.:<=>?^_~".toList hc)
  rcases hcases with hc | hc
  · rw [isBlank_eq_false_of_isAlphanum hc] at h
    cases h
  · rw [hmarks c hc] at h
    cases h

/-- A gap keeps what is before it apart from what is after it. -/
lemma Gap.breaks {g : List Char} (h : Gap g) (hne : g ≠ []) (rest : List Char) :
    Breaks (g ++ rest) := by
  cases h with
  | nil => exact absurd rfl hne
  | blank hc => exact breaks_cons.mpr (isSubsequent_eq_false_of_isBlank hc)
  | comment => exact breaks_cons.mpr (by decide)

lemma gap_space : Gap [' '] :=
  .blank (by decide) .nil

/-! ## Single data -/

/-- Wherever the text stands, it is read as the datum, if `room` more lists and quote marks may be
opened. -/
def ReadsAs (room : Nat) (cs : List Char) (d : Datum) : Prop :=
  CutsInto cs fun ts => ¬StartsWithDot ts ∧ ∀ limit text, Reading.ReadsDatum limit text room ts d

/-- Wherever the text stands in a list, it is read as the rest of that list. -/
def ReadsAsRest (room : Nat) (cs : List Char) (d : Datum) : Prop :=
  CutsInto cs fun ts => ∀ limit text, Reading.ReadsRest limit text room ts d

lemma readsAs_token {room : Nat} {kind : TokenKind} {cs : List Char} {a : Atom}
    (h : kind.Spells cs) (ha : ∀ position, AtomOf ⟨kind, String.ofList cs, position⟩ a)
    (hfits : ∀ position, Token.Fits ⟨kind, String.ofList cs, position⟩)
    (hdot : ∀ position, ¬Token.isDot ⟨kind, String.ofList cs, position⟩ = true) :
    ReadsAs room cs (.atom a) := by
  refine (cutsInto_token h).mono ?_
  rintro _ ⟨position, rfl⟩
  refine ⟨fun hstart => hdot position (startsWithDot_cons.mp hstart), fun limit text => ?_⟩
  exact Reading.readsDatum_simple (ha position) (hfits position)

section Lists

variable {room : Nat} {cs cs' : List Char} {d e : Datum}

lemma readsAsRest_nil : ReadsAsRest room [')'] .nil := by
  have hright : TokenKind.rparen.Spells [')'] := rfl
  refine (cutsInto_token hright).mono ?_
  rintro _ ⟨position, rfl⟩ limit text
  exact Reading.readsRest_nil rfl

/-- A point, and the end of the list after it. -/
lemma readsAsRest_last (h : ReadsAs room cs d) :
    ReadsAsRest room (' ' :: '.' :: ' ' :: (cs ++ [')'])) d := by
  have hdot : TokenKind.identifier.Spells ['.'] := .inl ⟨'.', [], rfl, by decide, by simp⟩
  have hright : TokenKind.rparen.Spells [')'] := rfl
  have hlast := (h.append (cutsInto_token hright) fun _ => breaks_cons.mpr (by decide)).gap gap_space
  have hpoint := (cutsInto_token hdot).append hlast fun _ => breaks_cons.mpr (by decide)
  refine (hpoint.gap gap_space).mono ?_
  rintro _ ⟨_, _, rfl, ⟨position, rfl⟩, us, _, rfl, ⟨hstart, hread⟩, position', rfl⟩ limit text
  exact (hread limit text).last rfl hstart rfl

/-- One more item in front of the rest. -/
lemma readsAsRest_cons (hd : ReadsAs room cs d) (h : ReadsAsRest room cs' e)
    (hbreaks : ∀ rest, Breaks (cs' ++ rest)) : ReadsAsRest room (cs ++ cs') (.cons d e) := by
  refine (hd.append h hbreaks).mono ?_
  rintro _ ⟨us, vs, rfl, ⟨hstart, hread⟩, hrest⟩ limit text
  exact (hread limit text).cons hstart (hrest limit text)

lemma ReadsAsRest.list (h : ReadsAsRest room cs d) : ReadsAs (room + 1) ('(' :: cs) d := by
  refine (CutsInto.lparen h).mono ?_
  rintro _ ⟨left, us, rfl, hleft, hread⟩
  refine ⟨?_, fun limit text => (hread limit text).list hleft⟩
  rw [startsWithDot_cons]
  exact Token.not_isDot_of_kind hleft (by simp)

end Lists

/-- **A text is read as one datum at most.** -/
theorem ReadsAs.unique {room room' : Nat} {cs : List Char} {d e : Datum} (h : ReadsAs room cs d)
    (h' : ReadsAs room' cs e) : d = e := by
  obtain ⟨ts, ⟨-, hread⟩, hcut⟩ := h 0 [] breaks_nil
  obtain ⟨us, ⟨-, hread'⟩, hcut'⟩ := h' 0 [] breaks_nil
  have hts : ts = us := by
    have htokens := congrArg Tokens.tokens (hcut.symm.trans hcut')
    simpa [Tokens.prepend, tokensFrom_nil] using htokens
  subst hts
  -- With room for both, the one reading completes both data.
  have hd := hread (room + room') [] .empty (fun _ => Reading.not_inList_nil)
    (by simp [Reading.empty])
  have he := hread' (room + room') [] .empty (fun _ => Reading.not_inList_nil)
    (by simp [Reading.empty])
  rw [hd] at he
  simpa [Reading.complete, Reading.empty] using he

/-! ## Texts one after another -/

/-- Some texts with blanks or comments between them. -/
inductive Joined : List String → List Char → Prop
  | nil : Joined [] []
  | one (text : String) : Joined [text] text.toList
  | cons {text : String} {texts : List String} {g cs : List Char} : Gap g → g ≠ [] →
      Joined texts cs → Joined (text :: texts) (text.toList ++ (g ++ cs))

lemma tokensFrom_joined {room : Nat} {texts : List String} {ds : List Datum} {cs : List Char}
    (h : List.Forall₂ (fun text d => ReadsAs room text.toList d) texts ds)
    (hjoined : Joined texts cs) (position : Nat) :
    ∃ ts, tokensFrom position cs = ⟨ts, none⟩ ∧ ∀ limit text done, room ≤ limit →
      ts.foldlM (Reading.next limit text) ⟨done, []⟩ = .ok ⟨ds.reverse ++ done, []⟩ := by
  induction hjoined generalizing ds position with
  | nil =>
    cases h
    exact ⟨[], tokensFrom_nil position, fun _ _ _ _ => rfl⟩
  | one text =>
    cases h with
    | @cons _ d _ _ hd hrest =>
      cases hrest
      obtain ⟨ts, ⟨-, hread⟩, hcut⟩ := hd position [] breaks_nil
      refine ⟨ts, by simpa [Tokens.prepend, tokensFrom_nil] using hcut, ?_⟩
      intro limit whole done hlimit
      exact hread limit whole ⟨done, []⟩ (fun _ => Reading.not_inList_nil) (by simpa using hlimit)
  | @cons text texts g cs hg hne _ ih =>
    cases h with
    | @cons _ d _ ds hd hrest =>
      obtain ⟨ts, ⟨-, hread⟩, hcut⟩ := hd position (g ++ cs) (hg.breaks hne cs)
      rw [tokensFrom_gap_append hg] at hcut
      obtain ⟨us, hus, hreadRest⟩ := ih hrest (position + text.toList.length + g.length)
      refine ⟨ts ++ us, by rw [hcut, hus]; rfl, ?_⟩
      intro limit whole done hlimit
      have hfirst := hread limit whole ⟨done, []⟩ (fun _ => Reading.not_inList_nil)
        (by simpa using hlimit)
      rw [Reading.foldlM_next_append hfirst]
      have hlater := hreadRest limit whole (d :: done) hlimit
      rw [show Reading.complete done d [] = ⟨d :: done, []⟩ from rfl, hlater]
      simp

/-- **Texts with gaps between them are read one after the other.** -/
theorem read_joined {room limit : Nat} {texts : List String} {ds : List Datum} {cs : List Char}
    (h : List.Forall₂ (fun text d => ReadsAs room text.toList d) texts ds)
    (hjoined : Joined texts cs) (hlimit : room ≤ limit) : read limit cs = .ok ds := by
  obtain ⟨ts, hcut, hread⟩ := tokensFrom_joined h hjoined 0
  have htokens := hread limit cs [] hlimit
  unfold read
  simp only [tokenize, hcut, Reading.empty, htokens]
  simp [Reading.finish, bind, Except.bind]

end SmallScheme
