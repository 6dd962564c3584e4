import SmallScheme.Interpreter
import SmallScheme.Proofs.PrintedText
import SmallScheme.Proofs.Unfolding

/-!
# Reading undoes printing

A value that is made of the empty list, truth values, natural numbers, symbols that are written
like one, and pairs of such values is printed as a text that is read as what the value stands for.
Printing marks cycles, but a value that unfolds has none: the cells around a value stand for larger
data (`Encloses`), so the value is none of them.

The main result is `parse_rendered`.
-/

namespace SmallScheme

/-- The name is one identifier, and no lone point. -/
def Symbol.Readable (x : Symbol) : Prop :=
  tokenize x.name.toList = ⟨[⟨.identifier, x.name, 0⟩], none⟩ ∧ x.name ≠ "."

instance (x : Symbol) : Decidable x.Readable :=
  inferInstanceAs (Decidable (_ ∧ _))

/-- Everything in the datum has a written form that stands for it. -/
def Datum.Readable : Datum → Prop
  | .atom .nil => True
  | .atom (.bool _) => True
  | .atom (.number n) => 0 ≤ n
  | .atom (.symbol x) => x.Readable
  | .atom (.text _) => False
  | .cons car cdr => car.Readable ∧ cdr.Readable

instance Datum.decidableReadable : (d : Datum) → Decidable d.Readable
  | .atom .nil => isTrue trivial
  | .atom (.bool _) => isTrue trivial
  | .atom (.number n) => inferInstanceAs (Decidable (0 ≤ n))
  | .atom (.symbol x) => inferInstanceAs (Decidable x.Readable)
  | .atom (.text _) => isFalse id
  | .cons car cdr =>
    have := car.decidableReadable
    have := cdr.decidableReadable
    inferInstanceAs (Decidable (car.Readable ∧ cdr.Readable))

/-- The value is finite, and everything in it has a written form that stands for it. -/
def Store.Readable (s : Store) (v : Value) : Prop :=
  ∃ d, s.Unfolds v d ∧ d.Readable

/-! ## Atoms -/

lemma Symbol.Readable.spells {x : Symbol} (h : x.Readable) :
    TokenKind.identifier.Spells x.name.toList := by
  have hmem : (⟨.identifier, x.name, 0⟩ : Token) ∈ (tokensFrom 0 x.name.toList).tokens := by
    rw [show tokensFrom 0 x.name.toList = _ from h.1]
    exact List.mem_singleton_self _
  exact spells_of_mem_tokensFrom hmem

lemma Symbol.readable_of_spells {x : Symbol} (h : TokenKind.identifier.Spells x.name.toList)
    (hdot : x.name ≠ ".") : x.Readable := by
  refine ⟨?_, hdot⟩
  have htoken := tokensFrom_token h breaks_nil 0
  rw [List.append_nil, tokensFrom_nil, String.ofList_toList] at htoken
  exact htoken

lemma readsAs_bool (room : Nat) (b : Bool) :
    ReadsAs room (if b then ['#', 't'] else ['#', 'f']) (.atom (.bool b)) := by
  have hspells : TokenKind.boolean.Spells (if b then ['#', 't'] else ['#', 'f']) := by
    cases b
    · exact .inr rfl
    · exact .inl rfl
  refine readsAs_token hspells (fun position => ?_) (fun _ h => by cases h) fun _ h => by cases h
  cases b
  · exact @AtomOf.boolean ⟨.boolean, String.ofList ['#', 'f'], position⟩ rfl
  · exact @AtomOf.boolean ⟨.boolean, String.ofList ['#', 't'], position⟩ rfl

lemma readsAs_number (room : Nat) {n : Nat} (hbound : n < Numeral.decimalBound) :
    ReadsAs room (toString n).toList (.atom (.number n)) := by
  have hspelled := Numeral.spelled_toString n
  have hspells : TokenKind.number.Spells (toString n).toList := ⟨.decimal, _, hspelled⟩
  refine readsAs_token hspells (fun position => ?_) (fun _ _ ds hds => ?_) fun _ h => by cases h
  · have hatom := @AtomOf.number ⟨.number, String.ofList (toString n).toList, position⟩ .decimal
      (toString n).toList rfl (by rwa [String.toList_ofList])
    rwa [Numeral.value_toString] at hatom
  · rw [String.toList_ofList] at hds
    have hshort := mt (Numeral.tooLong_toString_iff n).mp (not_le.mpr hbound)
    rw [(hds.unique hspelled).2]
    exact not_lt.mp fun hlong => hshort ⟨rfl, hlong⟩

lemma readsAs_symbol (room : Nat) {x : Symbol} (h : x.Readable) :
    ReadsAs room x.name.toList (.atom (.symbol x)) := by
  refine readsAs_token h.spells (fun position => ?_) (fun _ hkind => by cases hkind) fun _ hdot => ?_
  · rw [String.ofList_toList]
    exact @AtomOf.identifier ⟨.identifier, x.name, position⟩ rfl
  · rw [String.ofList_toList] at hdot
    simp only [Token.isDot, Bool.and_eq_true, beq_iff_eq] at hdot
    exact h.2 hdot.2

/-- The written form of an atom is read as the atom.  The empty list is written with parentheses,
so it takes room. -/
lemma readsAs_atom (room : Nat) {a : Atom} {text : String} (ha : (Datum.atom a).Readable)
    (htext : a.text? = some text) : ReadsAs (room + 1) text.toList (.atom a) := by
  cases a with
  | nil =>
    cases htext
    exact readsAsRest_nil.list
  | bool b =>
    have hb := readsAs_bool (room + 1) b
    cases b <;> cases htext <;> exact hb
  | number n =>
    obtain ⟨n, rfl⟩ := Int.eq_ofNat_of_zero_le ha
    change Numeral.decimal? n = some text at htext
    rw [Numeral.decimal?_natCast] at htext
    split at htext
    · rename_i hbound
      cases htext
      exact readsAs_number (room + 1) hbound
    · cases htext
  | symbol x =>
    cases htext
    exact readsAs_symbol (room + 1) ha
  | text t => exact ha.elim

namespace Store

variable {s : Store} {v : Value} {c : CellId} {d e : Datum} {active : List CellId}

/-! ## Cells around a value -/

/-- The active cells stand for larger data than `d`. -/
def Encloses (s : Store) (active : List CellId) (d : Datum) : Prop :=
  ∀ a ∈ active, ∃ e, s.Unfolds (.pair a) e ∧ d.pairs < e.pairs

lemma encloses_nil (s : Store) (d : Datum) : s.Encloses [] d := by
  simp [Encloses]

lemma Encloses.not_mem (h : s.Encloses active d) (hd : s.Unfolds (.pair c) d) : c ∉ active := by
  intro hmem
  obtain ⟨e, he, hlt⟩ := h c hmem
  rw [hd.unique he] at hlt
  exact lt_irrefl _ hlt

/-- A cell encloses its own parts. -/
lemma Encloses.cons (h : s.Encloses active d) (hd : s.Unfolds (.pair c) d)
    (hlt : e.pairs < d.pairs) : s.Encloses (c :: active) e := by
  intro a ha
  rcases List.mem_cons.mp ha with rfl | ha
  · exact ⟨d, hd, hlt⟩
  · obtain ⟨e', he', hlt'⟩ := h a ha
    exact ⟨e', he', hlt.trans hlt'⟩

/-! ## Chains -/

/-- The printed parts after the first one, each after a space, and the end of the list. -/
def restChars (parts : List String) : List Char :=
  (parts.flatMap fun part => ' ' :: part.toList) ++ [')']

lemma breaks_restChars (parts : List String) (rest : List Char) :
    Breaks (restChars parts ++ rest) := by
  cases parts with
  | nil => exact breaks_cons.mpr (by decide)
  | cons => exact breaks_cons.mpr (by decide)

lemma toList_intercalate_parts (first : String) (parts : List String) :
    ("(" ++ " ".intercalate (first :: parts) ++ ")").toList =
      '(' :: (first.toList ++ restChars parts) := by
  induction parts generalizing first with
  | nil => simp [restChars]
  | cons second parts ih =>
    have hrest := ih second
    simp only [String.toList_append, String.toList_intercalate, List.map_cons, restChars,
      List.flatMap_cons] at hrest ⊢
    simp_all [List.intercalate_cons_cons]

/-- One more part, after a space. -/
lemma readsAsRest_part {room : Nat} {first : String} {rest : List String} {d e : Datum}
    (hfirst : ReadsAs room first.toList d) (hrest : ReadsAsRest room (restChars rest) e) :
    ReadsAsRest room (restChars (first :: rest)) (.cons d e) := by
  have hchain := readsAsRest_cons hfirst hrest (breaks_restChars rest)
  have hparts : restChars (first :: rest) = [' '] ++ (first.toList ++ restChars rest) := by
    simp [restChars]
  rw [hparts]
  exact hchain.gap gap_space

/-- Texts that are read as data are the members of a list. -/
lemma readsAs_list {room : Nat} {first : String} {d : Datum} {rest : List String} {ds : List Datum}
    (hfirst : ReadsAs room first.toList d)
    (hrest : List.Forall₂ (fun text d => ReadsAs room text.toList d) rest ds) :
    ReadsAs (room + 1) ("(" ++ " ".intercalate (first :: rest) ++ ")").toList
      (.ofList (d :: ds) .nil) := by
  have hparts : ReadsAsRest room (restChars rest) (.ofList ds .nil) := by
    induction hrest with
    | nil => exact readsAsRest_nil
    | cons hpart _ ih => exact readsAsRest_part hpart ih
  rw [toList_intercalate_parts]
  exact (readsAsRest_cons hfirst hparts (breaks_restChars rest)).list

/-- The specification of the printer of a member or an end. -/
def PrintsReadably (s : Store) (room : Nat)
    (part : List CellId → Value → Except Error String) : Prop :=
  ∀ {active v d text}, s.Unfolds v d → d.Readable → s.Encloses active d →
    part active v = .ok text → ReadsAs room text.toList d

lemma renderParts_pair_inv {part : List CellId → Value → Except Error String} {length : Nat}
    {parts : List String} (hc : c ∉ active)
    (h : s.renderParts part (length + 1) active (.pair c) = .ok parts) :
    ∃ first rest, parts = first :: rest ∧ part (c :: active) (s.cell c).car = .ok first ∧
      s.renderParts part length (c :: active) (s.cell c).cdr = .ok rest := by
  have hactive : active.contains c = false := by simpa using hc
  simp only [renderParts, hactive, Bool.false_eq_true, if_false] at h
  obtain ⟨first, hfirst, h⟩ := bind_eq_ok.mp h
  obtain ⟨rest, hrest, h⟩ := bind_eq_ok.mp h
  cases h
  exact ⟨first, rest, rfl, hfirst, hrest⟩

lemma renderParts_atom_inv {part : List CellId → Value → Except Error String} {length : Nat}
    {parts : List String} {a : Atom} (ha : a ≠ .nil)
    (h : s.renderParts part length active (.atom a) = .ok parts) :
    ∃ text, part active (.atom a) = .ok text ∧ parts = [".", text] := by
  have hlast : (do return [".", ← part active (.atom a)]) = .ok parts := by
    cases length <;> simpa [renderParts, ha] using h
  obtain ⟨text, htext, h⟩ := bind_eq_ok.mp hlast
  cases h
  exact ⟨text, htext, rfl⟩

/-- The printed parts of a chain are read as the rest of a list. -/
lemma readsAsRest_of_renderParts {part : List CellId → Value → Except Error String}
    {room length : Nat} {parts : List String} (hpart : s.PrintsReadably room part)
    (hd : s.Unfolds v d) (hreadable : d.Readable) (henc : s.Encloses active d)
    (hlength : d.items.length ≤ length) (h : s.renderParts part length active v = .ok parts) :
    ReadsAsRest room (restChars parts) d := by
  induction hd generalizing active length parts with
  | atom a =>
    by_cases hnil : a = .nil
    · subst hnil
      obtain rfl : parts = [] := by
        cases length <;> simpa [renderParts] using h.symm
      exact readsAsRest_nil
    · obtain ⟨text, htext, rfl⟩ := renderParts_atom_inv hnil h
      have hlast := readsAsRest_last (hpart (.atom a) hreadable henc htext)
      simpa [restChars] using hlast
  | @pair c d e hc hcar hcdr _ ih =>
    have hd : s.Unfolds (.pair c) (.cons d e) := .pair hc hcar hcdr
    rw [Datum.items, List.length_cons] at hlength
    obtain ⟨length, rfl⟩ : ∃ k, length = k + 1 := ⟨length - 1, by omega⟩
    obtain ⟨first, rest, rfl, hfirst, hrest⟩ := renderParts_pair_inv (henc.not_mem hd) h
    have hmember := hpart hcar hreadable.1 (henc.cons hd (by rw [Datum.pairs]; omega)) hfirst
    have hlater := ih hreadable.2 (henc.cons hd (by rw [Datum.pairs]; omega)) (by omega) hrest
    exact readsAsRest_part hmember hlater

/-! ## Values -/

/-- What is printed of a value is read as what it stands for.  The empty list is printed as an
atom and read as a list, so reading may open one list more. -/
theorem printsReadably_renderWithin (s : Store) (limit : Nat) :
    s.PrintsReadably (limit + 1) (s.renderWithin limit) := by
  induction limit with
  | zero =>
    intro active v d text hd hreadable henc h
    cases hd with
    | atom a =>
      cases htext : a.text? with
      | none => simp [renderWithin, htext, writtenForm] at h
      | some t =>
        obtain rfl : t = text := by simpa [renderWithin, htext, writtenForm] using h
        exact readsAs_atom 0 hreadable htext
    | pair => simp [renderWithin] at h
  | succ limit ih =>
    intro active v d text hd hreadable henc h
    cases hd with
    | atom a =>
      cases htext : a.text? with
      | none => simp [renderWithin, htext, writtenForm] at h
      | some t =>
        obtain rfl : t = text := by simpa [renderWithin, htext, writtenForm] using h
        exact readsAs_atom (limit + 1) hreadable htext
    | @pair c d e hc hcar hcdr =>
      have hd : s.Unfolds (.pair c) (.cons d e) := .pair hc hcar hcdr
      -- the cell is not printed already: it would stand for a smaller datum than its own
      have hactive : active.contains c = false := by simpa using henc.not_mem hd
      simp only [renderWithin, hactive, Bool.false_eq_true, if_false] at h
      obtain ⟨parts, hparts, h⟩ := bind_eq_ok.mp h
      cases h
      obtain ⟨first, rest, rfl, hfirst, hrest⟩ := renderParts_pair_inv (henc.not_mem hd) hparts
      have hmember := ih hcar hreadable.1 (henc.cons hd (by rw [Datum.pairs]; omega)) hfirst
      -- a chain of different cells is never longer than the store
      obtain ⟨cs, hspine, hlength⟩ := hcdr.spine
      have hlater := readsAsRest_of_renderParts ih hcdr hreadable.2
        (henc.cons hd (by rw [Datum.pairs]; omega)) (hlength ▸ hspine.length_le) hrest
      rw [toList_intercalate_parts]
      exact (readsAsRest_cons hmember hlater (breaks_restChars rest)).list

lemma readsAs_of_render {limit : Nat} {text : String} (hd : s.Unfolds v d)
    (hreadable : d.Readable) (h : s.render limit v = .ok text) :
    ReadsAs (limit + 1) text.toList d :=
  s.printsReadably_renderWithin limit hd hreadable (encloses_nil s d) h

lemma readsAs_of_renderAll {limit : Nat} {vs : List Value} {texts : List String}
    (hreadable : ∀ v ∈ vs, s.Readable v) (h : s.renderAll limit vs = .ok texts) :
    ∃ ds, List.Forall₂ s.Unfolds vs ds ∧
      List.Forall₂ (fun text d => ReadsAs (limit + 1) text.toList d) texts ds := by
  induction vs generalizing texts with
  | nil =>
    cases h
    exact ⟨[], .nil, .nil⟩
  | cons v vs ih =>
    obtain ⟨d, hd, hdreadable⟩ := hreadable v (by simp)
    rw [renderAll, List.mapM_cons] at h
    obtain ⟨text, hfirst, h⟩ := bind_eq_ok.mp h
    obtain ⟨rest, hrest, h⟩ := bind_eq_ok.mp h
    cases h
    obtain ⟨ds, hds, htexts⟩ := ih (fun w hw => hreadable w (by simp [hw])) hrest
    exact ⟨d :: ds, .cons hd hds, .cons (readsAs_of_render hd hdreadable hfirst) htexts⟩

/-- A natural number is either printed and read, or neither. -/
lemma render_number_cases (s : Store) (n limit limit' : Nat) :
    (s.render limit (.number n) = .ok (toString n) ∧
      read limit' (toString n).toList = .ok [.atom (.number n)]) ∨
    (s.render limit (.number n) = .error .tooManyDigits ∧
      read limit' (toString n).toList =
        .error (.atPosition (toString n).toList 0 .invalidNumber)) := by
  have hrender : s.render limit (.number n) = writtenForm (Numeral.decimal? n) := by
    cases limit <;> rfl
  rw [hrender, Numeral.decimal?_natCast]
  by_cases hbound : n < Numeral.decimalBound
  · refine .inl ⟨by rw [if_pos hbound]; rfl, ?_⟩
    exact read_joined (.cons (readsAs_number 0 hbound) .nil) (.one _) (Nat.zero_le _)
  · refine .inr ⟨by rw [if_neg hbound]; rfl, ?_⟩
    have hspells : TokenKind.number.Spells (toString n).toList :=
      ⟨.decimal, _, Numeral.spelled_toString n⟩
    have hcut := tokensFrom_token hspells breaks_nil 0
    rw [List.append_nil, tokensFrom_nil, String.ofList_toList] at hcut
    have hread : Numeral.read? (toString n).toList = none := by
      rw [Numeral.read?_toString, Numeral.decimal?_natCast, if_neg hbound]
      rfl
    have hatom : Reading.atomOf ⟨.number, toString n, 0⟩ = .error .invalidNumber := by
      unfold Reading.atomOf
      simp only [hread]
    unfold read
    simp only [tokenize, hcut, List.foldlM_cons, Reading.next, Token.isDot, Reading.simple, hatom]
    rfl

end Store

/-- **Reading undoes printing.**  Readable values that were printed, with gaps between them, are read
as values of the same structure, by an interpreter that has room for one list more than printing
had.  So readable values that are printed in the same way have the same structure.  A natural
number is printed and read, or it has too many digits for both. -/
theorem parse_rendered {s : Store} {vs : List Value} {texts : List String} {limit : Nat}
    (hreadable : ∀ v ∈ vs, s.Readable v) (hprinted : s.renderAll limit vs = .ok texts) :
    (∀ (i : Interpreter) (cs : List Char), limit < i.limit → Joined texts cs →
      ∃ ws s', i.parse cs s = .ok ws s' ∧ s.Extends s' ∧ List.Forall₂ s'.SameStructureAs vs ws) ∧
    (∀ v w text limit₁ limit₂, s.Readable v → s.Readable w → s.render limit₁ v = .ok text →
      s.render limit₂ w = .ok text → s.SameStructureAs v w) ∧
    ∀ n limit₁ limit₂ : Nat,
      (s.render limit₁ (.number n) = .ok (toString n) ∧
        read limit₂ (toString n).toList = .ok [.atom (.number n)]) ∨
      (s.render limit₁ (.number n) = .error .tooManyDigits ∧
        read limit₂ (toString n).toList =
          .error (.atPosition (toString n).toList 0 .invalidNumber)) := by
  refine ⟨fun i cs hlimit hjoined => ?_, ?_, s.render_number_cases⟩
  · obtain ⟨ds, hds, htexts⟩ := Store.readsAs_of_renderAll hreadable hprinted
    have hread : read i.limit cs = .ok ds := read_joined htexts hjoined hlimit
    have hext := Store.extends_loadAll ds s
    refine ⟨(s.loadAll ds).1, (s.loadAll ds).2, Interpreter.parse_of_read s hread, hext, ?_⟩
    have hvs := hds.imp fun _ _ h => h.mono hext
    exact Store.forall₂_sameStructureAs hvs (Store.unfolds_loadAll ds s)
  · rintro v w text limit₁ limit₂ ⟨d, hd, hdreadable⟩ ⟨e, he, hereadable⟩ hv hw
    have hsame := (Store.readsAs_of_render hd hdreadable hv).unique
      (Store.readsAs_of_render he hereadable hw)
    exact (Store.sameStructureAs_iff hd he).mpr hsame

/-- A store with a pair whose two parts are one and the same cell. -/
def Store.shared : Store :=
  { Store.empty with cells := #[⟨.symbol ⟨"a"⟩, .number 5⟩, ⟨.pair 0, .pair 0⟩] }

/-- A shared cell is printed twice, and read as two cells. -/
theorem parse_rendered_shared :
    Store.shared.Readable (.pair 1) ∧
    Store.shared.renderAll 2 [.pair 1, .bool true] = .ok ["((a . 5) a . 5)", "#t"] ∧
    ∃ ws s', (⟨⟨false, false⟩, false, 3, 0⟩ : Interpreter).parse "((a . 5) a . 5) #t".toList Store.shared =
      .ok ws s' ∧ Store.shared.Extends s' ∧
      List.Forall₂ s'.SameStructureAs [.pair 1, .bool true] ws := by
  have hcell : Store.shared.Unfolds (.pair 0) (.cons (.symbol ⟨"a"⟩) (.atom (.number 5))) :=
    .pair (by decide) (.atom _) (.atom _)
  have hpair : Store.shared.Readable (.pair 1) :=
    ⟨_, .pair (by decide) hcell hcell, by decide +kernel⟩
  have hreadable : ∀ v ∈ [.pair 1, .bool true], Store.shared.Readable v := by
    simp only [List.mem_cons, List.not_mem_nil, or_false]
    rintro v (rfl | rfl)
    · exact hpair
    · exact ⟨_, .atom _, trivial⟩
  have hprinted : Store.shared.renderAll 2 [.pair 1, .bool true] =
      .ok ["((a . 5) a . 5)", "#t"] := by decide +kernel
  have hjoined : Joined ["((a . 5) a . 5)", "#t"] "((a . 5) a . 5) #t".toList :=
    .cons gap_space (by decide) (.one "#t")
  exact ⟨hpair, hprinted, (parse_rendered hreadable hprinted).1 _ _ (by decide) hjoined⟩

end SmallScheme
