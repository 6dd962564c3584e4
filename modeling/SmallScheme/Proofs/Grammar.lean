import SmallScheme.Datum
import SmallScheme.Proofs.Positional

/-!
# The grammar of data

Which tokens make up which data, as rules:

* a program is a sequence of data;
* a datum is a single token (`AtomOf`), a quote mark before a datum, or a list;
* a list is a sequence of items between parentheses, and a point may stand before its last item.

An item is a datum that does not start with a lone point.  So a lone point is an ordinary
identifier at the top level and directly after a quote mark, and punctuation directly inside a
list.  The datum after the point is the end of the list, and `( . d)` is `d` itself.

The main result is `ProgramOf.unique`: tokens make up the data of at most one program.
-/

namespace SmallScheme

/-- The tokens start with a lone point. -/
def StartsWithDot (ts : List Token) : Prop :=
  ∃ token ∈ ts.head?, token.isDot = true

/-- The atom of a token that is a datum by itself.  A number has its positional value, however
long it is. -/
inductive AtomOf : Token → Atom → Prop
  | boolean {token : Token} : token.kind = .boolean → AtomOf token (.bool (token.text == "#t"))
  | number {token : Token} {radix : Radix} {ds : List Char} : token.kind = .number →
      Numeral.Spelled radix ds token.text.toList → AtomOf token (.number (radix.value ds))
  | identifier {token : Token} : token.kind = .identifier → AtomOf token (.symbol ⟨token.text⟩)
  | string {token : Token} {body : List Char} : token.kind = .string →
      token.text.toList = '"' :: (body ++ ['"']) → AtomOf token (.text (String.ofList body))

mutual

/-- Tokens that make up one datum. -/
inductive DatumOf : List Token → Datum → Prop
  /-- A token that is a datum by itself. -/
  | simple {token : Token} {a : Atom} : AtomOf token a → DatumOf [token] (.atom a)
  /-- A quote mark before a datum. -/
  | quote {mark : Token} {ts : List Token} {d : Datum} : mark.kind = .quote → DatumOf ts d →
      DatumOf (mark :: ts) d.quoted
  /-- Items between parentheses. -/
  | list {left right : Token} {ts : List Token} {ds : List Datum} : left.kind = .lparen →
      ItemsOf ts ds → right.kind = .rparen → DatumOf (left :: (ts ++ [right])) (.ofList ds .nil)
  /-- Items between parentheses, the last one after a point. -/
  | dotted {left dot right : Token} {ts us : List Token} {ds : List Datum} {d : Datum} :
      left.kind = .lparen → ItemsOf ts ds → dot.isDot = true → DatumOf us d →
      ¬StartsWithDot us → right.kind = .rparen →
      DatumOf (left :: (ts ++ dot :: (us ++ [right]))) (.ofList ds d)

/-- Tokens that make up the items of a list. -/
inductive ItemsOf : List Token → List Datum → Prop
  | nil : ItemsOf [] []
  /-- One more item in front. -/
  | cons {ts us : List Token} {d : Datum} {ds : List Datum} : DatumOf ts d → ¬StartsWithDot ts →
      ItemsOf us ds → ItemsOf (ts ++ us) (d :: ds)

end

/-- Tokens that make up a program. -/
inductive ProgramOf : List Token → List Datum → Prop
  | nil : ProgramOf [] []
  /-- One more datum in front. -/
  | cons {ts us : List Token} {d : Datum} {ds : List Datum} : DatumOf ts d →
      ProgramOf us ds → ProgramOf (ts ++ us) (d :: ds)

/-- Induction over the derivations of data and of items together. -/
theorem derivation_induction {P : List Token → Datum → Prop} {Q : List Token → List Datum → Prop}
    (simple : ∀ {token a}, AtomOf token a → P [token] (.atom a))
    (quote : ∀ {mark ts d}, mark.kind = .quote → DatumOf ts d → P ts d → P (mark :: ts) d.quoted)
    (list : ∀ {left right ts ds}, left.kind = .lparen → ItemsOf ts ds → right.kind = .rparen →
      Q ts ds → P (left :: (ts ++ [right])) (.ofList ds .nil))
    (dotted : ∀ {left dot right ts us ds d}, left.kind = .lparen → ItemsOf ts ds →
      dot.isDot = true → DatumOf us d → ¬StartsWithDot us → right.kind = .rparen → Q ts ds → P us d →
      P (left :: (ts ++ dot :: (us ++ [right]))) (.ofList ds d))
    (nil : Q [] [])
    (cons : ∀ {ts us d ds}, DatumOf ts d → ¬StartsWithDot ts → ItemsOf us ds → P ts d → Q us ds →
      Q (ts ++ us) (d :: ds)) :
    (∀ {ts d}, DatumOf ts d → P ts d) ∧ ∀ {ts ds}, ItemsOf ts ds → Q ts ds :=
  ⟨fun h => @DatumOf.rec (fun ts d _ => P ts d) (fun ts ds _ => Q ts ds) simple quote
      (fun hleft hitems hright ih => list hleft hitems hright ih)
      (fun hleft hitems hdot hd hstart hright ih ih' =>
        dotted hleft hitems hdot hd hstart hright ih ih') nil
      (fun hd hstart hds ih ih' => cons hd hstart hds ih ih') _ _ h,
    fun h => @ItemsOf.rec (fun ts d _ => P ts d) (fun ts ds _ => Q ts ds) simple quote
      (fun hleft hitems hright ih => list hleft hitems hright ih)
      (fun hleft hitems hdot hd hstart hright ih ih' =>
        dotted hleft hitems hdot hd hstart hright ih ih') nil
      (fun hd hstart hds ih ih' => cons hd hstart hds ih ih') _ _ h⟩

/-! ## Sequences -/

@[simp] lemma startsWithDot_cons {token : Token} {ts : List Token} :
    StartsWithDot (token :: ts) ↔ token.isDot = true := by
  simp [StartsWithDot]

lemma Token.not_isDot_of_kind {token : Token} {kind : TokenKind} (h : token.kind = kind)
    (hne : kind ≠ .identifier) : ¬token.isDot = true := by
  simp [isDot, h, hne]

lemma DatumOf.ne_nil {ts : List Token} {d : Datum} (h : DatumOf ts d) : ts ≠ [] := by
  cases h <;> simp

/-- One more item at the end. -/
lemma ItemsOf.concat {ts us : List Token} {ds : List Datum} {d : Datum} (h : ItemsOf ts ds)
    (hd : DatumOf us d) (hstart : ¬StartsWithDot us) : ItemsOf (ts ++ us) (ds ++ [d]) := by
  refine (derivation_induction (P := fun _ _ => True)
    (Q := fun ts ds => ItemsOf (ts ++ us) (ds ++ [d])) ?simple ?quote ?list ?dotted ?nil ?cons).2 h
  case nil => simpa using ItemsOf.cons hd hstart .nil
  case cons =>
    intro ts us' d' ds hfirst hfirstStart _ _ ih
    simpa using ItemsOf.cons hfirst hfirstStart ih
  all_goals intros; trivial

lemma ItemsOf.singleton_inv {ts : List Token} {d : Datum} (h : ItemsOf ts [d]) :
    DatumOf ts d ∧ ¬StartsWithDot ts := by
  cases h with
  | cons hd hstart hrest =>
    cases hrest
    rw [List.append_nil]
    exact ⟨hd, hstart⟩

/-- One more datum at the end. -/
lemma ProgramOf.concat {ts us : List Token} {ds : List Datum} {d : Datum} (h : ProgramOf ts ds)
    (hd : DatumOf us d) : ProgramOf (ts ++ us) (ds ++ [d]) := by
  induction h with
  | nil => simpa using ProgramOf.cons hd .nil
  | cons hfirst _ ih => simpa using ProgramOf.cons hfirst ih

/-! ## Unambiguity -/

lemma AtomOf.unique {token : Token} {a b : Atom} (h : AtomOf token a) (h' : AtomOf token b) :
    a = b := by
  cases h with
  | boolean hkind => cases h' <;> simp_all
  | number hkind hspelled =>
    cases h' with
    | number _ hspelled' =>
      obtain ⟨rfl, rfl⟩ := hspelled.unique hspelled'
      rfl
    | _ => simp_all
  | identifier hkind => cases h' <;> simp_all
  | string hkind htext => cases h' <;> simp_all

/-- Tokens that go on with the end of a list of items. -/
def ItemsEnd (ts : List Token) : Prop :=
  ∃ token ∈ ts.head?, token.kind = .rparen ∨ token.isDot = true

lemma itemsEnd_of_rparen {token : Token} (h : token.kind = .rparen) (ts : List Token) :
    ItemsEnd (token :: ts) :=
  ⟨token, rfl, .inl h⟩

lemma itemsEnd_of_isDot {token : Token} (h : token.isDot = true) (ts : List Token) :
    ItemsEnd (token :: ts) :=
  ⟨token, rfl, .inr h⟩

lemma AtomOf.kind_cases {token : Token} {a : Atom} (h : AtomOf token a) :
    token.kind = .boolean ∨ token.kind = .number ∨ token.kind = .identifier ∨
      token.kind = .string := by
  cases h <;> simp_all

/-- No datum starts with a closing parenthesis. -/
lemma DatumOf.head_ne_rparen {ts : List Token} {d : Datum} (h : DatumOf ts d) :
    ∀ token ∈ ts.head?, token.kind ≠ .rparen := by
  rintro token htoken
  cases h with
  | simple hatom =>
    cases htoken
    rcases hatom.kind_cases with h | h | h | h <;> simp [h]
  | quote hmark => cases htoken; simp [hmark]
  | list hleft => cases htoken; simp [hleft]
  | dotted hleft => cases htoken; simp [hleft]

/-- An item is not the end of the items. -/
lemma DatumOf.not_itemsEnd {ts : List Token} {d : Datum} (h : DatumOf ts d)
    (hstart : ¬StartsWithDot ts) (rest : List Token) : ¬ItemsEnd (ts ++ rest) := by
  rintro ⟨token, htoken, hend⟩
  obtain ⟨first, us, rfl⟩ := List.exists_cons_of_ne_nil h.ne_nil
  obtain rfl : first = token := Option.some.inj htoken
  rcases hend with hkind | hdot
  · exact h.head_ne_rparen first rfl hkind
  · exact hstart ⟨first, rfl, hdot⟩

/-! The first token of a datum tells by which rule it is made, up to a point in a list. -/

lemma DatumOf.simple_inv {token : Token} {ts : List Token} {a : Atom} {d : Datum}
    (h : DatumOf (token :: ts) d) (ha : AtomOf token a) : ts = [] ∧ d = .atom a := by
  cases h with
  | simple hb => exact ⟨rfl, by rw [ha.unique hb]⟩
  | quote hkind => rcases ha.kind_cases with h | h | h | h <;> simp_all
  | list hkind => rcases ha.kind_cases with h | h | h | h <;> simp_all
  | dotted hkind => rcases ha.kind_cases with h | h | h | h <;> simp_all

lemma DatumOf.quote_inv {mark : Token} {ts : List Token} {d : Datum} (h : DatumOf (mark :: ts) d)
    (hmark : mark.kind = .quote) : ∃ e, DatumOf ts e ∧ d = e.quoted := by
  cases h with
  | simple hb => rcases hb.kind_cases with h | h | h | h <;> simp_all
  | quote _ hd => exact ⟨_, hd, rfl⟩
  | list hkind => simp_all
  | dotted hkind => simp_all

lemma DatumOf.lparen_inv {left : Token} {ts : List Token} {d : Datum} (h : DatumOf (left :: ts) d)
    (hleft : left.kind = .lparen) :
    (∃ us right ds, ts = us ++ [right] ∧ ItemsOf us ds ∧ right.kind = .rparen ∧
      d = .ofList ds .nil) ∨
    ∃ us dot vs right ds e, ts = us ++ dot :: (vs ++ [right]) ∧ ItemsOf us ds ∧
      dot.isDot = true ∧ DatumOf vs e ∧ right.kind = .rparen ∧ d = .ofList ds e := by
  cases h with
  | simple hb => rcases hb.kind_cases with h | h | h | h <;> simp_all
  | quote hkind => simp_all
  | list _ hds hright => exact .inl ⟨_, _, _, rfl, hds, hright, rfl⟩
  | dotted _ hds hdot hd _ hright => exact .inr ⟨_, _, _, _, _, _, rfl, hds, hdot, hd, hright, rfl⟩

lemma Token.kind_of_isDot {token : Token} (h : token.isDot = true) : token.kind = .identifier := by
  simp only [isDot, Bool.and_eq_true, beq_iff_eq] at h
  exact h.1

/-- A datum in front of some tokens starts with the first of them. -/
lemma DatumOf.cons_of_append_eq {first : Token} {ts us rest : List Token} {d : Datum}
    (h : DatumOf us d) (heq : first :: ts = us ++ rest) : ∃ vs, us = first :: vs ∧ ts = vs ++ rest := by
  obtain ⟨first', vs, rfl⟩ := List.exists_cons_of_ne_nil h.ne_nil
  simp only [List.cons_append, List.cons.injEq] at heq
  exact ⟨vs, by rw [heq.1], heq.2⟩

/-- The statement of unambiguity for a datum at the front of some tokens. -/
def OnlyDatum (ts : List Token) (d : Datum) : Prop :=
  ∀ {us e rest rest'}, DatumOf us e → ts ++ rest = us ++ rest' → ts = us ∧ d = e

/-- The statement of unambiguity for the items at the front of some tokens. -/
def OnlyItems (ts : List Token) (ds : List Datum) : Prop :=
  ∀ {us es rest rest'}, ItemsOf us es → ItemsEnd rest → ItemsEnd rest' →
    ts ++ rest = us ++ rest' → ts = us ∧ ds = es

/-- Tokens start with at most one datum, and with at most one list of items up to the end of
the items. -/
theorem derivations_unique :
    (∀ {ts d}, DatumOf ts d → OnlyDatum ts d) ∧ ∀ {ts ds}, ItemsOf ts ds → OnlyItems ts ds := by
  refine derivation_induction ?simple ?quote ?list ?dotted ?nil ?cons
  case simple =>
    intro token a ha us e rest rest' h heq
    obtain ⟨vs, rfl, -⟩ := h.cons_of_append_eq heq
    obtain ⟨rfl, rfl⟩ := h.simple_inv ha
    exact ⟨rfl, rfl⟩
  case quote =>
    intro mark ts d hmark _ ih us e rest rest' h heq
    obtain ⟨vs, rfl, hrest⟩ := h.cons_of_append_eq heq
    obtain ⟨e, he, rfl⟩ := h.quote_inv hmark
    obtain ⟨rfl, rfl⟩ := ih he hrest
    exact ⟨rfl, rfl⟩
  case list =>
    intro left right ts ds hleft _ hright ih us e rest rest' h heq
    rw [List.cons_append, List.append_assoc] at heq
    obtain ⟨vs, rfl, hrest⟩ := h.cons_of_append_eq heq
    rcases h.lparen_inv hleft with ⟨us, right', es, rfl, hes, hright', rfl⟩ |
      ⟨us, dot, ws, right', es, e, rfl, hes, hdot, -, -, rfl⟩
    · simp only [List.append_assoc] at hrest
      obtain ⟨rfl, rfl⟩ := ih hes (itemsEnd_of_rparen hright _) (itemsEnd_of_rparen hright' _) hrest
      simp_all
    · -- the items end at the same token, which cannot be a parenthesis and a point
      simp only [List.append_assoc] at hrest
      obtain ⟨rfl, rfl⟩ := ih hes (itemsEnd_of_rparen hright _) (itemsEnd_of_isDot hdot _) hrest
      have hkind := Token.kind_of_isDot hdot
      simp_all
  case dotted =>
    intro left dot right ts us ds d hleft _ hdot _ _ hright ih ihd vs e rest rest' h heq
    rw [List.cons_append, List.append_assoc, List.cons_append, List.append_assoc] at heq
    obtain ⟨ws, rfl, hrest⟩ := h.cons_of_append_eq heq
    rcases h.lparen_inv hleft with ⟨us', right', es, rfl, hes, hright', rfl⟩ |
      ⟨us', dot', ws, right', es, e, rfl, hes, hdot', he, hright', rfl⟩
    · simp only [List.append_assoc] at hrest
      obtain ⟨rfl, rfl⟩ := ih hes (itemsEnd_of_isDot hdot _) (itemsEnd_of_rparen hright' _) hrest
      have hkind := Token.kind_of_isDot hdot
      simp_all
    · simp only [List.append_assoc, List.cons_append] at hrest
      obtain ⟨rfl, rfl⟩ := ih hes (itemsEnd_of_isDot hdot _) (itemsEnd_of_isDot hdot' _) hrest
      simp only [List.append_cancel_left_eq, List.cons.injEq] at hrest
      obtain ⟨rfl, rfl⟩ := ihd he hrest.2
      simp_all
  case nil =>
    intro us es rest rest' h hend _ heq
    cases h with
    | nil => exact ⟨rfl, rfl⟩
    | cons hd hstart _ =>
      rw [List.nil_append, List.append_assoc] at heq
      exact absurd (heq ▸ hend) (hd.not_itemsEnd hstart _)
  case cons =>
    intro ts us d ds hd hstart _ ihd ih vs es rest rest' h hend hend' heq
    cases h with
    | nil =>
      rw [List.nil_append, List.append_assoc] at heq
      exact absurd (heq ▸ hend') (hd.not_itemsEnd hstart _)
    | cons he _ hes =>
      simp only [List.append_assoc] at heq
      obtain ⟨rfl, rfl⟩ := ihd he heq
      obtain ⟨rfl, rfl⟩ := ih hes hend hend' (List.append_cancel_left heq)
      exact ⟨rfl, rfl⟩

/-- **The grammar is unambiguous**: tokens make up the data of at most one program. -/
theorem ProgramOf.unique {ts : List Token} {ds es : List Datum} (h : ProgramOf ts ds)
    (h' : ProgramOf ts es) : ds = es := by
  induction h generalizing es with
  | nil =>
    generalize hts : [] = ts at h'
    cases h' with
    | nil => rfl
    | cons hd => exact absurd (List.append_eq_nil_iff.mp hts.symm).1 hd.ne_nil
  | @cons ts us d ds hd _ ih =>
    generalize hts : ts ++ us = vs at h'
    cases h' with
    | nil => exact absurd (List.append_eq_nil_iff.mp hts).1 hd.ne_nil
    | cons he hes =>
      obtain ⟨rfl, rfl⟩ := derivations_unique.1 hd he hts
      rw [ih (List.append_cancel_left hts ▸ hes)]

end SmallScheme
