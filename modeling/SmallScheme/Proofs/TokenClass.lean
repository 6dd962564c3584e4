import Mathlib.Data.Bool.AllAny
import Mathlib.Data.List.TakeWhile
import Mathlib.Tactic
import SmallScheme.Numeral
import SmallScheme.Token.Lexer

/-!
# Classes of tokens

What a token of each kind may look like, said without the scanner: `TokenKind.Spells` is the class
of spellings of a kind.  A number has one of five forms, according to its radix
(`Numeral.Spelled`).

The scanner and the classes fit together in two ways:

* `spells_of_scan?`: what is scanned is in the class of its kind and stands at the front of the
  text;
* `scan?_append`: a spelling of a class is scanned as a whole if the text after it does not go on
  with a character that an identifier may go on with (`Breaks`).
-/

namespace SmallScheme

/-! ## Runs of digits -/

/-- At least one character, and all of one class. -/
def IsRun (p : Char → Bool) (cs : List Char) : Prop :=
  cs ≠ [] ∧ ∀ c ∈ cs, p c = true

/-- The digits of a radix, as they are written in a program text. -/
def Radix.isDigit : Radix → Char → Bool
  | binary => isBinaryDigit
  | octal => isOctalDigit
  | decimal => Char.isDigit
  | hexadecimal => isHexDigit

/-- `cs` is a numeral with the digits `ds`: without a mark it is decimal. -/
inductive Numeral.Spelled : Radix → (ds cs : List Char) → Prop
  /-- Decimal digits alone. -/
  | plain {ds : List Char} : IsRun Char.isDigit ds → Spelled .decimal ds ds
  /-- Digits after the mark of their radix. -/
  | marked {ds : List Char} (radix : Radix) : IsRun radix.isDigit ds →
      Spelled radix ds ('#' :: radix.letter :: ds)

/-! ## The seven classes -/

/-- The spellings of a kind of tokens. -/
def TokenKind.Spells : TokenKind → List Char → Prop
  | boolean, cs => cs = ['#', 't'] ∨ cs = ['#', 'f']
  | number, cs => ∃ radix ds, Numeral.Spelled radix ds cs
  | identifier, cs =>
    (∃ c rest, cs = c :: rest ∧ isInitial c = true ∧ ∀ d ∈ rest, isSubsequent d = true) ∨
      cs = ['+'] ∨ cs = ['-']
  | lparen, cs => cs = ['(']
  | rparen, cs => cs = [')']
  | quote, cs => cs = ['\'']
  | string, cs => ∃ body, cs = '"' :: (body ++ ['"']) ∧ ∀ c ∈ body, c ≠ '"' ∧ c ≠ '\n'

/-- A text that does not go on with a character of an identifier. -/
def Breaks (cs : List Char) : Prop :=
  ∀ c ∈ cs.head?, isSubsequent c = false

@[simp] lemma breaks_nil : Breaks [] := by
  simp [Breaks]

@[simp] lemma breaks_cons {c : Char} {cs : List Char} :
    Breaks (c :: cs) ↔ isSubsequent c = false := by
  simp [Breaks]

/-- Every spelling has a character. -/
lemma TokenKind.Spells.ne_nil {kind : TokenKind} {cs : List Char} (h : kind.Spells cs) :
    cs ≠ [] := by
  rintro rfl
  cases kind with
  | number =>
    obtain ⟨radix, ds, hspelled⟩ := h
    cases hspelled with
    | plain hrun => exact hrun.1 rfl
  | _ => simp [Spells] at h

/-! ## What is scanned is in its class -/

lemma isRun_takeWhile {p : Char → Bool} {cs : List Char} (h : cs.takeWhile p ≠ []) :
    IsRun p (cs.takeWhile p) :=
  ⟨h, fun _ hc => List.mem_takeWhile_imp hc⟩

lemma scanDigits?_eq_some {mark cs lexeme : List Char} {isDigit : Char → Bool}
    {kind : TokenKind} (h : scanDigits? mark isDigit cs = some (kind, lexeme)) :
    kind = .number ∧ lexeme = mark ++ cs.takeWhile isDigit ∧ cs.takeWhile isDigit ≠ [] := by
  unfold scanDigits? at h
  split at h
  · simp at h
  · rename_i hne
    simp only [Option.some.injEq, Prod.mk.injEq] at h
    exact ⟨h.1.symm, h.2.symm, hne⟩

/-- A numeral after the mark of its radix. -/
lemma spells_of_scanDigits? (radix : Radix) {cs lexeme : List Char} {kind : TokenKind}
    (h : scanDigits? ['#', radix.letter] radix.isDigit cs = some (kind, lexeme)) :
    kind.Spells lexeme ∧ lexeme <+: '#' :: radix.letter :: cs := by
  obtain ⟨rfl, rfl, hne⟩ := scanDigits?_eq_some h
  refine ⟨⟨radix, _, .marked radix (isRun_takeWhile hne)⟩, ?_⟩
  simpa [List.cons_prefix_cons] using List.takeWhile_prefix radix.isDigit

lemma spells_of_scanString? {cs lexeme : List Char} {kind : TokenKind}
    (h : scanString? cs = some (kind, lexeme)) :
    kind.Spells lexeme ∧ lexeme <+: '"' :: cs := by
  unfold scanString? at h
  dsimp only at h
  split at h
  · rename_i rest hdrop
    simp only [Option.some.injEq, Prod.mk.injEq] at h
    obtain ⟨rfl, rfl⟩ := h
    set body := cs.takeWhile fun c => c != '"' && c != '\n' with hbody
    have hall : ∀ c ∈ body, c ≠ '"' ∧ c ≠ '\n' := by
      intro c hc
      simpa using List.mem_takeWhile_imp hc
    -- the body is what stands before the closing quote
    have htake : body = cs.take body.length :=
      List.prefix_iff_eq_take.mp (List.takeWhile_prefix _)
    have hsplit : cs = body ++ '"' :: rest := by
      rw [← hdrop]
      conv_lhs => rw [← List.take_append_drop body.length cs, ← htake]
    refine ⟨⟨body, rfl, hall⟩, rest, ?_⟩
    simp [hsplit]
  · simp at h

/-- What is scanned is a spelling of its kind and stands at the front of the text. -/
theorem spells_of_scan? {cs lexeme : List Char} {kind : TokenKind}
    (h : scan? cs = some (kind, lexeme)) : kind.Spells lexeme ∧ lexeme <+: cs := by
  -- one case for each rule of the scanner, in its order
  unfold scan? at h
  split at h
  · simp at h
  · simp only [Option.some.injEq, Prod.mk.injEq] at h
    obtain ⟨rfl, rfl⟩ := h
    exact ⟨rfl, by simp [List.cons_prefix_cons]⟩
  · simp only [Option.some.injEq, Prod.mk.injEq] at h
    obtain ⟨rfl, rfl⟩ := h
    exact ⟨rfl, by simp [List.cons_prefix_cons]⟩
  · simp only [Option.some.injEq, Prod.mk.injEq] at h
    obtain ⟨rfl, rfl⟩ := h
    exact ⟨rfl, by simp [List.cons_prefix_cons]⟩
  · exact spells_of_scanString? h
  · split at h
    · simp only [Option.some.injEq, Prod.mk.injEq] at h
      obtain ⟨rfl, rfl⟩ := h
      exact ⟨.inl rfl, by simp [List.cons_prefix_cons]⟩
    · simp only [Option.some.injEq, Prod.mk.injEq] at h
      obtain ⟨rfl, rfl⟩ := h
      exact ⟨.inr rfl, by simp [List.cons_prefix_cons]⟩
    · exact spells_of_scanDigits? .binary h
    · exact spells_of_scanDigits? .octal h
    · exact spells_of_scanDigits? .decimal h
    · exact spells_of_scanDigits? .hexadecimal h
    · simp at h
  · rename_i c cs _ _ _ _ _
    split at h
    · rename_i hdigit
      simp only [Option.some.injEq, Prod.mk.injEq] at h
      obtain ⟨rfl, rfl⟩ := h
      refine ⟨⟨.decimal, _, .plain ⟨by simp, ?_⟩⟩, ?_⟩
      · simpa [hdigit] using fun c hc => List.mem_takeWhile_imp (p := Char.isDigit) hc
      · simpa [List.cons_prefix_cons] using List.takeWhile_prefix Char.isDigit
    · split at h
      · rename_i hinitial
        simp only [Option.some.injEq, Prod.mk.injEq] at h
        obtain ⟨rfl, rfl⟩ := h
        refine ⟨.inl ⟨c, _, rfl, hinitial, fun d hd => List.mem_takeWhile_imp hd⟩, ?_⟩
        simpa [List.cons_prefix_cons] using List.takeWhile_prefix isSubsequent
      · split at h
        · rename_i hsign
          simp only [Option.some.injEq, Prod.mk.injEq] at h
          obtain ⟨rfl, rfl⟩ := h
          refine ⟨.inr ?_, by simp [List.cons_prefix_cons]⟩
          simpa using hsign
        · simp at h

/-! ## A spelling is scanned as a whole -/

lemma takeWhile_append_of_breaks {p : Char → Bool} (hp : ∀ c, p c = true → isSubsequent c = true)
    {ds rest : List Char} (hds : ∀ d ∈ ds, p d = true) (hrest : Breaks rest) :
    (ds ++ rest).takeWhile p = ds := by
  rw [List.takeWhile_append_of_pos hds]
  cases rest with
  | nil => simp
  | cons c rest =>
    have hc : ¬p c = true := fun h => by simp [hp c h] at hrest
    simp [hc]

lemma isAlpha_iff_toNat {c : Char} : c.isAlpha = true ↔
    65 ≤ c.toNat ∧ c.toNat ≤ 90 ∨ 97 ≤ c.toNat ∧ c.toNat ≤ 122 := by
  show (decide ('A'.val ≤ c.val ∧ c.val ≤ 'Z'.val) ||
    (decide ('a'.val ≤ c.val) && decide (c.val ≤ 'z'.val))) = true ↔ _
  simp [UInt32.le_iff_toNat_le]

lemma isAlphanum_iff_toNat {c : Char} : c.isAlphanum = true ↔
    (65 ≤ c.toNat ∧ c.toNat ≤ 90 ∨ 97 ≤ c.toNat ∧ c.toNat ≤ 122) ∨
      48 ≤ c.toNat ∧ c.toNat ≤ 57 := by
  rw [Char.isAlphanum, Bool.or_eq_true, isAlpha_iff_toNat, Char.isDigit_iff_toNat]
  rfl

lemma isSubsequent_of_isAlphanum {c : Char} (h : c.isAlphanum = true) :
    isSubsequent c = true := by
  rcases Bool.or_eq_true _ _ ▸ h with h | h <;> simp [isSubsequent, isInitial, h]

lemma Radix.isAlphanum_of_isDigit (radix : Radix) {c : Char} (h : radix.isDigit c = true) :
    c.isAlphanum = true := by
  cases radix with
  | binary => rcases (by simpa [isDigit, isBinaryDigit] using h) with rfl | rfl <;> decide
  | octal =>
    rw [isAlphanum_iff_toNat]
    simp [isDigit, isOctalDigit, Char.le_def, UInt32.le_iff_toNat_le] at h
    omega
  | decimal => simp [Char.isAlphanum, show c.isDigit = true from h]
  | hexadecimal =>
    rw [isAlphanum_iff_toNat]
    simp [isDigit, isHexDigit, Char.isDigit, Char.le_def, UInt32.le_iff_toNat_le] at h
    omega

lemma Radix.takeWhile_append (radix : Radix) {ds rest : List Char}
    (hds : ∀ d ∈ ds, radix.isDigit d = true) (hrest : Breaks rest) :
    (ds ++ rest).takeWhile radix.isDigit = ds :=
  takeWhile_append_of_breaks
    (fun _ h => isSubsequent_of_isAlphanum (radix.isAlphanum_of_isDigit h)) hds hrest

lemma scanDigits?_append (radix : Radix) {ds rest : List Char} (hds : IsRun radix.isDigit ds)
    (hrest : Breaks rest) :
    scanDigits? ['#', radix.letter] radix.isDigit (ds ++ rest) =
      some (.number, '#' :: radix.letter :: ds) := by
  unfold scanDigits?
  rw [radix.takeWhile_append hds.2 hrest]
  cases ds with
  | nil => exact absurd rfl hds.1
  | cons d ds => rfl

lemma scanString?_append {body : List Char} (hbody : ∀ c ∈ body, c ≠ '"' ∧ c ≠ '\n')
    (rest : List Char) :
    scanString? (body ++ '"' :: rest) = some (.string, '"' :: (body ++ ['"'])) := by
  have htake : (body ++ '"' :: rest).takeWhile (fun c => c != '"' && c != '\n') = body := by
    rw [List.takeWhile_append_of_pos (by simpa using hbody)]
    simp
  simp [scanString?, htake]

/-- The rules for a first character that is no bracket, no quote and no mark. -/
lemma scan?_cons {c : Char} (cs : List Char) (h : c ∉ ['(', ')', '\'', '"', '#']) :
    scan? (c :: cs) =
      if c.isDigit then some (.number, c :: cs.takeWhile Char.isDigit)
      else if isInitial c then some (.identifier, c :: cs.takeWhile isSubsequent)
      else if c = '+' ∨ c = '-' then some (.identifier, [c])
      else none := by
  simp only [List.mem_cons, List.not_mem_nil, or_false, not_or] at h
  unfold scan?
  split <;> simp_all

lemma isDigit_eq_false_of_isInitial {c : Char} (h : isInitial c = true) : c.isDigit = false := by
  have hmarks : ∀ d ∈ "!$%&*.:<=>?^_~".toList, d.isDigit = false :=
    List.all_iff_forall_prop.mp (by decide)
  rcases Bool.or_eq_true _ _ ▸ h with h | h
  · rw [isAlpha_iff_toNat] at h
    by_contra hdigit
    have hrange := Char.isDigit_iff_toNat.mp (by simpa using hdigit)
    simp at hrange
    omega
  · exact hmarks c (by simpa using h)

lemma not_mem_marks_of_isInitial {c : Char} (h : isInitial c = true) :
    c ∉ ['(', ')', '\'', '"', '#'] := by
  simp only [List.mem_cons, List.not_mem_nil, or_false]
  rintro (rfl | rfl | rfl | rfl | rfl) <;> revert h <;> decide

lemma not_mem_marks_of_isDigit {c : Char} (h : c.isDigit = true) :
    c ∉ ['(', ')', '\'', '"', '#'] := by
  simp only [List.mem_cons, List.not_mem_nil, or_false]
  rintro (rfl | rfl | rfl | rfl | rfl) <;> revert h <;> decide

/-- A spelling of a kind is scanned as a whole where no identifier could go on after it. -/
theorem scan?_append {kind : TokenKind} {lexeme rest : List Char} (h : kind.Spells lexeme)
    (hrest : Breaks rest) : scan? (lexeme ++ rest) = some (kind, lexeme) := by
  cases kind with
  | boolean => rcases h with rfl | rfl <;> rfl
  | number =>
    obtain ⟨radix, ds, hspelled⟩ := h
    cases hspelled with
    | plain hrun =>
      obtain ⟨d, ds, rfl⟩ := List.exists_cons_of_ne_nil hrun.1
      have hd : d.isDigit = true := hrun.2 d (by simp)
      have hds : ∀ c ∈ ds, c.isDigit = true := fun c hc => hrun.2 c (List.mem_cons_of_mem d hc)
      have htake := Radix.takeWhile_append .decimal hds hrest
      rw [List.cons_append, scan?_cons _ (not_mem_marks_of_isDigit hd), if_pos hd]
      exact congrArg (fun ds => some (TokenKind.number, d :: ds)) htake
    | marked _ hrun =>
      have hscan := scanDigits?_append radix hrun hrest
      cases radix <;> exact hscan
  | identifier =>
    rcases h with ⟨c, cs, rfl, hc, hcs⟩ | rfl | rfl
    · rw [List.cons_append, scan?_cons _ (not_mem_marks_of_isInitial hc),
        if_neg (by simp [isDigit_eq_false_of_isInitial hc]), if_pos hc,
        takeWhile_append_of_breaks (fun _ h => h) hcs hrest]
    · rfl
    · rfl
  | lparen => cases h; rfl
  | rparen => cases h; rfl
  | quote => cases h; rfl
  | string =>
    obtain ⟨body, rfl, hbody⟩ := h
    simpa [scan?] using scanString?_append hbody rest

end SmallScheme
