import SmallScheme.Proofs.TokenClass

/-!
# The tokens of whole texts

Cutting takes the tokens of a text one by one from its front.  `tokensFrom_token` says so for a
spelling and a rest that does not lengthen it, and `tokensFrom_gap_append` skips a gap; the gaps are
blanks and comments that are ended by a line feed (`Gap`).

Of any text, every token is a spelling of its kind (`spells_of_mem_tokensFrom`), and there are at
most as many tokens as characters (`length_tokensFrom_le`).
-/

namespace SmallScheme

/-! ## Gaps -/

/-- Blanks, and comments with the line feeds that end them. -/
inductive Gap : List Char → Prop
  | nil : Gap []
  /-- A blank. -/
  | blank {c : Char} {cs : List Char} : Text.isBlank c = true → Gap cs → Gap (c :: cs)
  /-- A comment. -/
  | comment {body cs : List Char} : '\n' ∉ body → Gap cs → Gap (';' :: (body ++ '\n' :: cs))

lemma gapLengthFrom_comment {body : List Char} (h : '\n' ∉ body) (cs : List Char) :
    gapLengthFrom true (body ++ '\n' :: cs) = body.length + 1 + gapLengthFrom false cs := by
  induction body with
  | nil => simp [gapLengthFrom, add_comm]
  | cons c body ih =>
    simp only [List.mem_cons, not_or] at h
    have hc : (c != '\n') = true := by simpa using Ne.symm h.1
    simp only [List.cons_append, gapLengthFrom, if_true, hc, ih h.2, List.length_cons]
    omega

/-- A gap in front of a text is part of the gap at its front. -/
lemma gapLength_append {g : List Char} (h : Gap g) (cs : List Char) :
    gapLength (g ++ cs) = g.length + gapLength cs := by
  unfold gapLength
  induction h with
  | nil => simp
  | @blank c g hc _ ih =>
    simp only [List.cons_append, gapLengthFrom, Bool.false_eq_true, if_false, hc, if_true, ih,
      List.length_cons]
    omega
  | @comment body g hbody _ ih =>
    have hblank : Text.isBlank ';' = false := by decide
    simp only [List.cons_append, gapLengthFrom, Bool.false_eq_true, if_false, hblank, if_true,
      List.append_assoc, gapLengthFrom_comment hbody, ih, List.length_cons, List.length_append]
    omega

lemma isBlank_eq_false_of_isAlphanum {c : Char} (h : c.isAlphanum = true) :
    Text.isBlank c = false := by
  rw [isAlphanum_iff_toNat] at h
  simp [Text.isBlank]
  omega

/-- No token starts with a blank or like a comment. -/
lemma TokenKind.Spells.not_gap {kind : TokenKind} {c : Char} {cs : List Char}
    (h : kind.Spells (c :: cs)) : Text.isBlank c = false ∧ c ≠ ';' := by
  have digit : c.isDigit = true → Text.isBlank c = false ∧ c ≠ ';' := fun hc =>
    ⟨isBlank_eq_false_of_isAlphanum (by simp [Char.isAlphanum, hc]), by rintro rfl; cases hc⟩
  have initial : isInitial c = true → Text.isBlank c = false ∧ c ≠ ';' := fun hc => by
    have hmarks : ∀ d ∈ "!$%&*.:<=>?^_~".toList, Text.isBlank d = false ∧ d ≠ ';' :=
      List.all_iff_forall_prop.mp (by decide)
    rcases Bool.or_eq_true _ _ ▸ hc with hc | hc
    · exact ⟨isBlank_eq_false_of_isAlphanum (by simp [Char.isAlphanum, hc]), by rintro rfl; cases hc⟩
    · exact hmarks c (by simpa using hc)
  cases kind with
  | number =>
    obtain ⟨radix, ds, hspelled⟩ := h
    cases hspelled with
    | plain hrun => exact digit (hrun.2 c (by simp))
    | marked => decide
  | identifier =>
    rcases h with ⟨d, rest, hd, hc, -⟩ | h | h
    · cases hd
      exact initial hc
    · cases h
      decide
    · cases h
      decide
  | boolean => rcases h with h | h <;> cases h <;> decide
  | string =>
    obtain ⟨body, h, -⟩ := h
    cases h
    decide
  | _ =>
    cases h
    decide

lemma gapLength_of_spells {kind : TokenKind} {lexeme : List Char} (h : kind.Spells lexeme)
    (rest : List Char) : gapLength (lexeme ++ rest) = 0 := by
  obtain ⟨c, cs, rfl⟩ := List.exists_cons_of_ne_nil h.ne_nil
  have hc := h.not_gap
  simp [gapLength, gapLengthFrom, hc]

/-! ## The first token -/

lemma front_gap_append {g : List Char} (h : Gap g) (position : Nat) (cs : List Char) :
    front position (g ++ cs) = front (position + g.length) cs := by
  have hdrop : (g ++ cs).drop (g.length + gapLength cs) = cs.drop (gapLength cs) := by
    rw [← List.drop_drop, List.drop_left]
  unfold front
  dsimp only
  rw [gapLength_append h, hdrop, add_assoc]

lemma front_of_scan? {lexeme rest : List Char} {kind : TokenKind}
    (h : scan? (lexeme ++ rest) = some (kind, lexeme)) (position : Nat) :
    front position (lexeme ++ rest) = .token ⟨kind, String.ofList lexeme, position⟩ rest := by
  have hspells := (spells_of_scan? h).1
  have hgap := gapLength_of_spells hspells rest
  obtain ⟨c, cs, rfl⟩ := List.exists_cons_of_ne_nil hspells.ne_nil
  unfold front
  dsimp only
  rw [hgap, List.drop_zero]
  simp only [List.cons_append] at h ⊢
  rw [h]
  simp

/-! ## All tokens -/

lemma tokensFrom_nil (position : Nat) : tokensFrom position [] = ⟨[], none⟩ := by
  rw [tokensFrom]
  split
  · rfl
  · rename_i h
    cases h
  · rename_i h
    cases h

/-- Two texts with the same front have the same tokens. -/
lemma tokensFrom_congr {position position' : Nat} {cs cs' : List Char}
    (h : front position cs = front position' cs') :
    tokensFrom position cs = tokensFrom position' cs' := by
  rw [tokensFrom, tokensFrom]
  split <;> rename_i hfront <;> rw [h] at hfront <;> split <;> simp_all

/-- There is no token in a gap. -/
theorem tokensFrom_gap_append {g : List Char} (h : Gap g) (position : Nat) (cs : List Char) :
    tokensFrom position (g ++ cs) = tokensFrom (position + g.length) cs :=
  tokensFrom_congr (front_gap_append h position cs)

lemma tokensFrom_of_scan? {lexeme rest : List Char} {kind : TokenKind}
    (h : scan? (lexeme ++ rest) = some (kind, lexeme)) (position : Nat) :
    tokensFrom position (lexeme ++ rest) =
      ⟨⟨kind, String.ofList lexeme, position⟩ ::
          (tokensFrom (position + lexeme.length) rest).tokens,
        (tokensFrom (position + lexeme.length) rest).fault⟩ := by
  have hfront := front_of_scan? h position
  rw [tokensFrom]
  split
  · rename_i hother
    rw [hfront] at hother
    cases hother
  · rename_i hother
    rw [hfront] at hother
    cases hother
  · rename_i hother
    rw [hfront] at hother
    cases hother
    simp

/-- A spelling that the rest of the text does not lengthen is the first token. -/
theorem tokensFrom_token {lexeme rest : List Char} {kind : TokenKind}
    (hlexeme : kind.Spells lexeme) (hrest : Breaks rest) (position : Nat) :
    tokensFrom position (lexeme ++ rest) =
      ⟨⟨kind, String.ofList lexeme, position⟩ ::
          (tokensFrom (position + lexeme.length) rest).tokens,
        (tokensFrom (position + lexeme.length) rest).fault⟩ :=
  tokensFrom_of_scan? (scan?_append hlexeme hrest) position

/-- What the front of a text is, when it is a token. -/
lemma front_eq_token {position : Nat} {cs rest : List Char} {token : Token}
    (h : front position cs = .token token rest) : token.kind.Spells token.text.toList := by
  unfold front at h
  dsimp only at h
  split at h
  · cases h
  · split at h
    · cases h
    · rename_i hscan
      cases h
      simpa using (spells_of_scan? hscan).1

/-- Every token is a spelling of its kind. -/
theorem spells_of_mem_tokensFrom {position : Nat} {cs : List Char} {token : Token}
    (h : token ∈ (tokensFrom position cs).tokens) : token.kind.Spells token.text.toList := by
  fun_induction tokensFrom position cs with
  | case1 => simp at h
  | case2 => simp at h
  | case3 position cs first rest hfront _ ih =>
    rcases List.mem_cons.mp h with rfl | h
    · exact front_eq_token hfront
    · exact ih h

/-- There are at most as many tokens as characters. -/
theorem length_tokensFrom_le (position : Nat) (cs : List Char) :
    (tokensFrom position cs).tokens.length ≤ cs.length := by
  fun_induction tokensFrom position cs with
  | case1 => simp
  | case2 => simp
  | case3 position cs first rest hfront _ ih =>
    calc (first :: (tokensFrom (first.position + first.text.length) rest).tokens).length
        ≤ rest.length + 1 := Nat.succ_le_succ ih
      _ ≤ cs.length := front_rest_length hfront

end SmallScheme
