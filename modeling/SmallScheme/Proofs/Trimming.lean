import SmallScheme.Proofs.NextLine

/-!
# Blanks around a text

A text means the same without the blanks at both ends (`read_stripChars`).  In front they are part of
the first gap, and all tokens stand further behind.  At the end no token goes on in them, since the
last character of a token is never a blank, and a comment only becomes longer.
-/

namespace SmallScheme

open Text (isBlank dropBlanks stripChars)

/-! ## Blanks at the end -/

section Cutting

variable {kind : TokenKind} {lexeme gap cs blanks rest : List Char} {position : Nat}
  {tokens : List Token} {fault : Option Nat}

lemma isBlank_eq_false_of_isSubsequent {c : Char} (h : isSubsequent c = true) : isBlank c = false := by
  have hinitial : ∀ d ∈ "!$%&*.:<=>?^_~".toList, isBlank d = false :=
    List.all_iff_forall_prop.mp (by decide)
  have hmore : ∀ d ∈ "+-.@".toList, isBlank d = false := List.all_iff_forall_prop.mp (by decide)
  simp only [isSubsequent, isInitial, Bool.or_eq_true] at h
  rcases h with ((h | h) | h) | h
  · exact isBlank_eq_false_of_isAlphanum (by simp [Char.isAlphanum, h])
  · exact hinitial c (by simpa using h)
  · exact isBlank_eq_false_of_isAlphanum (by simp [Char.isAlphanum, h])
  · exact hmore c (by simpa using h)

/-- No token ends in a blank. -/
lemma TokenKind.Spells.last_not_blank {c : Char} (h : kind.Spells (cs ++ [c])) : isBlank c = false := by
  have hlast {d : Char} (ds : List Char) (heq : cs ++ [c] = ds ++ [d]) (hd : isBlank d = false) :
      isBlank c = false := by
    obtain ⟨-, hc⟩ := List.append_inj' heq rfl
    cases hc
    exact hd
  cases kind with
  | boolean => rcases h with h | h <;> exact hlast ['#'] h (by decide)
  | number =>
    obtain ⟨radix, ds, hspelled⟩ := h
    generalize heq : cs ++ [c] = lexeme at hspelled
    have hrun : IsRun radix.isDigit ds := by cases hspelled <;> assumption
    obtain ⟨ds, d, rfl⟩ := (List.eq_nil_or_concat ds).resolve_left hrun.1
    rw [List.concat_eq_append] at hrun hspelled
    have hd : isBlank d = false :=
      isBlank_eq_false_of_isAlphanum (radix.isAlphanum_of_isDigit (hrun.2 d (by simp)))
    cases hspelled with
    | plain => exact hlast ds heq hd
    | marked => exact hlast ('#' :: radix.letter :: ds) heq hd
  | identifier =>
    rcases h with ⟨d, ds, h, hd, hds⟩ | h | h
    · have hmem : c ∈ d :: ds := by simp [← h]
      refine isBlank_eq_false_of_isSubsequent ?_
      rcases List.mem_cons.mp hmem with rfl | hc
      · simp [isSubsequent, hd]
      · exact hds c hc
    · exact hlast [] h (by decide)
    · exact hlast [] h (by decide)
  | string =>
    obtain ⟨body, h, -⟩ := h
    exact hlast ('"' :: body) h (by decide)
  | lparen | rparen | quote => exact hlast [] h (by decide)

/-- A spelling does not go on in blanks. -/
lemma TokenKind.Spells.prefix_append_blanks (h : kind.Spells lexeme)
    (hblanks : ∀ c ∈ blanks, isBlank c = true) (cs : List Char) :
    lexeme <+: cs ++ blanks ↔ lexeme <+: cs := by
  refine ⟨fun hfront => ?_, fun hfront => hfront.trans (List.prefix_append _ _)⟩
  rcases Nat.lt_or_ge cs.length lexeme.length with hlong | hshort
  · -- the part behind `cs` is not empty and consists of blanks
    obtain ⟨more, rfl⟩ :=
      List.prefix_of_prefix_length_le (List.prefix_append cs blanks) hfront hlong.le
    have hmore : more ≠ [] := by
      rintro rfl
      simp at hlong
    obtain ⟨more, c, rfl⟩ := (List.eq_nil_or_concat more).resolve_left hmore
    rw [List.concat_eq_append] at h hfront
    have hc : c ∈ blanks :=
      ((List.prefix_append_right_inj cs).mp hfront).subset (by simp)
    rw [← List.append_assoc] at h
    exact absurd h.last_not_blank (by simp [hblanks c hc])
  · exact List.prefix_of_prefix_length_le hfront (List.prefix_append _ _) hshort

lemma IsLongest.append_blanks (h : IsLongest cs kind lexeme)
    (hblanks : ∀ c ∈ blanks, isBlank c = true) : IsLongest (cs ++ blanks) kind lexeme where
  spells := h.spells
  front := (h.spells.prefix_append_blanks hblanks cs).mpr h.front
  length_le kind' lexeme' hspells hfront :=
    h.length_le kind' lexeme' hspells ((hspells.prefix_append_blanks hblanks cs).mp hfront)

/-- What is skipped in front of other text does not depend on what follows this. -/
lemma Skipped.append_right (h : Skipped gap rest) (hrest : rest ≠ []) (more : List Char) :
    Skipped gap (rest ++ more) := by
  induction h with
  | nil => exact .nil _
  | blank hc _ ih => exact .blank hc (ih hrest)
  | comment hbody hend _ ih =>
    refine .comment hbody (fun c hc => hend c ?_) (ih hrest)
    rwa [← List.append_assoc, List.head?_append_of_ne_nil _ (by simp [hrest])] at hc

lemma skipped_blanks (hblanks : ∀ c ∈ blanks, isBlank c = true) (rest : List Char) :
    Skipped blanks rest := by
  induction blanks with
  | nil => exact .nil rest
  | cons c blanks ih =>
    obtain ⟨hc, hblanks⟩ := List.forall_mem_cons.mp hblanks
    exact .blank hc (ih hblanks)

/-- A gap that ends the text may be longer: a comment goes on in the blanks up to the next line
feed. -/
lemma Skipped.append_blanks (h : Skipped gap []) (hblanks : ∀ c ∈ blanks, isBlank c = true) :
    Skipped (gap ++ blanks) [] := by
  generalize hrest : ([] : List Char) = rest at h
  induction h with
  | nil => exact skipped_blanks hblanks _
  | blank hc _ ih => exact .blank hc (ih hrest)
  | @comment body gap rest hbody hend _ ih =>
    subst hrest
    rw [List.append_nil] at hend
    cases gap with
    | cons c gap =>
      obtain rfl := hend c rfl
      rw [List.cons_append, List.append_assoc]
      exact .comment hbody (by simp) (ih rfl)
    | nil =>
      -- the comment ends where the first line feed stands in the blanks
      set line := blanks.takeWhile (· != '\n')
      set later := blanks.dropWhile (· != '\n')
      have hsplit : (';' :: (body ++ [])) ++ blanks = ';' :: ((body ++ line) ++ later) := by
        rw [List.append_nil, List.append_assoc, List.takeWhile_append_dropWhile, List.cons_append]
      rw [hsplit]
      refine .comment ?_ (fun c hc => ?_) (skipped_blanks (fun c hc => ?_) [])
      · rw [List.mem_append, not_or]
        exact ⟨hbody, fun hmem => by simpa using List.mem_takeWhile_imp hmem⟩
      · rw [List.append_nil] at hc
        have hstop := List.head?_dropWhile_not (· != '\n') blanks
        rw [show (blanks.dropWhile (· != '\n')).head? = some c from hc] at hstop
        simpa using hstop
      · exact hblanks c ((List.dropWhile_sublist _).subset hc)

/-- Blanks at the end change neither tokens nor fault. -/
lemma Decomposes.append_blanks (h : Decomposes position cs tokens fault)
    (hblanks : ∀ c ∈ blanks, isBlank c = true) : Decomposes position (cs ++ blanks) tokens fault := by
  induction h with
  | finished hgap => exact .finished (hgap.append_blanks hblanks)
  | @stuck position gap rest c hgap hblank hcomment hnone =>
    rw [List.append_assoc]
    refine .stuck (hgap.append_right (by simp) blanks) hblank hcomment
      fun kind lexeme hspells hfront => ?_
    exact hnone kind lexeme hspells ((hspells.prefix_append_blanks hblanks (c :: rest)).mp hfront)
  | @token position gap lexeme rest kind tokens fault hgap hlongest _ ih =>
    have hgap' := hgap.append_right (by simp [hlongest.spells.ne_nil]) blanks
    have hlongest' := hlongest.append_blanks hblanks
    rw [List.append_assoc] at hgap' hlongest'
    rw [List.append_assoc, List.append_assoc]
    exact .token hgap' hlongest' ih

end Cutting

/-! ## Reading -/

section Texts

variable {limit : Nat} {cs blanks : List Char} {ds : List Datum}

/-- Whether a text that ends here can be read does not depend on its characters. -/
lemma Reading.conclude_eq_ok_iff {text : List Char} {fault : Option Nat} {r : Reading} :
    r.conclude text fault = .ok ds ↔ fault = none ∧ r = ⟨ds.reverse, []⟩ := by
  obtain ⟨done, opened⟩ := r
  match fault, opened with
  | some _, _ | none, .quote :: _ | none, .list _ :: _ | none, .dotted .. :: _ =>
    simp [conclude, finish]
  | none, [] => simp [conclude, finish, List.reverse_eq_iff]

lemma read_append_blanks (hblanks : ∀ c ∈ blanks, isBlank c = true) :
    read limit (cs ++ blanks) = .ok ds ↔ read limit cs = .ok ds := by
  have hcut := decomposes_tokensFrom 0 cs
  have htokens : tokenize (cs ++ blanks) = tokenize cs :=
    (hcut.append_blanks hblanks).tokensFrom_eq
  have hle := hcut.le_length.1
  rw [zero_add] at hle
  have hfold := Reading.foldlM_append_text hle limit blanks .empty
  rw [read_eq htokens, read_eq rfl, bind_eq_ok, bind_eq_ok]
  simp only [Reading.conclude_eq_ok_iff]
  rw [show (tokenize cs).tokens.foldlM (Reading.next limit (cs ++ blanks)) .empty = _ from hfold]
  rfl

lemma read_blanks_append (hblanks : ∀ c ∈ blanks, isBlank c = true) :
    read limit (blanks ++ cs) = .ok ds ↔ read limit cs = .ok ds := by
  have hcut : tokenize (blanks ++ cs) = _ :=
    ((skipped_blanks hblanks cs).tokensFrom_append 0).trans (tokensFrom_add 0 blanks.length cs)
  obtain ⟨htokens, hposition⟩ := (decomposes_tokensFrom 0 cs).le_length
  rw [zero_add] at htokens hposition
  have hlength : (blanks ++ cs).length = cs.length + blanks.length := by simp [add_comm]
  have hresumes : Reading.Resumes cs (blanks ++ cs) blanks.length ([].reverse ++ ·) (read limit cs)
      (read limit (blanks ++ cs)) := by
    rw [read_eq rfl limit, read_eq hcut]
    exact (Reading.resumes_foldlM htokens limit .empty).bind fun r =>
      Reading.resumes_conclude hlength hposition [] r
  generalize read limit (blanks ++ cs) = x' at hresumes
  generalize read limit cs = x at hresumes
  cases hresumes with
  | ok es => rfl
  | moved | tooDeep => simp

/-- A text is its stripped form between blanks. -/
lemma exists_stripChars (cs : List Char) :
    ∃ before after, cs = before ++ (stripChars cs ++ after) ∧ (∀ c ∈ before, isBlank c = true) ∧
      ∀ c ∈ after, isBlank c = true := by
  have hblanks (cs : List Char) : ∀ c ∈ cs.takeWhile isBlank, isBlank c = true :=
    fun c hc => List.mem_takeWhile_imp hc
  refine ⟨cs.takeWhile isBlank, ((dropBlanks cs).reverse.takeWhile isBlank).reverse, ?_, hblanks cs,
    fun c hc => hblanks _ c (List.mem_reverse.mp hc)⟩
  rw [stripChars, ← List.reverse_append]
  simp only [dropBlanks, List.takeWhile_append_dropWhile, List.reverse_reverse]

/-- **Blanks at both ends of a text do not matter.** -/
theorem read_stripChars : read limit (stripChars cs) = .ok ds ↔ read limit cs = .ok ds := by
  obtain ⟨before, after, hcs, hbefore, hafter⟩ := exists_stripChars cs
  conv_rhs => rw [hcs]
  rw [read_blanks_append hbefore, read_append_blanks hafter]

end Texts

end SmallScheme
