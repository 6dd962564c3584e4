import SmallScheme.Proofs.TokenText

/-!
# Tokens are longest matches

A text is cut in one way only.  Between two tokens there are only blanks and comments (`Skipped`),
each token is the longest spelling that stands at its place, whatever its class (`IsLongest`), and
cutting stops at the end of the text or where no spelling of any class starts (`Decomposes`).  The
seven classes are disjoint, so the length of a match settles its kind and the order of the rules
does not matter.

The main result is `tokenize_longest`: the tokens of a text and the position of its fault are the
only decomposition of the text, and the tokens stand in it in order and do not overlap.
-/

namespace SmallScheme

/-! ## Longest spellings -/

/-- The spelling stands at the front of the text, and no spelling of any class that stands there is
longer. -/
structure IsLongest (cs : List Char) (kind : TokenKind) (lexeme : List Char) : Prop where
  spells : kind.Spells lexeme
  front : lexeme <+: cs
  length_le : ∀ kind' : TokenKind, ∀ lexeme', kind'.Spells lexeme' → lexeme' <+: cs →
    lexeme'.length ≤ lexeme.length

lemma length_le_takeWhile_append {p : Char → Bool} {ds : List Char} (h : ∀ d ∈ ds, p d = true)
    (rest : List Char) : ds.length ≤ ((ds ++ rest).takeWhile p).length := by
  rw [List.takeWhile_append_of_pos h, List.length_append]
  exact Nat.le_add_right _ _

lemma scanDigits?_length_le (radix : Radix) {ds : List Char} (h : IsRun radix.isDigit ds)
    (rest : List Char) : ∃ lexeme,
      scanDigits? ['#', radix.letter] radix.isDigit (ds ++ rest) = some (.number, lexeme) ∧
      ds.length + 2 ≤ lexeme.length := by
  have hlength := length_le_takeWhile_append h.2 rest
  unfold scanDigits?
  split
  · rename_i hnil
    rw [hnil] at hlength
    exact absurd hlength (by simpa using h.1)
  · refine ⟨_, rfl, ?_⟩
    simpa using hlength

/-- Where a spelling stands at the front of a text, a token of its class is scanned that is not
shorter. -/
theorem scan?_length_le {kind : TokenKind} {lexeme : List Char} (h : kind.Spells lexeme)
    (rest : List Char) : ∃ lexeme', scan? (lexeme ++ rest) = some (kind, lexeme') ∧
      lexeme.length ≤ lexeme'.length := by
  cases kind with
  | boolean => rcases h with rfl | rfl <;> exact ⟨_, rfl, le_rfl⟩
  | number =>
    obtain ⟨radix, ds, hspelled⟩ := h
    cases hspelled with
    | plain hrun =>
      obtain ⟨d, ds, rfl⟩ := List.exists_cons_of_ne_nil hrun.1
      have hd : d.isDigit = true := hrun.2 d (by simp)
      have hds : ∀ c ∈ ds, c.isDigit = true := fun c hc => hrun.2 c (List.mem_cons_of_mem d hc)
      rw [List.cons_append, scan?_cons _ (not_mem_marks_of_isDigit hd), if_pos hd]
      exact ⟨_, rfl, Nat.succ_le_succ (length_le_takeWhile_append hds rest)⟩
    | marked _ hrun =>
      obtain ⟨lexeme, hscan, hlength⟩ := scanDigits?_length_le radix hrun rest
      refine ⟨lexeme, ?_, hlength⟩
      cases radix <;> exact hscan
  | identifier =>
    rcases h with ⟨c, cs, rfl, hc, hcs⟩ | rfl | rfl
    · rw [List.cons_append, scan?_cons _ (not_mem_marks_of_isInitial hc),
        if_neg (by simp [isDigit_eq_false_of_isInitial hc]), if_pos hc]
      exact ⟨_, rfl, Nat.succ_le_succ (length_le_takeWhile_append hcs rest)⟩
    · exact ⟨_, rfl, le_rfl⟩
    · exact ⟨_, rfl, le_rfl⟩
  | lparen => cases h; exact ⟨_, rfl, le_rfl⟩
  | rparen => cases h; exact ⟨_, rfl, le_rfl⟩
  | quote => cases h; exact ⟨_, rfl, le_rfl⟩
  | string =>
    obtain ⟨body, rfl, hbody⟩ := h
    have hscan := scanString?_append hbody rest
    exact ⟨_, by simpa [scan?] using hscan, le_rfl⟩

/-- All spellings at the front of a text are of one class. -/
theorem TokenKind.Spells.kind_unique {kind kind' : TokenKind} {lexeme lexeme' cs : List Char}
    (h : kind.Spells lexeme) (hfront : lexeme <+: cs) (h' : kind'.Spells lexeme')
    (hfront' : lexeme' <+: cs) : kind = kind' := by
  obtain ⟨rest, rfl⟩ := hfront
  obtain ⟨rest', heq⟩ := hfront'
  obtain ⟨longest, hscan, -⟩ := scan?_length_le h rest
  obtain ⟨longest', hscan', -⟩ := scan?_length_le h' rest'
  rw [heq, hscan] at hscan'
  cases hscan'
  rfl

/-- **Scanning finds the longest spelling.** -/
theorem scan?_eq_some_iff {cs lexeme : List Char} {kind : TokenKind} :
    scan? cs = some (kind, lexeme) ↔ IsLongest cs kind lexeme := by
  constructor
  · intro h
    obtain ⟨hspells, hfront⟩ := spells_of_scan? h
    refine ⟨hspells, hfront, ?_⟩
    rintro kind' lexeme' hspells' ⟨rest, rfl⟩
    obtain ⟨longest, hscan, hlength⟩ := scan?_length_le hspells' rest
    rw [h] at hscan
    cases hscan
    exact hlength
  · intro h
    obtain ⟨rest, rfl⟩ := h.front
    obtain ⟨longest, hscan, hlength⟩ := scan?_length_le h.spells rest
    obtain ⟨hspells, hfront⟩ := spells_of_scan? hscan
    -- neither spelling is longer than the other, and both stand at the front
    have hle := h.length_le kind longest hspells hfront
    have heq := (List.prefix_of_prefix_length_le h.front hfront hlength).eq_of_length_le hle
    rw [hscan, heq]

/-- Nothing is scanned exactly where no spelling starts. -/
theorem scan?_eq_none_iff {cs : List Char} :
    scan? cs = none ↔ ∀ kind : TokenKind, ∀ lexeme, kind.Spells lexeme → ¬lexeme <+: cs := by
  constructor
  · rintro h kind lexeme hspells ⟨rest, rfl⟩
    obtain ⟨longest, hscan, -⟩ := scan?_length_le hspells rest
    rw [h] at hscan
    cases hscan
  · intro h
    cases hscan : scan? cs with
    | none => rfl
    | some found =>
      obtain ⟨kind, lexeme⟩ := found
      obtain ⟨hspells, hfront⟩ := spells_of_scan? hscan
      exact absurd hfront (h kind lexeme hspells)

/-! ## What is skipped -/

/-- Blanks and comments in front of the rest of a text.  A comment runs from a semicolon to the end
of its line, and the line feed after it is a blank of its own. -/
inductive Skipped : (gap rest : List Char) → Prop
  | nil (rest : List Char) : Skipped [] rest
  /-- A blank. -/
  | blank {c : Char} {gap rest : List Char} : Text.isBlank c = true → Skipped gap rest →
      Skipped (c :: gap) rest
  /-- A comment. -/
  | comment {body gap rest : List Char} : '\n' ∉ body → (∀ c ∈ (gap ++ rest).head?, c = '\n') →
      Skipped gap rest → Skipped (';' :: (body ++ gap)) rest

/-- The text starts neither with a blank nor with a comment. -/
def StartsSolid (cs : List Char) : Prop :=
  ∀ c ∈ cs.head?, Text.isBlank c = false ∧ c ≠ ';'

lemma gapLength_of_startsSolid {cs : List Char} (h : StartsSolid cs) : gapLength cs = 0 := by
  cases cs with
  | nil => rfl
  | cons c cs =>
    obtain ⟨hblank, hcomment⟩ := h c rfl
    simp [gapLength, gapLengthFrom, hblank, hcomment]

lemma gapLengthFrom_body {body cs : List Char} (hbody : '\n' ∉ body)
    (hcs : ∀ c ∈ cs.head?, c = '\n') :
    gapLengthFrom true (body ++ cs) = body.length + gapLengthFrom false cs := by
  induction body with
  | nil =>
    cases cs with
    | nil => rfl
    | cons c cs =>
      obtain rfl := hcs c rfl
      have hblank : Text.isBlank '\n' = true := by decide
      simp [gapLengthFrom, hblank]
  | cons c body ih =>
    obtain ⟨hc, hbody⟩ := List.ne_and_not_mem_of_not_mem_cons hbody
    have hc' : (c != '\n') = true := by simpa using Ne.symm hc
    simp only [List.cons_append, gapLengthFrom, if_true, hc', ih hbody, List.length_cons]
    omega

/-- What may be skipped is part of the gap at the front of the text. -/
lemma Skipped.gapLength_append {gap rest : List Char} (h : Skipped gap rest) :
    gapLength (gap ++ rest) = gap.length + gapLength rest := by
  unfold gapLength
  induction h with
  | nil => simp
  | @blank c gap rest hc _ ih =>
    simp only [List.cons_append, gapLengthFrom, Bool.false_eq_true, if_false, hc, if_true, ih,
      List.length_cons]
    omega
  | @comment body gap rest hbody hend _ ih =>
    have hblank : Text.isBlank ';' = false := by decide
    simp only [List.cons_append, gapLengthFrom, Bool.false_eq_true, if_false, hblank, if_true,
      List.append_assoc, gapLengthFrom_body hbody hend, ih, List.length_cons, List.length_append]
    omega

/-- The gap at the front of a text may be skipped.  If a comment is open, it ends first. -/
lemma skipped_gapLengthFrom (cs : List Char) :
    Skipped (cs.take (gapLengthFrom false cs)) (cs.drop (gapLengthFrom false cs)) ∧
    ∃ body gap, cs.take (gapLengthFrom true cs) = body ++ gap ∧ '\n' ∉ body ∧
      (∀ c ∈ (gap ++ cs.drop (gapLengthFrom true cs)).head?, c = '\n') ∧
      Skipped gap (cs.drop (gapLengthFrom true cs)) := by
  induction cs with
  | nil => exact ⟨.nil _, [], [], rfl, List.not_mem_nil, by simp, .nil _⟩
  | cons c cs ih =>
    obtain ⟨hskipped, body, gap, htake, hbody, hend, hgap⟩ := ih
    constructor
    · unfold gapLengthFrom
      rw [if_neg Bool.false_ne_true]
      split
      · rename_i hblank
        exact .blank hblank hskipped
      · split
        · rename_i hcomment
          rw [hcomment, List.take_succ_cons, htake]
          exact .comment hbody hend hgap
        · exact .nil _
    · unfold gapLengthFrom
      rw [if_pos rfl]
      by_cases hc : c = '\n'
      · -- the line feed ends the comment and is skipped as a blank
        subst hc
        have hfeed : ('\n' != '\n') = false := rfl
        rw [hfeed]
        refine ⟨[], _, rfl, List.not_mem_nil, by simp, ?_⟩
        exact .blank (by decide) hskipped
      · rw [show (c != '\n') = true by simpa using hc]
        refine ⟨c :: body, gap, by rw [List.take_succ_cons, htake]; rfl, ?_, hend, hgap⟩
        exact List.not_mem_cons_of_ne_of_not_mem (Ne.symm hc) hbody

lemma startsSolid_drop_gapLength (cs : List Char) : StartsSolid (cs.drop (gapLength cs)) := by
  have hdrop : ∀ inComment, StartsSolid (cs.drop (gapLengthFrom inComment cs)) := by
    induction cs with
    | nil => intro inComment c hc; cases hc
    | cons c cs ih =>
      intro inComment
      unfold gapLengthFrom
      split
      · exact ih _
      · split
        · exact ih false
        · split
          · exact ih true
          · rename_i hblank hcomment
            rintro d ⟨⟩
            exact ⟨by simpa using hblank, hcomment⟩
  exact hdrop false

/-- Every text is a gap and a rest that starts with something else, if there is a rest. -/
lemma exists_skipped (cs : List Char) :
    ∃ gap rest, cs = gap ++ rest ∧ Skipped gap rest ∧ StartsSolid rest :=
  ⟨_, _, (List.take_append_drop (gapLength cs) cs).symm, (skipped_gapLengthFrom cs).1,
    startsSolid_drop_gapLength cs⟩

/-- There is no token in what may be skipped. -/
lemma Skipped.tokensFrom_append {gap rest : List Char} (h : Skipped gap rest) (position : Nat) :
    tokensFrom position (gap ++ rest) = tokensFrom (position + gap.length) rest := by
  have hdrop : (gap ++ rest).drop (gap.length + gapLength rest) = rest.drop (gapLength rest) := by
    rw [← List.drop_drop, List.drop_left]
  refine tokensFrom_congr ?_
  unfold front
  dsimp only
  rw [h.gapLength_append, hdrop, add_assoc]

/-- Cutting stops where no token starts. -/
lemma tokensFrom_of_scan?_none {c : Char} {cs : List Char} (hsolid : StartsSolid (c :: cs))
    (h : scan? (c :: cs) = none) (position : Nat) :
    tokensFrom position (c :: cs) = ⟨[], some position⟩ := by
  have hfront : front position (c :: cs) = .stuck position := by
    unfold front
    dsimp only
    rw [gapLength_of_startsSolid hsolid, List.drop_zero]
    dsimp only
    rw [h]
    rfl
  rw [tokensFrom, hfront]

/-! ## Decompositions -/

/-- The tokens and the fault of a text whose first character has the given position: gaps and
longest spellings in turn, until only a gap is left or a character at which no spelling starts. -/
inductive Decomposes : Nat → List Char → List Token → Option Nat → Prop
  /-- Only a gap is left. -/
  | finished {position : Nat} {gap : List Char} : Skipped gap [] →
      Decomposes position gap [] none
  /-- After a gap, a character that is no part of it and at which no spelling starts. -/
  | stuck {position : Nat} {gap rest : List Char} {c : Char} : Skipped gap (c :: rest) →
      Text.isBlank c = false → c ≠ ';' →
      (∀ kind : TokenKind, ∀ lexeme, kind.Spells lexeme → ¬lexeme <+: c :: rest) →
      Decomposes position (gap ++ c :: rest) [] (some (position + gap.length))
  /-- After a gap, a longest spelling. -/
  | token {position : Nat} {gap lexeme rest : List Char} {kind : TokenKind} {tokens : List Token}
      {fault : Option Nat} : Skipped gap (lexeme ++ rest) → IsLongest (lexeme ++ rest) kind lexeme →
      Decomposes (position + gap.length + lexeme.length) rest tokens fault →
      Decomposes position (gap ++ (lexeme ++ rest))
        (⟨kind, String.ofList lexeme, position + gap.length⟩ :: tokens) fault

/-- A text has no other decomposition than the one that cutting gives. -/
theorem Decomposes.tokensFrom_eq {position : Nat} {cs : List Char} {tokens : List Token}
    {fault : Option Nat} (h : Decomposes position cs tokens fault) :
    tokensFrom position cs = ⟨tokens, fault⟩ := by
  induction h with
  | @finished position gap hgap =>
    have htokens := hgap.tokensFrom_append position
    rwa [List.append_nil, tokensFrom_nil] at htokens
  | @stuck position gap rest c hgap hblank hcomment hnone =>
    have hsolid : StartsSolid (c :: rest) := by
      rintro d ⟨⟩
      exact ⟨hblank, hcomment⟩
    rw [hgap.tokensFrom_append, tokensFrom_of_scan?_none hsolid (scan?_eq_none_iff.mpr hnone)]
  | @token position gap lexeme rest kind tokens fault hgap hlongest _ ih =>
    rw [hgap.tokensFrom_append, tokensFrom_of_scan? (scan?_eq_some_iff.mpr hlongest), ih]

/-- Cutting decomposes a text. -/
theorem decomposes_tokensFrom (position : Nat) (cs : List Char) :
    Decomposes position cs (tokensFrom position cs).tokens (tokensFrom position cs).fault := by
  induction hlength : cs.length using Nat.strong_induction_on generalizing position cs with
  | _ n ih =>
    obtain ⟨gap, rest, rfl, hgap, hsolid⟩ := exists_skipped cs
    rw [hgap.tokensFrom_append]
    cases rest with
    | nil =>
      rw [tokensFrom_nil, List.append_nil]
      exact .finished hgap
    | cons c rest =>
      obtain ⟨hblank, hcomment⟩ := hsolid c rfl
      cases hscan : scan? (c :: rest) with
      | none =>
        rw [tokensFrom_of_scan?_none hsolid hscan]
        exact .stuck hgap hblank hcomment (scan?_eq_none_iff.mp hscan)
      | some found =>
        obtain ⟨kind, lexeme⟩ := found
        obtain ⟨hspells, after, heq⟩ := spells_of_scan? hscan
        rw [← heq] at hgap hscan hlength ⊢
        rw [tokensFrom_of_scan? hscan]
        refine .token hgap (scan?_eq_some_iff.mp hscan) (ih after.length ?_ _ after rfl)
        have hpos := List.length_pos_iff.mpr hspells.ne_nil
        rw [List.length_append, List.length_append] at hlength
        omega

/-! ## The tokens in their text -/

namespace Decomposes

variable {position : Nat} {cs text : List Char} {tokens : List Token} {fault : Option Nat}

lemma position_le (h : Decomposes position cs tokens fault) :
    ∀ t ∈ tokens, position ≤ t.position := by
  induction h with
  | finished => simp
  | stuck => simp
  | @token position gap lexeme rest kind tokens fault _ _ _ ih =>
    refine List.forall_mem_cons.mpr ⟨Nat.le_add_right _ _, fun t ht => ?_⟩
    have hle := ih t ht
    omega

/-- The tokens stand in order and do not overlap. -/
lemma pairwise (h : Decomposes position cs tokens fault) :
    tokens.Pairwise fun t u =>
      t.position < u.position ∧ t.position + t.text.length ≤ u.position := by
  induction h with
  | finished => exact .nil
  | stuck => exact .nil
  | @token position gap lexeme rest kind tokens fault _ hlongest hrest ih =>
    refine .cons (fun u hu => ?_) ih
    have hle := hrest.position_le u hu
    have hpos := List.length_pos_iff.mpr hlongest.spells.ne_nil
    rw [String.length_ofList]
    dsimp only
    omega

/-- Every token is a longest spelling in the text from its position on. -/
lemma isLongest (h : Decomposes position cs tokens fault) (hcs : text.drop position = cs) :
    ∀ t ∈ tokens, IsLongest (text.drop t.position) t.kind t.text.toList := by
  induction h with
  | finished => simp
  | stuck => simp
  | @token position gap lexeme rest kind tokens fault _ hlongest _ ih =>
    have hgap : text.drop (position + gap.length) = lexeme ++ rest := by
      rw [← List.drop_drop, hcs, List.drop_left]
    have hrest : text.drop (position + gap.length + lexeme.length) = rest := by
      rw [← List.drop_drop, hgap, List.drop_left]
    refine List.forall_mem_cons.mpr ⟨?_, ih hrest⟩
    rw [String.toList_ofList]
    dsimp only
    rwa [hgap]

end Decomposes

/-- **A text is cut into longest matches.**  Its tokens and its fault are its only decomposition.
The tokens stand in order and do not overlap; each is the longest spelling of any class at its
position, and no spelling of another class stands there. -/
theorem tokenize_longest (text : List Char) :
    (∀ tokens fault, Decomposes 0 text tokens fault ↔ tokenize text = ⟨tokens, fault⟩) ∧
    ((tokenize text).tokens.Pairwise fun t u =>
      t.position < u.position ∧ t.position + t.text.length ≤ u.position) ∧
    ∀ t ∈ (tokenize text).tokens,
      (text.drop t.position).take t.text.length = t.text.toList ∧
      IsLongest (text.drop t.position) t.kind t.text.toList ∧
      ∀ kind : TokenKind, ∀ lexeme, kind.Spells lexeme → lexeme <+: text.drop t.position →
        kind = t.kind := by
  have hcut : Decomposes 0 text (tokenize text).tokens (tokenize text).fault :=
    decomposes_tokensFrom 0 text
  refine ⟨fun tokens fault => ⟨fun h => h.tokensFrom_eq, ?_⟩, hcut.pairwise, fun t ht => ?_⟩
  · intro h
    rwa [h] at hcut
  · have hlongest := hcut.isLongest rfl t ht
    refine ⟨?_, hlongest, fun kind lexeme hspells hfront => ?_⟩
    · rw [← String.length_toList, List.prefix_iff_eq_take.mp hlongest.front]
      simp
    · exact hspells.kind_unique hfront hlongest.spells hlongest.front

end SmallScheme
