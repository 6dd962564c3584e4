import SmallScheme.Proofs.Access
import SmallScheme.Proofs.LongestMatch

/-!
# Cutting a text by alternatives

A text can be cut by a list of alternatives: blanks are skipped, and then the first alternative that
matches is taken, be it a comment or a kind of tokens (`Cutting.cut`).  Which blanks there are and
what an alternative has matched is asked for afterwards; so it has to be there.

The main result is `Cutting.cut_eq`: whatever the host answers for missing parts, the tokens are
those of the text.
-/

namespace SmallScheme

namespace Cutting

open Access

/-! ## Alternatives -/

/-- What comes after blanks. -/
inductive Alternative where
  | comment
  | token (kind : TokenKind)
  deriving DecidableEq

/-- The alternatives, in the order in which they are tried. -/
def alternatives : List Alternative :=
  [.comment, .token .boolean, .token .number, .token .identifier, .token .lparen, .token .rparen,
    .token .quote, .token .string]

/-- What an alternative matches at the front of a text. -/
def Alternative.match? (cs : List Char) : Alternative → Option (List Char)
  | comment => if cs.head? = some ';' then some (cs.takeWhile (· != '\n')) else none
  | token kind => (scan? cs).bind fun (found, lexeme) => if found = kind then some lexeme else none

/-- The blanks at the front of a text, if there are none or some. -/
def blanks? (cs : List Char) : Option (List Char) :=
  some (cs.takeWhile Text.isBlank)

section Definitions

variable (missing : HostFault → Error)

/-- The tokens of a text whose first character has the given position, in at most so many steps. -/
def cut : Nat → Nat → List Char → Except Error Tokens
  | 0, _, _ => return ⟨[], none⟩
  | steps + 1, position, cs => do
    let blanks ← need missing .missingAttribute (blanks? cs)
    let start := position + blanks.length
    let cs := cs.drop blanks.length
    if cs.isEmpty then return ⟨[], none⟩
    match alternatives.find? fun a => (a.match? cs).isSome with
    | none => return ⟨[], some start⟩
    | some a =>
      let lexeme ← need missing .outOfRange (a.match? cs)
      let later ← cut steps (start + lexeme.length) (cs.drop lexeme.length)
      match a with
      | .comment => return later
      | .token kind => return ⟨⟨kind, String.ofList lexeme, start⟩ :: later.tokens, later.fault⟩

end Definitions

/-! ## The tokens are the same -/

/-- The blanks are part of the gap at the front of a text. -/
lemma exists_blanks (cs : List Char) :
    ∃ blanks rest, cs = blanks ++ rest ∧ blanks? cs = some blanks ∧ Skipped blanks rest ∧
      ∀ c ∈ rest.head?, Text.isBlank c = false := by
  induction cs with
  | nil => exact ⟨[], [], rfl, rfl, .nil [], by simp⟩
  | cons c cs ih =>
    by_cases hc : Text.isBlank c = true
    · obtain ⟨blanks, rest, rfl, hblanks, hskipped, hrest⟩ := ih
      rw [blanks?, Option.some.injEq] at hblanks
      refine ⟨c :: blanks, rest, rfl, ?_, .blank hc hskipped, hrest⟩
      rw [blanks?, List.takeWhile_cons_of_pos hc, hblanks]
    · refine ⟨[], c :: cs, rfl, ?_, .nil _, by simpa using hc⟩
      rw [blanks?, List.takeWhile_cons_of_neg hc]

/-- A comment is skipped up to the end of its line. -/
lemma skipped_of_match? {cs comment : List Char}
    (h : Alternative.comment.match? cs = some comment) :
    ∃ rest, cs = comment ++ rest ∧ Skipped comment rest ∧ comment ≠ [] := by
  rw [Alternative.match?] at h
  split at h
  · rename_i hhead
    obtain ⟨cs, rfl⟩ := List.head?_eq_some_iff.mp hhead
    obtain rfl := Option.some.inj h
    have hcomment : (';' :: cs).takeWhile (· != '\n') = ';' :: cs.takeWhile (· != '\n') := rfl
    have hbody : '\n' ∉ cs.takeWhile (· != '\n') := fun hmem => by
      simpa using List.mem_takeWhile_imp hmem
    have hend : ∀ c ∈ (cs.dropWhile (· != '\n')).head?, c = '\n' := by
      intro c hc
      have hstop := List.head?_dropWhile_not (· != '\n') cs
      rw [hc] at hstop
      simpa using hstop
    have hskipped : Skipped (';' :: (cs.takeWhile (· != '\n') ++ [])) (cs.dropWhile (· != '\n')) :=
      .comment hbody hend (.nil _)
    rw [List.append_nil] at hskipped
    rw [hcomment]
    refine ⟨cs.dropWhile (· != '\n'), ?_, hskipped, List.cons_ne_nil _ _⟩
    rw [List.cons_append, List.takeWhile_append_dropWhile]
  · cases h

lemma match?_token {cs lexeme : List Char} {kind : TokenKind} :
    (Alternative.token kind).match? cs = some lexeme ↔ scan? cs = some (kind, lexeme) := by
  unfold Alternative.match?
  cases scan? cs with
  | none => simp
  | some found => simp [Prod.ext_iff, eq_comm]

lemma mem_alternatives (a : Alternative) : a ∈ alternatives := by
  cases a with
  | comment => decide
  | token kind => cases kind <;> decide

/-- Where no alternative matches, neither a comment nor a token starts. -/
lemma scan?_of_find?_none {cs : List Char}
    (h : alternatives.find? (fun a => (a.match? cs).isSome) = none) :
    cs.head? ≠ some ';' ∧ scan? cs = none := by
  have hnone (a : Alternative) : a.match? cs = none := by
    simpa using List.find?_eq_none.mp h a (mem_alternatives a)
  constructor
  · intro hcomment
    have hmatch := hnone .comment
    rw [Alternative.match?, if_pos hcomment] at hmatch
    cases hmatch
  · cases hscan : scan? cs with
    | none => rfl
    | some found =>
      cases (match?_token.mpr hscan).symm.trans (hnone (.token found.1))

/-- **The tokens are those of the text**, whatever the host answers for missing parts. -/
theorem cut_eq (missing : HostFault → Error) {steps position : Nat} {cs : List Char}
    (hsteps : cs.length < steps) :
    cut missing steps position cs = .ok (tokensFrom position cs) := by
  induction steps generalizing position cs with
  | zero => omega
  | succ steps ih =>
    obtain ⟨blanks, cs, rfl, hblanks, hskipped, hsolid⟩ := exists_blanks cs
    rw [cut, hblanks, need_some, pure_bind, hskipped.tokensFrom_append]
    simp only [List.drop_left]
    cases cs with
    | nil =>
      rw [tokensFrom_nil]
      rfl
    | cons c cs =>
      rw [if_neg (by simp)]
      cases hfind : alternatives.find? fun a => (a.match? (c :: cs)).isSome with
      | none =>
        obtain ⟨hcomment, hscan⟩ := scan?_of_find?_none hfind
        have hstart : StartsSolid (c :: cs) := by
          rintro d ⟨⟩
          exact ⟨hsolid c rfl, fun hc => hcomment (congrArg some hc)⟩
        rw [tokensFrom_of_scan?_none hstart hscan]
        rfl
      | some a =>
        have hmatch := List.find?_some hfind
        obtain ⟨lexeme, hlexeme⟩ := Option.isSome_iff_exists.mp hmatch
        rw [List.length_append] at hsteps
        dsimp only
        rw [hlexeme, need_some, pure_bind]
        cases a with
        | comment =>
          obtain ⟨rest, heq, hgap, hne⟩ := skipped_of_match? hlexeme
          have hpos := List.length_pos_iff.mpr hne
          rw [heq, List.length_append] at hsteps
          rw [heq, List.drop_left, hgap.tokensFrom_append, ih (by omega)]
          rfl
        | token kind =>
          have hscan := match?_token.mp hlexeme
          obtain ⟨hspells, rest, heq⟩ := spells_of_scan? hscan
          have hpos := List.length_pos_iff.mpr hspells.ne_nil
          rw [← heq] at hscan hsteps ⊢
          rw [List.length_append] at hsteps
          rw [List.drop_left, tokensFrom_of_scan? hscan, ih (by omega)]
          rfl

end Cutting

end SmallScheme
