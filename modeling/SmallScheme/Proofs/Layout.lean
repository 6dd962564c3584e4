import SmallScheme.Proofs.Trimming

/-!
# Layout does not matter

The tokens of a text can be written down again with other gaps between them (`layOut`).  No token is
lengthened by a gap behind it, since no character of an identifier starts one, so the new text has the
same tokens, which only stand elsewhere (`tokenize_layOut`).

Reading looks at the kinds and the spellings of tokens, and at their positions for messages alone.  So
two texts with the same words are read step by step in the same way, and a fault is found at the same
token of both or at the end of both (`Reading.Agree`).
-/

namespace SmallScheme

/-! ## Gaps -/

/-- A gap starts with a blank or a comment. -/
lemma Gap.breaks_append {gap : List Char} (h : Gap gap) (hne : gap ≠ []) (rest : List Char) :
    Breaks (gap ++ rest) := by
  have hcomment : isSubsequent ';' = false := by decide
  cases h with
  | nil => exact absurd rfl hne
  | @blank c cs hc _ =>
    rw [List.cons_append, breaks_cons]
    by_contra hsubsequent
    rw [Bool.not_eq_false] at hsubsequent
    rw [isBlank_eq_false_of_isSubsequent hsubsequent] at hc
    cases hc
  | comment => exact breaks_cons.mpr hcomment

/-! ## The same words -/

/-- What a token says, apart from where it stands. -/
def Token.word (token : Token) : TokenKind × String :=
  (token.kind, token.text)

/-- The tokens are written down with the given gaps: one in front, and one behind each token. -/
def layOut (gap : List Char) : List (Token × List Char) → List Char
  | [] => gap
  | (token, next) :: rest => gap ++ (token.text.toList ++ layOut next rest)

/-- No token and no fault comes from the gaps. -/
lemma tokensFrom_layOut {gap : List Char} {parts : List (Token × List Char)} (hgap : Gap gap)
    (hgaps : ∀ part ∈ parts, Gap part.2) (hinner : ∀ part ∈ parts.dropLast, part.2 ≠ [])
    (hspells : ∀ part ∈ parts, part.1.kind.Spells part.1.text.toList) (position : Nat) :
    (tokensFrom position (layOut gap parts)).fault = none ∧
      (tokensFrom position (layOut gap parts)).tokens.map Token.word =
        parts.map fun part => part.1.word := by
  induction parts generalizing gap position with
  | nil =>
    have hnone := tokensFrom_gap_append hgap position []
    rw [List.append_nil, tokensFrom_nil] at hnone
    rw [layOut, hnone]
    exact ⟨rfl, rfl⟩
  | cons part rest ih =>
    obtain ⟨token, next⟩ := part
    obtain ⟨hnext, hgaps⟩ := List.forall_mem_cons.mp hgaps
    obtain ⟨htoken, hspells⟩ := List.forall_mem_cons.mp hspells
    -- only behind the last token may there be no gap, and then the text ends there
    have hbreaks : Breaks (layOut next rest) := by
      cases rest with
      | nil =>
        by_cases hempty : next = []
        · rw [layOut, hempty]
          exact breaks_nil
        · have h := hnext.breaks_append hempty []
          rwa [List.append_nil] at h
      | cons part' rest =>
        have hempty : next ≠ [] := hinner (token, next) (by simp)
        exact hnext.breaks_append hempty _
    have hinner' : ∀ part ∈ rest.dropLast, part.2 ≠ [] := by
      intro part hpart
      cases rest with
      | nil => simp at hpart
      | cons part' rest => exact hinner part (by simp [hpart])
    obtain ⟨hfault, hwords⟩ := ih hnext hgaps hinner' hspells
      (position + gap.length + token.text.toList.length)
    rw [layOut, tokensFrom_gap_append hgap, tokensFrom_token htoken hbreaks]
    refine ⟨hfault, ?_⟩
    rw [List.map_cons, List.map_cons, hwords]
    simp [Token.word]

variable {source text : List Char}

/-- **The tokens of a text can be laid out anew.** -/
theorem tokenize_layOut {gap : List Char} {parts : List (Token × List Char)}
    (htokens : parts.map Prod.fst = (tokenize source).tokens) (hgap : Gap gap)
    (hgaps : ∀ part ∈ parts, Gap part.2) (hinner : ∀ part ∈ parts.dropLast, part.2 ≠ []) :
    (tokenize (layOut gap parts)).fault = none ∧
      (tokenize (layOut gap parts)).tokens.map Token.word =
        (tokenize source).tokens.map Token.word := by
  have hspells : ∀ part ∈ parts, part.1.kind.Spells part.1.text.toList := by
    intro part hpart
    have hmem : part.1 ∈ (tokenize source).tokens := htokens ▸ List.mem_map_of_mem hpart
    exact spells_of_mem_tokensFrom hmem
  obtain ⟨hfault, hwords⟩ := tokensFrom_layOut hgap hgaps hinner hspells 0
  refine ⟨hfault, hwords.trans ?_⟩
  rw [← htokens, List.map_map]
  rfl

/-! ## Reading the same words -/

namespace Reading

variable {α β : Type} {limit : Nat} {token token' : Token} {tokens tokens' : List Token}

/-- The same token stands at these positions of the two texts, or both texts end there. -/
inductive SamePlace (source text : List Char) : Nat → Nat → Prop
  | token {i : Nat} {token token' : Token} : (tokenize source).tokens[i]? = some token →
      (tokenize text).tokens[i]? = some token' →
      SamePlace source text token.position token'.position
  | atEnd : SamePlace source text source.length text.length

/-- Both texts are read with the same result, or the same fault is found at the same place. -/
inductive Agree (source text : List Char) : Except Error α → Except Error α → Prop
  | ok (a : α) : Agree source text (.ok a) (.ok a)
  | refused {position position' : Nat} {fault : ReadFault} :
      SamePlace source text position position' →
      Agree source text (.error (.atPosition source position fault))
        (.error (.atPosition text position' fault))
  | tooDeep : Agree source text (.error .tooDeep) (.error .tooDeep)

lemma Agree.bind {x x' : Except Error α} {f f' : α → Except Error β} (hx : Agree source text x x')
    (hf : ∀ a, Agree source text (f a) (f' a)) : Agree source text (x >>= f) (x' >>= f') := by
  cases hx with
  | ok a => exact hf a
  | refused hplace => exact .refused hplace
  | tooDeep => exact .tooDeep

lemma Agree.eq_ok_iff {x x' : Except Error α} (h : Agree source text x x') (a : α) :
    x' = .ok a ↔ x = .ok a := by
  cases h with
  | ok a' => exact Iff.rfl
  | refused | tooDeep => exact ⟨nofun, nofun⟩

lemma agree_mapError {position position' : Nat} (y : Except ReadFault Reading)
    (hplace : SamePlace source text position position') :
    Agree source text (y.mapError (.atPosition source position))
      (y.mapError (.atPosition text position')) := by
  cases y with
  | ok r => exact .ok r
  | error fault => exact .refused hplace

lemma agree_push (limit : Nat) (inner : Opened) (r : Reading) :
    Agree source text (r.push limit inner) (r.push limit inner) := by
  unfold push
  split
  · exact .ok _
  · exact .tooDeep

/-- The position of a token is used for the message of a fault only. -/
lemma agree_next (hword : token'.word = token.word)
    (hplace : SamePlace source text token.position token'.position) (limit : Nat) (r : Reading) :
    Agree source text (next limit source r token) (next limit text r token') := by
  obtain ⟨kind, spelling, position⟩ := token
  obtain ⟨kind', spelling', position'⟩ := token'
  cases hword
  have hdot : r.dot ⟨kind, spelling, position'⟩ = r.dot ⟨kind, spelling, position⟩ := rfl
  have hsimple : r.simple ⟨kind, spelling, position'⟩ = r.simple ⟨kind, spelling, position⟩ := rfl
  have hisDot : Token.isDot ⟨kind, spelling, position'⟩ = Token.isDot ⟨kind, spelling, position⟩ := rfl
  cases kind with
  | lparen | quote => exact agree_push limit _ r
  | rparen => exact agree_mapError (r.close _) hplace
  | boolean | number | identifier | string =>
    unfold next
    rw [hisDot, hdot, hsimple]
    exact agree_mapError _ hplace

/-- **The same words are read in the same way.** -/
lemma agree_foldlM
    (h : List.Forall₂ (fun token token' : Token => token'.word = token.word ∧
      SamePlace source text token.position token'.position) tokens tokens')
    (limit : Nat) (r : Reading) :
    Agree source text (tokens.foldlM (next limit source) r)
      (tokens'.foldlM (next limit text) r) := by
  induction h generalizing r with
  | nil => exact .ok r
  | cons hfirst _ ih =>
    rw [List.foldlM_cons, List.foldlM_cons]
    exact (agree_next hfirst.1 hfirst.2 limit r).bind ih

lemma agree_finish (r : Reading) : Agree source text (r.finish source) (r.finish text) := by
  obtain ⟨done, opened⟩ := r
  match opened with
  | [] => exact .ok _
  | .quote :: _ | .list _ :: _ | .dotted .. :: _ => exact .refused .atEnd

end Reading

/-- Two texts with the same words are read in the same way. -/
theorem agree_read (hsource : (tokenize source).fault = none) (htext : (tokenize text).fault = none)
    (hwords : (tokenize text).tokens.map Token.word = (tokenize source).tokens.map Token.word)
    (limit : Nat) : Reading.Agree source text (read limit source) (read limit text) := by
  have hlength : (tokenize source).tokens.length = (tokenize text).tokens.length := by
    simpa using (congrArg List.length hwords).symm
  have hplaces : List.Forall₂ (fun token token' : Token => token'.word = token.word ∧
      Reading.SamePlace source text token.position token'.position)
      (tokenize source).tokens (tokenize text).tokens := by
    refine List.forall₂_iff_get.mpr ⟨hlength, fun i hi hi' => ⟨?_, ?_⟩⟩
    · have hi'' := congrArg (·[i]?) hwords
      simpa [hi, hi'] using hi''
    · exact .token (List.getElem?_eq_getElem hi) (List.getElem?_eq_getElem hi')
  rw [read_eq rfl, read_eq rfl]
  refine (Reading.agree_foldlM hplaces limit .empty).bind fun r => ?_
  rw [hsource, htext]
  exact Reading.agree_finish r

/-- **Layout does not matter.**  If a text can be cut into tokens, they can be written down again with
any gaps of blanks and whole comments, of which only the first and the last one may be empty.  The new
text is cut into tokens of the same kinds and spellings.  Hence it is read if and only if the first
text is, with the same data, and else both have the same fault at the same token, or at their ends. -/
theorem read_layOut {gap : List Char} {parts : List (Token × List Char)}
    (hsource : (tokenize source).fault = none)
    (htokens : parts.map Prod.fst = (tokenize source).tokens) (hgap : Gap gap)
    (hgaps : ∀ part ∈ parts, Gap part.2) (hinner : ∀ part ∈ parts.dropLast, part.2 ≠ []) :
    (tokenize (layOut gap parts)).fault = none ∧
    (tokenize (layOut gap parts)).tokens.map Token.word =
      (tokenize source).tokens.map Token.word ∧
    ∀ limit, (∀ ds, read limit (layOut gap parts) = .ok ds ↔ read limit source = .ok ds) ∧
      Reading.Agree source (layOut gap parts) (read limit source)
        (read limit (layOut gap parts)) := by
  obtain ⟨hfault, hwords⟩ := tokenize_layOut htokens hgap hgaps hinner
  refine ⟨hfault, hwords, fun limit => ?_⟩
  have hagree := agree_read hsource hfault hwords limit
  exact ⟨hagree.eq_ok_iff, hagree⟩

/-- The text `(a .)` with a comment and other blanks between its tokens: in both texts the bracket
that closes the list is refused. -/
theorem read_layOut_pointed : ∃ source text gap parts, source = "(a .)".toList ∧
    text = "(;list\na\n.\t)".toList ∧ (tokenize source).fault = none ∧
    parts.map Prod.fst = (tokenize source).tokens ∧ layOut gap parts = text ∧
    (tokenize text).tokens.map Token.word = (tokenize source).tokens.map Token.word ∧
    read 5 source = .error (.atPosition source 4 .misplacedDot) ∧
    read 5 text = .error (.atPosition text 11 .misplacedDot) ∧
    Reading.Agree source text (read 5 source) (read 5 text) := by
  set source := "(a .)".toList
  set text := "(;list\na\n.\t)".toList
  set parts : List (Token × List Char) :=
    [(⟨.lparen, "(", 0⟩, ";list\n".toList), (⟨.identifier, "a", 1⟩, ['\n']),
      (⟨.identifier, ".", 3⟩, ['\t']), (⟨.rparen, ")", 4⟩, [])]
  have hsource : (tokenize source).fault = none := by decide +kernel
  have htokens : parts.map Prod.fst = (tokenize source).tokens := by decide +kernel
  have hgaps : ∀ part ∈ parts, Gap part.2 := by
    have hcomment : Gap [';', 'l', 'i', 's', 't', '\n'] :=
      .comment (show '\n' ∉ ['l', 'i', 's', 't'] by decide) .nil
    have hline : Gap ['\n'] := .blank (by decide) .nil
    have htab : Gap ['\t'] := .blank (by decide) .nil
    simp [parts, hcomment, hline, htab, Gap.nil]
  obtain ⟨-, hwords, hread⟩ :=
    read_layOut hsource htokens .nil hgaps (by simp [parts])
  have htext : layOut [] parts = text := by decide
  rw [htext] at hwords hread
  exact ⟨source, text, [], parts, rfl, rfl, hsource, htokens, htext, hwords, by decide +kernel,
    by decide +kernel, (hread 5).2⟩

end SmallScheme
