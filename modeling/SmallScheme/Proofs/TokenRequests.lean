import SmallScheme.Proofs.Descent

/-!
# Asking for tokens

A cursor is asked for one token after another, by the names of their kinds.  A request is answered in
one of three ways (`expect_cases`): the token is there and the cursor moves on; another token is there,
or none, and the cursor stays; or the token is there, but the text cannot be cut any further.  In the
last case the cursor stays as well, and what it has ahead is this token alone.

What has been handed out and what is ahead make up the tokens of the text (`Follows`), whatever was
asked for and however the requests were answered.

The main result is `requests_in_order`.
-/

namespace SmallScheme

/-- The name of a token's kind, by which it is asked for, and its text, which is the answer. -/
def Token.named (token : Token) : String × String :=
  (token.kind.name, token.text)

namespace Cursor

/-- The cursor after some requests. -/
def after : List String → Cursor → Cursor
  | [], c => c
  | kind :: kinds, c => after kinds (c.expect kind).2

/-- The error of a cursor that does not stand on what it is asked for. -/
def refusal (c : Cursor) (kind : String) : Error :=
  .atPosition c.text (c.current.elim c.text.length Token.position) (.expected kind c.current)

/-- The requests that were answered with a text, and these texts. -/
def granted (kinds : List String) (answers : List (Except Error String)) :
    List (String × String) :=
  (kinds.zip answers).filterMap fun (kind, answer) => answer.toOption.map (kind, ·)

lemma granted_cons (kind : String) (kinds : List String) (answer : Except Error String)
    (answers : List (Except Error String)) :
    granted (kind :: kinds) (answer :: answers) =
      (answer.toOption.map (kind, ·)).toList ++ granted kinds answers := by
  cases answer <;> rfl

lemma expectAll_cons (kind : String) (kinds : List String) (c : Cursor) :
    c.expectAll (kind :: kinds) = (c.expect kind).1 :: (c.expect kind).2.expectAll kinds := rfl

/-! ## One request -/

/-- How a request is answered, and where the cursor is then. -/
inductive Answers (c : Cursor) (kind : String) : Except Error String × Cursor → Prop
  /-- The token is there, and the cursor moves on. -/
  | found {token : Token} {d : Cursor} : c.current = some token → token.kind.name = kind →
      d.text = c.text → d.fault = c.fault → d.ahead = c.later → Answers c kind (.ok token.text, d)
  /-- The token is there, and the text cannot be cut after it. -/
  | stuck {token : Token} {position : Nat} : c.current = some token → token.kind.name = kind →
      c.later = [] → c.fault = some position →
      Answers c kind (.error (.lexicalAt c.text position), { c with fault := none })
  /-- The token is not there. -/
  | refused : (∀ token ∈ c.current, token.kind.name ≠ kind) →
      Answers c kind (.error (c.refusal kind), c)

/-- **Each request has one of three answers.** -/
lemma expect_cases (c : Cursor) (kind : String) : c.Answers kind (c.expect kind) := by
  obtain ⟨text, current, later, fault⟩ := c
  cases current with
  | none => exact .refused nofun
  | some token =>
    by_cases hkind : token.kind.name = kind
    · cases later with
      | cons next later =>
        rw [expect]
        simp only [hkind, if_true, advance]
        exact .found rfl hkind rfl rfl rfl
      | nil =>
        cases fault with
        | none =>
          rw [expect]
          simp only [hkind, if_true, advance]
          exact .found rfl hkind rfl rfl rfl
        | some position =>
          rw [expect]
          simp only [hkind, if_true, advance]
          exact .stuck rfl hkind rfl rfl
    · rw [expect]
      simp only [hkind, if_false]
      refine .refused ?_
      rintro _ ⟨⟩
      exact hkind

lemma expect_refused {c : Cursor} {kind : String} (h : ∀ token ∈ c.current, token.kind.name ≠ kind) :
    c.expect kind = (.error (c.refusal kind), c) := by
  cases hcurrent : c.current with
  | none => rw [expect, refusal, hcurrent]; rfl
  | some token =>
    rw [expect, refusal, hcurrent]
    simp only [h token hcurrent, if_false, Option.elim]

/-! ## All requests -/

/-- The cursor follows the text, of which it has left some tokens behind. -/
structure Follows (c : Cursor) (text : List Char) (behind : List Token) : Prop where
  text_eq : c.text = text
  tokens_eq : behind ++ c.ahead = (tokenize text).tokens
  fault_eq : ∀ position ∈ c.fault, (tokenize text).fault = some position

variable {text : List Char} {c d : Cursor} {kind : String} {behind : List Token} {token : Token}

lemma follows_start (h : start text = .ok c) : c.Follows text [] := by
  replace h : advance ⟨text, none, (tokenize text).tokens, (tokenize text).fault⟩ = .ok c := h
  cases htokens : (tokenize text).tokens with
  | cons next later =>
    rw [htokens] at h
    cases h
    exact ⟨rfl, htokens.symm, fun _ => id⟩
  | nil =>
    cases hfault : (tokenize text).fault with
    | none =>
      rw [htokens, hfault] at h
      cases h
      exact ⟨rfl, htokens.symm, nofun⟩
    | some position =>
      rw [htokens, hfault] at h
      cases h

/-- One request lets the cursor pass the token that it hands out, and no other. -/
lemma Follows.expect (h : c.Follows text behind) (kind : String) :
    ∃ passed : List Token, (c.expect kind).2.Follows text (behind ++ passed) ∧
      ((c.expect kind).1.toOption.map (kind, ·)).toList = passed.map Token.named := by
  have hcases := expect_cases c kind
  generalize c.expect kind = answer at hcases
  cases hcases with
  | @found token d hcurrent hkind htext hfault hahead =>
    have htokens := h.tokens_eq
    rw [ahead, hcurrent, ← hahead] at htokens
    refine ⟨[token], ⟨htext.trans h.text_eq, ?_, hfault ▸ h.fault_eq⟩, ?_⟩
    · rw [List.append_assoc]
      exact htokens
    · subst hkind
      rfl
  | stuck =>
    have htokens := (List.append_nil behind).symm ▸ h.tokens_eq
    exact ⟨[], ⟨h.text_eq, htokens, by simp⟩, rfl⟩
  | refused => exact ⟨[], (List.append_nil behind).symm ▸ h, rfl⟩

lemma Follows.after (h : c.Follows text behind) (kinds : List String) :
    ∃ passed : List Token, (c.after kinds).Follows text (behind ++ passed) ∧
      granted kinds (c.expectAll kinds) = passed.map Token.named := by
  induction kinds generalizing c behind with
  | nil => exact ⟨[], (List.append_nil behind).symm ▸ h, rfl⟩
  | cons kind kinds ih =>
    obtain ⟨first, hfirst, hgranted⟩ := h.expect kind
    obtain ⟨rest, hrest, hrestGranted⟩ := ih hfirst
    refine ⟨first ++ rest, List.append_assoc behind first rest ▸ hrest, ?_⟩
    rw [expectAll_cons, granted_cons, hgranted, hrestGranted, List.map_append]

/-- At the end of the text every request is refused. -/
lemma expectAll_of_end (h : c.current = none) (kinds : List String) :
    c.expectAll kinds = kinds.map fun kind => .error (c.refusal kind) := by
  induction kinds with
  | nil => rfl
  | cons kind kinds ih =>
    rw [expectAll_cons, expect_refused (by simp [h]), ih, List.map_cons]

/-- A cursor with one token ahead refuses all requests up to the one for this token, and then it is at
the end. -/
lemma expectAll_of_last (hcurrent : c.current = some token) (hlater : c.later = [])
    (hfault : c.fault = none) {before : List String} (hbefore : token.kind.name ∉ before)
    (rest : List String) :
    c.expectAll (before ++ token.kind.name :: rest) =
      (before.map fun kind => .error (c.refusal kind)) ++ .ok token.text ::
        rest.map fun kind => .error (.atPosition c.text c.text.length (.expected kind none)) := by
  induction before with
  | nil =>
    have hlast : c.expect token.kind.name = (.ok token.text, { c with current := none }) := by
      rw [Cursor.expect, hcurrent]
      simp only [if_true, advance, hlater, hfault]
    rw [List.nil_append, expectAll_cons, hlast, expectAll_of_end rfl]
    rfl
  | cons kind before ih =>
    rw [List.mem_cons, not_or] at hbefore
    have hother : c.expect kind = (.error (c.refusal kind), c) := by
      refine expect_refused fun other hmem => ?_
      cases hcurrent.symm.trans hmem
      exact hbefore.1
    rw [List.cons_append, expectAll_cons, hother, ih hbefore.2, List.map_cons, List.cons_append]

/-- **No token is lost or handed out twice.**  A cursor starts on the first token of a text and is asked
for some tokens, in any order and number.  The requests that are granted, with the texts that are handed
out, are those of the first tokens of the text, and the other tokens are ahead.  Whatever is asked for
next, the answer is a text or one of two errors.  If something of the wrong kind stands there, the
cursor stays as it is.  If the text cannot be cut any further, then this is where it has its fault, and
the token that was asked for is the last one before.  It stays where it is, it is handed out at the next
request for its kind, and the text ends after it. -/
theorem requests_in_order (hstart : start text = .ok c) (kinds : List String) :
    granted kinds (c.expectAll kinds) ++ (c.after kinds).ahead.map Token.named =
      (tokenize text).tokens.map Token.named ∧
    ∀ kind,
      (∀ e, ((c.after kinds).expect kind).1 = .error e →
        (∃ fault place, e = .malformed fault place) ∨ ∃ position place, e = .lexical position place) ∧
      (∀ fault place d, (c.after kinds).expect kind = (.error (.malformed fault place), d) →
        d = c.after kinds) ∧
      ∀ position place d, (c.after kinds).expect kind = (.error (.lexical position place), d) →
        (tokenize text).fault = some position ∧
        ∃ token, token.kind.name = kind ∧ (c.after kinds).ahead = [token] ∧
          (c.after kinds).current = some token ∧ d.current = some token ∧ d.later = [] ∧
          ∀ before rest, kind ∉ before →
            d.expectAll (before ++ kind :: rest) =
              (before.map fun other =>
                .error (.atPosition text token.position (.expected other (some token)))) ++
              .ok token.text ::
                rest.map fun other => .error (.atPosition text text.length (.expected other none)) := by
  obtain ⟨passed, hfollows, hgranted⟩ := (follows_start hstart).after kinds
  refine ⟨?_, fun kind => ?_⟩
  · rw [hgranted, ← List.map_append, ← hfollows.tokens_eq, List.nil_append]
  · set c' := c.after kinds
    have hcases := expect_cases c' kind
    refine ⟨fun e he => ?_, fun fault place d hd => ?_, fun position place d hd => ?_⟩
    · generalize c'.expect kind = answer at hcases he
      cases hcases with
      | found => cases he
      | stuck =>
        cases he
        exact .inr ⟨_, _, rfl⟩
      | refused =>
        cases he
        exact .inl ⟨_, _, rfl⟩
    · rw [hd] at hcases
      cases hcases
      rfl
    · rw [hd] at hcases
      cases hcases with
      | @stuck token _ hcurrent hkind hlater hfault =>
        refine ⟨hfollows.fault_eq _ hfault, token, hkind, ?_, hcurrent, hcurrent, hlater, ?_⟩
        · rw [ahead, hcurrent, hlater]
          rfl
        · subst hkind
          intro before rest hbefore
          have hlast := expectAll_of_last (c := { c' with fault := none }) hcurrent hlater rfl
            hbefore rest
          simpa only [refusal, hcurrent, hfollows.text_eq, Option.elim] using hlast

/-- The text `(a #q` cannot be cut after its second token.  This token is handed out when it is asked for
the second time, after a number has been asked for in vain. -/
theorem requests_in_order_stuck : ∃ c d : Cursor, start "(a #q".toList = .ok c ∧
    granted ["lparen"] (c.expectAll ["lparen"]) ++ [("identifier", "a")] =
      [("lparen", "("), ("identifier", "a")] ∧
    (c.after ["lparen"]).expect "identifier" = (.error (.lexical 3 ⟨some 1, some 3⟩), d) ∧
    d.expectAll ["number", "identifier", "identifier"] =
      [.error (.malformed (.reading (.expected "number" (some ⟨.identifier, "a", 1⟩)))
          ⟨some 1, some 1⟩), .ok "a",
        .error (.malformed (.reading (.expected "identifier" none)) ⟨some 1, some 5⟩)] := by
  have hcut : tokenize "(a #q".toList =
      ⟨[⟨.lparen, "(", 0⟩, ⟨.identifier, "a", 1⟩], some 3⟩ := by decide +kernel
  set first : Cursor :=
    ⟨"(a #q".toList, some ⟨.lparen, "(", 0⟩, [⟨.identifier, "a", 1⟩], some 3⟩
  have hstart : start "(a #q".toList = .ok first := by
    rw [start, hcut]
    rfl
  obtain ⟨hgranted, hnext⟩ := requests_in_order hstart ["lparen"]
  obtain ⟨-, -, hstuck⟩ := hnext "identifier"
  obtain ⟨-, token, -, hahead, -, -, -, hrest⟩ := hstuck 3 ⟨some 1, some 3⟩ _ rfl
  obtain rfl : token = ⟨.identifier, "a", 1⟩ := (List.singleton_inj.mp hahead).symm
  rw [hcut, hahead] at hgranted
  exact ⟨first, _, hstart, hgranted, rfl, hrest ["number"] ["identifier"] (by decide)⟩

end Cursor

end SmallScheme
