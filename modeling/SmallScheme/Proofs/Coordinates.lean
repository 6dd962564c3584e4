import Mathlib.Data.Prod.Lex
import Mathlib.Order.Monotone.Basic
import SmallScheme.Proofs.ExceptBind
import SmallScheme.Proofs.LongestMatch
import SmallScheme.Reading

/-!
# Coordinates identify positions

Going one character further in a text leads to a later coordinate: to the next column, or to the next
line after a line feed.  So the coordinates of a text increase with the positions, in the order by lines
and then by columns, and no two positions share one.

A text is refused at a token, at its end, or where it cannot be cut.  The fault at a token is never one
that its end has, and a token starts before the end (`position_lt`).  Hence a coordinate in an error also
tells these cases apart.

The main result is `coordinates_identify`.
-/

namespace SmallScheme

namespace Text

/-! ## The order of coordinates -/

/-- A coordinate in the order by lines, and by columns in the same line. -/
def Coordinate.key (p : Coordinate) : ℕ ×ₗ ℕ :=
  toLex (p.line, p.column)

lemma Coordinate.key_lt_after (p : Coordinate) (c : Char) : p.key < (p.after c).key := by
  rw [key, key, Prod.Lex.toLex_lt_toLex]
  by_cases hc : c = '\n'
  · subst hc
    exact .inl (Nat.lt_succ_self _)
  · rw [after_of_ne_newline p hc]
    exact .inr ⟨rfl, Nat.lt_succ_self _⟩

variable {text : List Char} {p q : Nat}

lemma coordinateAt_of_le (h : p ≤ text.length) :
    coordinateAt text p = (text.take p).foldl Coordinate.after .start := by
  rw [coordinateAt]
  simp [h]

/-- Inside a text, the next coordinate is the one after the character. -/
lemma coordinateAt_succ (h : p < text.length) :
    coordinateAt text (p + 1) = (coordinateAt text p).after text[p] := by
  rw [coordinateAt_of_le h, coordinateAt_of_le h.le, List.take_succ_eq_append_getElem h,
    List.foldl_append]
  rfl

/-- Past its end, the text goes on in the same line. -/
lemma coordinateAt_succ_of_length_le (h : text.length ≤ p) :
    coordinateAt text (p + 1) =
      ⟨(coordinateAt text p).line, (coordinateAt text p).column + 1⟩ := by
  have hsucc : text.length ≤ p + 1 := h.trans (Nat.le_succ p)
  simp only [coordinateAt, List.take_of_length_le h, List.take_of_length_le hsucc]
  rw [Nat.succ_sub h, Nat.add_succ]

/-- **Later positions have later coordinates.** -/
lemma strictMono_coordinateAt (text : List Char) :
    StrictMono fun p => (coordinateAt text p).key := by
  refine strictMono_nat_of_lt_succ fun p => ?_
  rcases lt_or_ge p text.length with h | h
  · rw [coordinateAt_succ h]
    exact Coordinate.key_lt_after _ _
  · rw [coordinateAt_succ_of_length_le h, Coordinate.key, Coordinate.key, Prod.Lex.toLex_lt_toLex]
    exact .inr ⟨rfl, Nat.lt_succ_self _⟩

lemma injective_coordinateAt (text : List Char) : Function.Injective (coordinateAt text) :=
  fun _ _ h => (strictMono_coordinateAt text).injective (congrArg Coordinate.key h)

lemma injective_ofPosition (text : List Char) : Function.Injective (Place.ofPosition text) := by
  intro p q h
  have hline : (coordinateAt text p).line = (coordinateAt text q).line :=
    Option.some.inj (congrArg Place.line h)
  have hcolumn : (coordinateAt text p).column = (coordinateAt text q).column :=
    Option.some.inj (congrArg Place.column h)
  refine (strictMono_coordinateAt text).injective ?_
  rw [Coordinate.key, hline, hcolumn, Coordinate.key]

lemma line_foldl_after (cs : List Char) (p : Coordinate) :
    (cs.foldl Coordinate.after p).line = p.line + cs.count '\n' := by
  induction cs generalizing p with
  | nil => rfl
  | cons c cs ih =>
    rw [List.foldl_cons, ih, List.count_cons]
    by_cases hc : c = '\n'
    · subst hc
      simp only [Coordinate.after_newline, beq_self_eq_true, if_true]
      omega
    · simp [Coordinate.after_of_ne_newline p hc, hc]

/-- The line is counted by the line feeds before the position. -/
lemma line_coordinateAt (text : List Char) (p : Nat) :
    (coordinateAt text p).line = 1 + (text.take p).count '\n' :=
  line_foldl_after (text.take p) .start

end Text

/-! ## Where errors stand -/

/-- The fault is that the text ends too early. -/
def ReadFault.AtEnd : ReadFault → Prop
  | unexpectedEnd | unclosedList => True
  | _ => False

lemma ReadFault.atEnd_iff {fault : ReadFault} :
    fault.AtEnd ↔ fault = .unexpectedEnd ∨ fault = .unclosedList := by
  cases fault <;> simp [AtEnd]

/-- A token starts before the end of its text. -/
lemma position_lt {text : List Char} {token : Token} (h : token ∈ (tokenize text).tokens) :
    token.position < text.length := by
  have hlongest := (decomposes_tokensFrom 0 text).isLongest rfl token h
  have hdrop : text.drop token.position ≠ [] := fun hnil =>
    hlongest.spells.ne_nil (List.prefix_nil.mp (hnil ▸ hlongest.front))
  simpa using hdrop

namespace Reading

variable {limit : Nat} {text : List Char} {r : Reading} {token : Token} {fault : ReadFault} {e : Error}

lemma not_atEnd_of_atomOf (h : atomOf token = .error fault) : ¬fault.AtEnd := by
  unfold atomOf at h
  split at h
  · cases h
  · split at h
    · cases h
    · cases h
      exact id
  · cases h
  · cases h
  · cases h
    exact id

lemma not_atEnd_of_simple (h : r.simple token = .error fault) : ¬fault.AtEnd := by
  rcases bind_eq_error.mp h with hatom | ⟨a, -, hdone⟩
  · exact not_atEnd_of_atomOf hatom
  · cases hdone

lemma not_atEnd_of_dot (h : r.dot token = .error fault) : ¬fault.AtEnd := by
  unfold dot at h
  split at h
  · cases h
  · cases h
    exact id
  · exact not_atEnd_of_simple h

lemma not_atEnd_of_close (h : r.close token = .error fault) : ¬fault.AtEnd := by
  unfold close at h
  split at h
  · cases h
  · cases h
  · cases h
    exact id
  · cases h
    exact id

/-- Something stands at a token that must not stand there. -/
def RefusedAt (text : List Char) (token : Token) (e : Error) : Prop :=
  ∃ fault, ¬fault.AtEnd ∧ e = .atPosition text token.position fault

/-- A token is refused for a fault at its position, or because too much is open. -/
lemma refusal_of_next (h : next limit text r token = .error e) :
    e = .tooDeep ∨ RefusedAt text token e := by
  have hpush {inner : Opened} (h : r.push limit inner = .error e) : e = .tooDeep := by
    unfold push at h
    split at h <;> cases h
    rfl
  unfold next at h
  split at h
  · exact .inl (hpush h)
  · exact .inl (hpush h)
  · obtain ⟨fault, hclose, rfl⟩ := mapError_eq_error.mp h
    exact .inr ⟨fault, not_atEnd_of_close hclose, rfl⟩
  · obtain ⟨fault, hread, rfl⟩ := mapError_eq_error.mp h
    refine .inr ⟨fault, ?_, rfl⟩
    split at hread
    · exact not_atEnd_of_dot hread
    · exact not_atEnd_of_simple hread

lemma refusal_of_foldlM {ts : List Token} (h : ts.foldlM (next limit text) r = .error e) :
    e = .tooDeep ∨ ∃ token ∈ ts, RefusedAt text token e := by
  induction ts generalizing r with
  | nil => cases h
  | cons token ts ih =>
    rw [List.foldlM_cons] at h
    rcases bind_eq_error.mp h with hnext | ⟨r', -, hrest⟩
    · exact (refusal_of_next hnext).imp id fun hrefused => ⟨token, List.mem_cons_self, hrefused⟩
    · exact (ih hrest).imp id fun ⟨t, ht, hrefused⟩ => ⟨t, List.mem_cons_of_mem _ ht, hrefused⟩

lemma refusal_of_finish (h : r.finish text = .error e) :
    ∃ fault, fault.AtEnd ∧ e = .atPosition text text.length fault := by
  unfold finish at h
  split at h
  · cases h
  · exact ⟨.unexpectedEnd, trivial, (Except.error.inj h).symm⟩
  · exact ⟨.unclosedList, trivial, (Except.error.inj h).symm⟩

end Reading

/-- Why a text is refused, and where. -/
inductive Refusal (text : List Char) : Error → Prop
  /-- At a token that must not stand there. -/
  | token {token : Token} {fault : ReadFault} : token ∈ (tokenize text).tokens → ¬fault.AtEnd →
      Refusal text (.atPosition text token.position fault)
  /-- At its end. -/
  | atEnd {fault : ReadFault} : fault.AtEnd → Refusal text (.atPosition text text.length fault)
  /-- Where it cannot be cut. -/
  | cut {position : Nat} : (tokenize text).fault = some position →
      Refusal text (.lexicalAt text position)
  /-- Too much is open at once. -/
  | tooDeep : Refusal text .tooDeep

lemma refusal_of_read {limit : Nat} {text : List Char} {e : Error}
    (h : read limit text = .error e) : Refusal text e := by
  rcases bind_eq_error.mp h with htokens | ⟨r, -, hrest⟩
  · rcases Reading.refusal_of_foldlM htokens with rfl | ⟨token, hmem, fault, hfault, rfl⟩
    · exact .tooDeep
    · exact .token hmem hfault
  · cases hcut : (tokenize text).fault with
    | some position =>
      rw [hcut] at hrest
      cases hrest
      exact .cut hcut
    | none =>
      rw [hcut] at hrest
      obtain ⟨fault, hfault, rfl⟩ := Reading.refusal_of_finish hrest
      exact .atEnd hfault

/-- **Coordinates identify positions.**  In each text, later positions have later coordinates, also past
its end, and so no two positions share one; the line is one more than the number of line feeds before
the position, and so at most one more than there are in the text.  If the text is refused for its shape,
the coordinate in the error is the one of a token or the one of the end of the text, and the latter
exactly for the two faults that a text has at its end.  If it is refused because it cannot be cut, the
coordinate is the one of the position that the error gives. -/
theorem coordinates_identify (text : List Char) :
    (∀ p q, p < q → (Text.coordinateAt text p).key < (Text.coordinateAt text q).key) ∧
    Function.Injective (Text.coordinateAt text) ∧
    (∀ p, (Text.coordinateAt text p).line = 1 + (text.take p).count '\n' ∧
      (Text.coordinateAt text p).line ≤ 1 + text.count '\n') ∧
    ∀ limit e, read limit text = .error e →
      (∀ fault place, e = .malformed fault place → ∃ reason, fault = .reading reason ∧
        (place = .ofPosition text text.length ↔
          reason = .unexpectedEnd ∨ reason = .unclosedList) ∧
        (place ≠ .ofPosition text text.length →
          ∃ token ∈ (tokenize text).tokens, place = .ofPosition text token.position)) ∧
      ∀ position place, e = .lexical position place → place = .ofPosition text position := by
  refine ⟨fun p q h => Text.strictMono_coordinateAt text h, Text.injective_coordinateAt text,
    fun p => ⟨Text.line_coordinateAt text p, ?_⟩, fun limit e h => ?_⟩
  · rw [Text.line_coordinateAt]
    exact Nat.add_le_add_left (List.Sublist.count_le '\n' (List.take_sublist p text)) 1
  · cases refusal_of_read h with
    | @token token reason hmem hreason =>
      refine ⟨fun fault place heq => ?_, nofun⟩
      cases heq
      -- a token starts before the end, so its coordinate is another one
      have hne : Text.Place.ofPosition text token.position ≠ .ofPosition text text.length :=
        fun heq => (position_lt hmem).ne (Text.injective_ofPosition text heq)
      rw [ReadFault.atEnd_iff] at hreason
      exact ⟨reason, rfl, iff_of_false hne hreason, fun _ => ⟨token, hmem, rfl⟩⟩
    | @atEnd reason hreason =>
      refine ⟨fun fault place heq => ?_, nofun⟩
      cases heq
      exact ⟨reason, rfl, iff_of_true rfl (ReadFault.atEnd_iff.mp hreason), fun hne => absurd rfl hne⟩
    | cut =>
      refine ⟨nofun, fun position place heq => ?_⟩
      cases heq
      rfl
    | tooDeep => exact ⟨nofun, nofun⟩

/-- A list that is not closed is found out at the end of the text, which is on the second line, and a
point without a member after it at the parenthesis. -/
theorem coordinates_identify_openList :
    (∃ place, read 6 "(a\n".toList = .error (.malformed (.reading .unclosedList) place) ∧
      place = .ofPosition "(a\n".toList 3 ∧ place = ⟨some 2, some 1⟩) ∧
    ∃ place, read 6 "(a\n .)".toList = .error (.malformed (.reading .misplacedDot) place) ∧
      (∃ token ∈ (tokenize "(a\n .)".toList).tokens,
        place = .ofPosition "(a\n .)".toList token.position) ∧ place = ⟨some 2, some 3⟩ := by
  obtain ⟨-, -, -, hopen⟩ := coordinates_identify "(a\n".toList
  obtain ⟨-, -, -, hpoint⟩ := coordinates_identify "(a\n .)".toList
  have hread : read 6 "(a\n".toList =
      .error (.malformed (.reading .unclosedList) ⟨some 2, some 1⟩) := by decide +kernel
  have hread' : read 6 "(a\n .)".toList =
      .error (.malformed (.reading .misplacedDot) ⟨some 2, some 3⟩) := by decide +kernel
  refine ⟨⟨_, hread, ?_, rfl⟩, _, hread', ?_, rfl⟩
  · obtain ⟨reason, heq, hend, -⟩ := (hopen 6 _ hread).1 _ _ rfl
    cases heq
    exact hend.mpr (.inr rfl)
  · obtain ⟨reason, heq, hend, htoken⟩ := (hpoint 6 _ hread').1 _ _ rfl
    cases heq
    exact htoken fun h => by simpa using hend.mp h

end SmallScheme
