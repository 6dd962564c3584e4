import Mathlib.Data.Nat.Digits.Lemmas
import SmallScheme.Proofs.PrintedText

/-!
# Number tokens

Each number token of a text is read as the number that its digits stand for by their positions, and
only a decimal one may be too long for that.  Conversely, each natural number is read from its digits
in any radix (`Radix.Writes`): zeros in front of them and the case of letters make no difference.

The main result is `number_tokens`.
-/

namespace SmallScheme

/-! ## Letters as digits -/

/-- Only the letters in upper case have another lower case. -/
lemma toLower_cases (c : Char) :
    c.toLower = c ∨ c ∈ "ABCDEFGHIJKLMNOPQRSTUVWXYZ".toList := by
  unfold Char.toLower
  split
  · rename_i h
    right
    rw [← Char.ofNat_toNat c]
    simp only [UInt32.le_iff_toNat_le, ge_iff_le, Char.toNat_val, Char.reduceVal,
      UInt32.reduceToNat] at h
    obtain ⟨hlow, hhigh⟩ := h
    generalize c.toNat = n at hlow hhigh
    interval_cases n <;> decide
  · exact .inl rfl

/-- A letter in upper case is the same digit as in lower case. -/
lemma digitValue_toLower (c : Char) : digitValue c.toLower = digitValue c := by
  have hletters : ∀ c ∈ "ABCDEFGHIJKLMNOPQRSTUVWXYZ".toList,
      digitValue c.toLower = digitValue c :=
    List.all_iff_forall_prop.mp (by decide)
  rcases toLower_cases c with h | h
  · rw [h]
  · exact hletters c h

lemma digitValue_digitChar {d : Nat} (hd : d < 16) : digitValue d.digitChar = d := by
  revert d
  decide +kernel

namespace Radix

lemma one_lt_base (radix : Radix) : 1 < radix.base := by
  cases radix <;> decide

lemma base_le (radix : Radix) : radix.base ≤ 16 := by
  cases radix <;> decide

/-- In upper or lower case, what stands for a number below the radix is one of its digits. -/
lemma isDigit_of_toLower (radix : Radix) {c : Char} {d : Nat} (hd : d < radix.base)
    (h : c.toLower = d.digitChar) : radix.isDigit c = true := by
  have hlower : ∀ radix : Radix, ∀ d < radix.base, radix.isDigit d.digitChar = true := by
    intro radix
    cases radix <;> decide +kernel
  have hupper : ∀ radix : Radix, ∀ c ∈ "ABCDEFGHIJKLMNOPQRSTUVWXYZ".toList, ∀ d < radix.base,
      c.toLower = d.digitChar → radix.isDigit c = true := by
    intro radix
    cases radix <;> exact List.all_iff_forall_prop.mp (by decide +kernel)
  rcases toLower_cases c with heq | hmem
  · rw [← heq, h]
    exact hlower radix d hd
  · exact hupper radix c hmem d hd h

/-! ## Digits of numbers -/

/-- The digits of a number after any number of zeros, with letters in upper or lower case. -/
def Writes (radix : Radix) (n : Nat) (ds : List Char) : Prop :=
  ∃ zeros digits, ds = List.replicate zeros '0' ++ digits ∧
    digits.map Char.toLower = Nat.toDigits radix.base n

/-- Every digit is one of a number below the radix. -/
lemma exists_digitChar_of_mem (radix : Radix) {n : Nat} {c : Char}
    (h : c ∈ Nat.toDigits radix.base n) : ∃ d < radix.base, c = d.digitChar := by
  induction n using Nat.strong_induction_on with
  | _ n ih =>
    rcases Nat.lt_or_ge n radix.base with hlt | hge
    · rw [Nat.toDigits_of_lt_base hlt] at h
      exact ⟨n, hlt, List.mem_singleton.mp h⟩
    · have hpos : 0 < n := (Nat.zero_lt_of_lt radix.one_lt_base).trans_le hge
      rw [Nat.toDigits_of_base_le radix.one_lt_base hge, List.mem_append] at h
      rcases h with h | h
      · exact ih _ (Nat.div_lt_self hpos radix.one_lt_base) h
      · exact ⟨n % radix.base, Nat.mod_lt n (Nat.zero_lt_of_lt radix.one_lt_base),
          List.mem_singleton.mp h⟩

lemma value_append (radix : Radix) (ds ds' : List Char) :
    radix.value (ds ++ ds') = radix.value ds' + radix.base ^ ds'.length * radix.value ds := by
  simp [value, Nat.ofDigits_append]

lemma value_zeros (radix : Radix) (zeros : Nat) : radix.value (List.replicate zeros '0') = 0 := by
  have hzero : digitValue '0' = 0 := by decide
  rw [value, List.reverse_replicate, List.map_replicate, hzero, Nat.ofDigits_replicate_zero]

/-- The case of letters makes no difference. -/
lemma value_map_toLower (radix : Radix) (ds : List Char) :
    radix.value (ds.map Char.toLower) = radix.value ds := by
  have hdigits : digitValue ∘ Char.toLower = digitValue := funext digitValue_toLower
  rw [value, value, ← List.map_reverse, List.map_map, hdigits]

/-- The digits of a number stand for it. -/
lemma value_toDigits (radix : Radix) (n : Nat) : radix.value (Nat.toDigits radix.base n) = n := by
  induction n using Nat.strong_induction_on with
  | _ n ih =>
    have hsingle {d : Nat} (hd : d < radix.base) : radix.value [d.digitChar] = d := by
      simp [value, digitValue_digitChar (hd.trans_le radix.base_le)]
    rcases Nat.lt_or_ge n radix.base with hlt | hge
    · rw [Nat.toDigits_of_lt_base hlt, hsingle hlt]
    · have hbase : 0 < radix.base := Nat.zero_lt_of_lt radix.one_lt_base
      rw [Nat.toDigits_of_base_le radix.one_lt_base hge, value_append,
        hsingle (Nat.mod_lt n hbase), List.length_singleton, pow_one,
        ih _ (Nat.div_lt_self (hbase.trans_le hge) radix.one_lt_base)]
      exact Nat.mod_add_div n radix.base

namespace Writes

variable {radix : Radix} {n : Nat} {ds : List Char}

lemma isRun (h : radix.Writes n ds) : IsRun radix.isDigit ds := by
  obtain ⟨zeros, digits, rfl, hdigits⟩ := h
  constructor
  · intro hnil
    rw [(List.append_eq_nil_iff.mp hnil).2] at hdigits
    exact Nat.toDigits_ne_nil hdigits.symm
  · intro c hc
    rcases List.mem_append.mp hc with hc | hc
    · rw [List.eq_of_mem_replicate hc]
      cases radix <;> decide
    · have hmem : c.toLower ∈ Nat.toDigits radix.base n := hdigits ▸ List.mem_map_of_mem hc
      obtain ⟨d, hd, heq⟩ := radix.exists_digitChar_of_mem hmem
      exact radix.isDigit_of_toLower hd heq

lemma value_eq (h : radix.Writes n ds) : radix.value ds = n := by
  obtain ⟨zeros, digits, rfl, hdigits⟩ := h
  rw [value_append, value_zeros, mul_zero, add_zero, ← value_map_toLower, hdigits, value_toDigits]

end Writes

/-- The value of digits is the sum of the digits, each times the power of the radix for its place. -/
lemma value_eq_sum (radix : Radix) (ds : List Char) :
    radix.value ds = (ds.reverse.mapIdx fun i d => digitValue d * radix.base ^ i).sum := by
  rw [value, Nat.ofDigits_eq_sum_mapIdx]
  exact congrArg List.sum (List.ext_getElem (by simp) fun i _ _ => by simp)

end Radix

/-! ## Tokens -/

section Tokens

variable {radix : Radix} {ds : List Char} {token : Token}

lemma readNumber_of_spelled (text : List Char) {cs : List Char}
    (h : Numeral.Spelled radix ds cs) (position : Nat) :
    readNumber text cs position =
      if Numeral.TooLong radix ds then .error (.atPosition text position .invalidNumber)
      else .ok (radix.value ds) := by
  rw [readNumber, Numeral.read?_of_spelled h]
  by_cases hlong : Numeral.TooLong radix ds
  · rw [if_pos hlong, if_pos hlong]
  · rw [if_neg hlong, if_neg hlong]

lemma atomOf_of_spelled (hkind : token.kind = .number)
    (h : Numeral.Spelled radix ds token.text.toList) :
    Reading.atomOf token =
      if Numeral.TooLong radix ds then .error .invalidNumber else .ok (.number (radix.value ds)) := by
  rw [Reading.atomOf, hkind]
  dsimp only
  rw [Numeral.read?_of_spelled h]
  by_cases hlong : Numeral.TooLong radix ds
  · rw [if_pos hlong, if_pos hlong]
  · rw [if_neg hlong, if_neg hlong]

/-- A text that is one numeral is read as one number. -/
lemma read_of_spelled {cs : List Char} (h : Numeral.Spelled radix ds cs)
    (hshort : ¬Numeral.TooLong radix ds) (limit : Nat) :
    read limit cs = .ok [.atom (.number (radix.value ds))] := by
  have hspells : TokenKind.number.Spells cs := ⟨radix, ds, h⟩
  have hreads : ReadsAs 0 cs (.atom (.number (radix.value ds))) := by
    refine readsAs_token hspells (fun position => ?_) (fun position _ es hes => ?_) fun _ h => by cases h
    · exact @AtomOf.number ⟨.number, String.ofList cs, position⟩ radix ds rfl
        (by rwa [String.toList_ofList])
    · rw [String.toList_ofList] at hes
      obtain ⟨hdecimal, rfl⟩ := h.unique hes
      exact not_lt.mp fun hlong => hshort ⟨hdecimal, hlong⟩
  have hjoined : Joined [String.ofList cs] cs := by
    have hone := Joined.one (String.ofList cs)
    rwa [String.toList_ofList] at hone
  exact read_joined (.cons (by rwa [String.toList_ofList]) .nil) hjoined (Nat.zero_le limit)

/-- **Number tokens are read as their positional values.**  Each number token of a text is a run of
digits of one radix, decimal if there is no mark in front of them.  It is read as the sum of the
digits, each times the power of the radix for its place, except that a decimal one with too many
digits is refused.  The case of letters makes no difference.  Conversely, a text that consists of the
digits of a natural number in a radix, after the mark of the radix and any number of zeros, is read as
just this number; decimal digits need no mark, but they must not be too many. -/
theorem number_tokens :
    (∀ (text : List Char) (token : Token), token ∈ (tokenize text).tokens → token.kind = .number →
      ∃ radix ds, Numeral.Spelled radix ds token.text.toList ∧
        (¬(radix = .decimal ∧ 4300 < ds.length) →
          readNumber text token.text.toList token.position =
            .ok (ds.reverse.mapIdx fun i d => digitValue d * radix.base ^ i).sum ∧
          Reading.atomOf token =
            .ok (.number (ds.reverse.mapIdx fun i d => digitValue d * radix.base ^ i).sum)) ∧
        (radix = .decimal ∧ 4300 < ds.length →
          readNumber text token.text.toList token.position =
            .error (.atPosition text token.position .invalidNumber) ∧
          Reading.atomOf token = .error .invalidNumber)) ∧
    (∀ c, digitValue c.toLower = digitValue c) ∧
    ∀ (radix : Radix) (n : Nat) (ds cs : List Char) (limit : Nat), radix.Writes n ds →
      ¬(radix = .decimal ∧ 4300 < ds.length) →
      cs = '#' :: radix.letter :: ds ∨ radix = .decimal ∧ cs = ds →
      read limit cs = .ok [.atom (.number n)] := by
  refine ⟨fun text token hmem hkind => ?_, digitValue_toLower,
    fun radix n ds cs limit hwrites hshort hcs => ?_⟩
  · have hspells := spells_of_mem_tokensFrom hmem
    rw [hkind] at hspells
    obtain ⟨radix, ds, hspelled⟩ := hspells
    have hnumber := readNumber_of_spelled text hspelled token.position
    have hatom := atomOf_of_spelled hkind hspelled
    refine ⟨radix, ds, hspelled, fun hshort => ?_, fun hlong => ?_⟩
    · rw [← radix.value_eq_sum]
      exact ⟨hnumber.trans (if_neg hshort), hatom.trans (if_neg hshort)⟩
    · exact ⟨hnumber.trans (if_pos hlong), hatom.trans (if_pos hlong)⟩
  · have hspelled : Numeral.Spelled radix ds cs := by
      rcases hcs with rfl | ⟨rfl, rfl⟩
      · exact .marked radix hwrites.isRun
      · exact .plain hwrites.isRun
    rw [read_of_spelled hspelled hshort, hwrites.value_eq]

/-- In `#x0B1` the letter is a digit, although elsewhere `0b` may announce binary digits.  The digits
of 255 may be written `00fF`. -/
theorem number_tokens_hexadecimal :
    (⟨.number, "#x0B1", 1⟩ ∈ (tokenize "(#x0B1)".toList).tokens ∧
      readNumber "(#x0B1)".toList "#x0B1".toList 1 = .ok 177) ∧
    Radix.hexadecimal.Writes 255 "00fF".toList ∧
    read 0 "#x00fF".toList = .ok [.atom (.number 255)] := by
  have hmem : ⟨.number, "#x0B1", 1⟩ ∈ (tokenize "(#x0B1)".toList).tokens := by decide +kernel
  have hwrites : Radix.hexadecimal.Writes 255 "00fF".toList :=
    ⟨2, ['f', 'F'], by decide, by decide⟩
  have hspelled : Numeral.Spelled .hexadecimal ['0', 'B', '1'] "#x0B1".toList :=
    .marked .hexadecimal ⟨by decide, List.all_iff_forall_prop.mp (by decide)⟩
  obtain ⟨radix, ds, hds, hshort, -⟩ := number_tokens.1 _ _ hmem rfl
  obtain ⟨rfl, rfl⟩ := hspelled.unique hds
  refine ⟨⟨hmem, (hshort (by decide)).1.trans (by decide)⟩, hwrites, ?_⟩
  exact number_tokens.2.2 _ _ _ _ 0 hwrites (by decide) (.inl rfl)

end Tokens

end SmallScheme
