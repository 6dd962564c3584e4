import Mathlib.Data.Nat.Digits.Defs
import SmallScheme.Proofs.TokenClass

/-!
# Numerals stand for their positional value

`Radix.value` is the number that digits stand for by their positions: the sum of the digits times
the powers of the radix.  The main results are

* `Numeral.read?_of_spelled`: a numeral of a program text is read as its positional value, unless
  it is decimal and too long (`Numeral.TooLong`);
* `Numeral.read?_toString`: the decimal form of a natural number is read as this number if and
  only if it may be written at all, so both directions have the same limit.
-/

namespace SmallScheme

/-- The value of a digit, whatever its radix. -/
def digitValue (c : Char) : Nat :=
  if c.isDigit then c.toNat - '0'.toNat else c.toLower.toNat - 'a'.toNat + 10

/-- The number that digits stand for, the most significant one first. -/
def Radix.value (radix : Radix) (ds : List Char) : Nat :=
  Nat.ofDigits radix.base (ds.reverse.map digitValue)

namespace Numeral

/-- A decimal numeral with more digits than may be read. -/
def TooLong (radix : Radix) (ds : List Char) : Prop :=
  radix = .decimal ∧ maxDecimalDigits < ds.length

instance (radix : Radix) (ds : List Char) : Decidable (TooLong radix ds) :=
  inferInstanceAs (Decidable (_ ∧ _))

/-! ## Digits -/

/-- The digits of all radices together. -/
def digitChars : List Char := "0123456789abcdefABCDEF".toList

lemma mem_digitChars (radix : Radix) {c : Char} (h : radix.isDigit c = true) :
    c ∈ digitChars := by
  have hex : isHexDigit c = true := by
    cases radix
    all_goals
      simp [Radix.isDigit, isBinaryDigit, isOctalDigit, isHexDigit, Char.isDigit, Char.le_def,
        UInt32.le_iff_toNat_le] at h ⊢
    · rcases h with rfl | rfl <;> simp
    all_goals omega
  -- the code of the character is in one of three short ranges
  rw [← Char.ofNat_toNat c]
  simp only [isHexDigit, Char.isDigit, Char.le_def, UInt32.le_iff_toNat_le, Bool.or_eq_true,
    Bool.and_eq_true, decide_eq_true_eq, ge_iff_le] at hex
  rcases hex with (⟨hlow, hhigh⟩ | ⟨hlow, hhigh⟩) | ⟨hlow, hhigh⟩
  all_goals
    simp only [Char.toNat_val, Char.reduceVal, UInt32.reduceToNat] at hlow hhigh
    generalize c.toNat = n at hlow hhigh
    interval_cases n <;> decide

/-- Everything that a reader does with a single digit: it has its value, and nothing else is
seen in it. -/
lemma digit_cases (radix : Radix) {c : Char} (h : radix.isDigit c = true) :
    digit? radix.base c = some (digitValue c) ∧ toAsciiDigit c = c ∧ isOuterBlank c = false ∧
      (radix ≠ .decimal → c.toLower ≠ radix.letter) ∧ c ∉ ['_', '+', '-', '#'] := by
  have hall : ∀ c ∈ digitChars, radix.isDigit c = true →
      digit? radix.base c = some (digitValue c) ∧ toAsciiDigit c = c ∧ isOuterBlank c = false ∧
        (radix ≠ .decimal → c.toLower ≠ radix.letter) ∧ c ∉ ['_', '+', '-', '#'] := by
    cases radix <;> exact List.all_iff_forall_prop.mp (by decide)
  exact hall c (mem_digitChars radix h) h

/-- A run of digits is read digit by digit: there is no underscore in it. -/
lemma digits?_eq_some (radix : Radix) {ds : List Char} (h : IsRun radix.isDigit ds) :
    digits? radix.base ds = some (ds.map digitValue) := by
  obtain ⟨hne, hall⟩ := h
  induction ds with
  | nil => exact absurd rfl hne
  | cons c ds ih =>
    have hc := (digit_cases radix (hall c (by simp))).1
    cases ds with
    | nil => simp [digits?, hc]
    | cons c' ds =>
      have hc' : c' ≠ '_' := fun he => (digit_cases radix (hall c' (by simp))).2.2.2.2 (by simp [he])
      have hrest := ih (by simp) fun d hd => hall d (List.mem_cons_of_mem c hd)
      rw [digits?.eq_4 _ _ _ _ hc', hrest]
      simp [hc]

lemma ofDigits_map_digitValue (radix : Radix) (ds : List Char) :
    ofDigits radix.base (ds.map digitValue) = radix.value ds := by
  unfold ofDigits Radix.value
  rw [Nat.ofDigits_eq_foldr, List.map_reverse, List.foldr_reverse]
  simp [add_comm, mul_comm]

/-! ## Reading -/

/-- Nothing in a run of digits is taken for a second mark of the radix. -/
lemma dropMark_of_isRun (radix : Radix) {ds : List Char} (h : IsRun radix.isDigit ds) :
    dropMark radix ds = ds := by
  unfold dropMark
  split
  · rename_i c rest
    have hc := (digit_cases radix (h.2 c (by simp))).2.2.2.1
    rw [if_neg fun hmark => hc hmark.1 hmark.2]
  · rfl

lemma magnitude?_of_isRun (radix : Radix) {ds : List Char} (h : IsRun radix.isDigit ds) :
    magnitude? radix ds = if TooLong radix ds then none else some (radix.value ds) := by
  simp only [magnitude?, dropMark_of_isRun radix h, digits?_eq_some radix h,
    Option.bind_eq_bind, Option.bind_some, List.length_map, ofDigits_map_digitValue, TooLong]
  rfl

lemma signed?_of_isRun (radix : Radix) {ds : List Char} (h : IsRun radix.isDigit ds) :
    signed? radix ds = if TooLong radix ds then none else some (radix.value ds : Int) := by
  obtain ⟨d, ds, rfl⟩ := List.exists_cons_of_ne_nil h.1
  have hd := (digit_cases radix (h.2 d (by simp))).2.2.2.2
  simp only [List.mem_cons, List.not_mem_nil, or_false, not_or] at hd
  rw [signed?.eq_3 _ _ (by simp [hd]) (by simp [hd]), magnitude?_of_isRun radix h]
  split <;> rfl

/-- The blanks around a numeral: a run of digits has none. -/
lemma dropWhile_isOuterBlank_of_isRun (radix : Radix) {ds : List Char}
    (h : ∀ d ∈ ds, radix.isDigit d = true) : ds.dropWhile isOuterBlank = ds := by
  cases ds with
  | nil => rfl
  | cons d ds => simp [(digit_cases radix (h d (by simp))).2.2.1]

lemma readIn?_of_isRun (radix : Radix) {ds : List Char} (h : IsRun radix.isDigit ds) :
    readIn? radix ds = if TooLong radix ds then none else some (radix.value ds : Int) := by
  have hascii : ds.map toAsciiDigit = ds := by
    conv_rhs => rw [← List.map_id ds]
    exact List.map_congr_left fun d hd => (digit_cases radix (h.2 d hd)).2.1
  have hreverse : ∀ d ∈ ds.reverse, radix.isDigit d = true := fun d hd =>
    h.2 d (List.mem_reverse.mp hd)
  simp only [readIn?, dropWhile_isOuterBlank_of_isRun radix h.2,
    dropWhile_isOuterBlank_of_isRun radix hreverse, List.reverse_reverse, hascii,
    signed?_of_isRun radix h]

lemma ofLetter?_letter (radix : Radix) : Radix.ofLetter? radix.letter = some radix := by
  cases radix <;> decide

/-- **A numeral of a program text is read as its positional value**, unless it is too long. -/
theorem read?_of_spelled {radix : Radix} {ds cs : List Char} (h : Spelled radix ds cs) :
    read? cs = if TooLong radix ds then none else some (radix.value ds : Int) := by
  cases h with
  | plain hrun =>
    obtain ⟨d, ds, rfl⟩ := List.exists_cons_of_ne_nil hrun.1
    have hd := (digit_cases .decimal (hrun.2 d (by simp))).2.2.2.2
    simp only [List.mem_cons, List.not_mem_nil, or_false, not_or] at hd
    rw [read?.eq_3 _ (by simp [hd]) (by simp [hd]), readIn?_of_isRun .decimal hrun]
  | marked radix hrun =>
    rw [read?, ofLetter?_letter, ← readIn?_of_isRun radix hrun]
    rfl

/-! ## Digits of a spelling -/

/-- A spelling has one radix and one run of digits. -/
theorem Spelled.unique {radix radix' : Radix} {ds ds' cs : List Char} (h : Spelled radix ds cs)
    (h' : Spelled radix' ds' cs) : radix = radix' ∧ ds = ds' := by
  cases h with
  | plain hrun =>
    cases h' with
    | plain _ => exact ⟨rfl, rfl⟩
    | marked => exact absurd (hrun.2 '#' (by simp)) (by decide)
  | marked radix _ =>
    generalize hcs : '#' :: radix.letter :: ds = cs at h'
    cases h' with
    | plain hrun =>
      subst hcs
      exact absurd (hrun.2 '#' (by simp)) (by decide)
    | marked radix' _ =>
      simp only [List.cons.injEq, true_and] at hcs
      refine ⟨?_, hcs.2⟩
      have hletters := congrArg Radix.ofLetter? hcs.1
      simpa only [ofLetter?_letter, Option.some.injEq] using hletters

/-! ## Writing -/

lemma isDigit_of_mem_toDigits {n : Nat} {c : Char} (h : c ∈ Nat.toDigits 10 n) :
    c.isDigit = true :=
  Nat.isDigit_of_mem_toDigits (by decide) (by decide) h

lemma spelled_toString (n : Nat) : Spelled .decimal (toString n).toList (toString n).toList :=
  .plain ⟨by simp, fun c hc => isDigit_of_mem_toDigits (by simpa using hc)⟩

lemma value_toString (n : Nat) : Radix.decimal.value (toString n).toList = n := by
  have hdigits : (toString n).toList.map digitValue =
      (toString n).toList.map fun c => c.toNat - '0'.toNat :=
    List.map_congr_left fun c hc => by
      simp [digitValue, isDigit_of_mem_toDigits (by simpa using hc)]
  rw [← ofDigits_map_digitValue, hdigits]
  calc ofDigits 10 ((toString n).toList.map fun c => c.toNat - '0'.toNat)
      = Nat.ofDigitChars 10 (Nat.toDigits 10 n) 0 := by
        simp [ofDigits, Nat.ofDigitChars_eq_foldl, List.foldl_map, mul_comm]
    _ = n := Nat.ofDigitChars_ten_toDigits

lemma tooLong_toString_iff (n : Nat) :
    TooLong .decimal (toString n).toList ↔ decimalBound ≤ n := by
  have hlength := Nat.length_repr_le_iff (n := n) (k := maxDecimalDigits) (by decide)
  have hbound : decimalBound = 10 ^ maxDecimalDigits := by
    -- the exponent stays a variable, so that nothing computes the bound
    generalize hmax : maxDecimalDigits = k
    unfold decimalBound
    rw [hmax, Nat.pow_eq]
  rw [TooLong, hbound, ← not_lt, ← hlength, not_le, String.length_toList, Nat.toString_eq_repr]
  exact and_iff_right rfl

lemma decimal?_natCast (n : Nat) :
    decimal? n = if n < decimalBound then some (toString n) else none := by
  simp only [decimal?, Int.natAbs_natCast]
  rfl

/-- **The limits of reading and writing agree**: the decimal form of a natural number is read as
this number if the number may be written, and otherwise it is not read at all. -/
theorem read?_toString (n : Nat) :
    read? (toString n).toList = if (decimal? n).isSome then some (n : Int) else none := by
  rw [read?_of_spelled (spelled_toString n), value_toString, decimal?_natCast]
  simp only [tooLong_toString_iff]
  by_cases h : n < decimalBound
  · rw [if_neg (not_le.mpr h), if_pos h]
    rfl
  · rw [if_pos (not_lt.mp h), if_neg h]
    rfl

end Numeral

end SmallScheme
