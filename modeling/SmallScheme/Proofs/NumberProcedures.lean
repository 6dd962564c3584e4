import Mathlib.Algebra.Order.Ring.Int
import Mathlib.Algebra.BigOperators.Group.List.Basic
import Mathlib.Data.List.Chain
import SmallScheme.Proofs.AllOrNothing

/-!
# Procedures on numbers

The procedures that compare numbers look at their arguments from the left, two neighbours at a time.
The first two that are not numbers in the relation settle the outcome, so that what comes after them
may be anything (`Comparison.chained`).  Since each of the relations is transitive, a chain of numbers
is related throughout and not only between neighbours, and reading it backwards reverses the relation.

The procedures that calculate look at all arguments before they begin, so that a value that is no
number is found before a zero divisor, wherever the two are.  After that they fold an exact operation
over the numbers from the left (`Arithmetic.folds`).
-/

namespace SmallScheme

/-- A value that is a number. -/
def Value.IsNumber (v : Value) : Prop :=
  ∃ n, v = .number n

/-- Values are all numbers, or there is a first one that is not. -/
lemma Value.numbers_cases (vs : List Value) :
    (∃ ns : List Int, vs = ns.map .number) ∨
      ∃ (ns : List Int) (v : Value) (after : List Value),
        vs = ns.map .number ++ v :: after ∧ ¬v.IsNumber := by
  induction vs with
  | nil => exact .inl ⟨[], rfl⟩
  | cons v vs ih =>
    by_cases hv : v.IsNumber
    · obtain ⟨n, rfl⟩ := hv
      rcases ih with ⟨ns, rfl⟩ | ⟨ns, w, after, rfl, hw⟩
      · exact .inl ⟨n :: ns, rfl⟩
      · exact .inr ⟨n :: ns, w, after, rfl, hw⟩
    · exact .inr ⟨[], v, vs, rfl, hv⟩

lemma Value.exists_numbers {vs : List Value} (h : ∀ v ∈ vs, v.IsNumber) :
    ∃ ns : List Int, vs = ns.map .number :=
  (numbers_cases vs).resolve_right fun ⟨_, v, _, heq, hv⟩ => hv (h v (by simp [heq]))

/-- Arguments that are all numbers, with a first one. -/
lemma Value.exists_numbers_cons {vs : List Value} (hne : vs ≠ []) (h : ∀ v ∈ vs, v.IsNumber) :
    ∃ n ns, vs = (n :: ns).map Value.number := by
  obtain ⟨_ | ⟨n, ns⟩, rfl⟩ := exists_numbers h
  · exact absurd rfl hne
  · exact ⟨n, ns, rfl⟩

lemma Value.number_injective : Function.Injective Value.number := by
  rintro m n ⟨⟩
  rfl

lemma Value.isNumber_of_mem_map {ns : List Int} {v : Value} (hv : v ∈ ns.map Value.number) :
    v.IsNumber := by
  obtain ⟨n, -, rfl⟩ := List.mem_map.mp hv
  exact ⟨n, rfl⟩

namespace Primitive

/-- The error with which a primitive turns down a value that stands where a number has to be.  The
complaint shows the value, unless a number in it is too long to be shown. -/
inductive TurnsDown (s : Store) (p : Primitive) (v : Value) : Error → Prop
  /-- The value is shown. -/
  | complains {text : String} : (∀ limit, s.cells.size < limit → s.render limit v = .ok text) →
      TurnsDown s p v (p.complain (.notNumber text))
  /-- The value cannot be shown. -/
  | tooManyDigits : s.HasLongNumber v →
      (∀ limit, s.cells.size < limit → s.render limit v = .error .tooManyDigits) →
      TurnsDown s p v .tooManyDigits

variable {s : Store} {p : Primitive} {v : Value} {e : Error} {args : List Value}

lemma TurnsDown.refuses (h : p.TurnsDown s v e) (hv : v ∈ args) : p.Refuses s args e := by
  cases h with
  | complains => exact .complains _
  | tooManyDigits hlong => exact .tooManyDigits hv hlong

/-- What can be shown is shown in the complaint. -/
lemma TurnsDown.eq_complain {limit : Nat} {text : String} (h : p.TurnsDown s v e)
    (hlimit : s.cells.size < limit) (hrender : s.render limit v = .ok text) :
    e = p.complain (.notNumber text) := by
  cases h with
  | complains htext =>
    cases (htext limit hlimit).symm.trans hrender
    rfl
  | tooManyDigits _ herror => cases (herror limit hlimit).symm.trans hrender

lemma numberOf_number (p : Primitive) (limit : Nat) (n : Int) :
    p.numberOf limit (.number n) = pure n := rfl

lemma numberOf_of_not_isNumber (hv : ¬v.IsNumber) (p : Primitive) (limit : Nat) :
    p.numberOf limit v =
      (do throw (p.complain (.notNumber (← Effect.shown limit v))) : Effect Int) := by
  unfold numberOf
  split
  · exact absurd ⟨_, rfl⟩ hv
  · rfl

/-- There is no step after a value that is no number. -/
lemma numberOf_bind_of_not_isNumber {α : Type} (hv : ¬v.IsNumber) (p : Primitive) (limit : Nat)
    (f g : Int → Effect α) : p.numberOf limit v >>= f = p.numberOf limit v >>= g := by
  rw [numberOf_of_not_isNumber hv]
  funext s
  cases h : Effect.shown limit v s with
  | ok text t =>
    have hthrow := Effect.bind_ok (f := fun text =>
      (throw (p.complain (.notNumber text)) : Effect Int)) h
    exact (Effect.bind_error hthrow).trans (Effect.bind_error hthrow).symm
  | error e t =>
    have herror := Effect.bind_error (f := fun text =>
      (throw (p.complain (.notNumber text)) : Effect Int)) h
    exact (Effect.bind_error herror).trans (Effect.bind_error herror).symm

/-- A value that is no number is turned down, whatever it is. -/
lemma exists_turnsDown (s : Store) (p : Primitive) (hv : ¬v.IsNumber) :
    ∃ e, p.TurnsDown s v e ∧ Settles s (p.numberOf · v) (.error e s) := by
  simp only [numberOf_of_not_isNumber hv]
  rcases settles_shown s v with ⟨text, htext, hsettles⟩ | ⟨hlong, hsettles⟩
  · exact ⟨_, .complains htext, hsettles.bind_ok (settles_const (throw _) s)⟩
  · refine ⟨_, .tooManyDigits hlong fun limit hlimit => ?_, hsettles.bind_error⟩
    have herror := hsettles.of_lt hlimit
    unfold Effect.shown Effect.ask at herror
    split at herror
    case h_1 => cases herror
    case h_2 hrender =>
      cases herror
      exact hrender

end Primitive

lemma Builtin.settles_of_turnsDown {s : Store} {b : Builtin} {v : Value} {e : Error}
    {args : List Value} (hdown : b.primitive.TurnsDown s v e) (hv : v ∈ args)
    (h : Settles s (b.primitive.run · args) (.error e s)) :
    Settles s (b.apply · args) (.error e s) := by
  have hrefuses : b.primitive.Outcome s args (fun (_ : Value) _ => False) (.error e s) :=
    .refuses (hdown.refuses hv)
  exact settles_apply h hrefuses

/-! ## Comparisons -/

namespace Comparison

/-- The relation of integers that is meant, apart from how it is checked. -/
def exact : Comparison → Int → Int → Prop
  | equal => (· = ·)
  | atLeast => (· ≥ ·)
  | atMost => (· ≤ ·)
  | greater => (· > ·)
  | less => (· < ·)

/-- Two values that are numbers in the relation. -/
def Relates (relation : Comparison) (v w : Value) : Prop :=
  ∃ m n, v = .number m ∧ w = .number n ∧ relation.exact m n

/-- The relation that holds of the same numbers in the opposite order. -/
def converse : Comparison → Comparison
  | equal => equal
  | atLeast => atMost
  | atMost => atLeast
  | greater => less
  | less => greater

/-- The native procedure that checks the relation along its arguments. -/
def procedure (relation : Comparison) (installation : Nat) : Builtin :=
  ⟨relation.name, .comparison relation, installation⟩

variable {relation : Comparison} {limit : Nat} {s : Store} {m n : Int} {v w : Value}
  {before after : List Value}

/-- The check decides the relation that is meant. -/
lemma holds_iff : relation.holds m n = true ↔ relation.exact m n := by
  cases relation <;> simp [holds, exact]

instance (relation : Comparison) : DecidableRel relation.exact := fun _ _ =>
  decidable_of_iff _ holds_iff

lemma relates_number : relation.Relates (.number m) (.number n) ↔ relation.exact m n := by
  constructor
  · rintro ⟨_, _, ⟨⟩, ⟨⟩, h⟩
    exact h
  · exact fun h => ⟨m, n, rfl, rfl, h⟩

lemma exact_converse (relation : Comparison) (m n : Int) :
    relation.converse.exact m n ↔ relation.exact n m := by
  cases relation <;> simp [converse, exact, eq_comm]

instance (relation : Comparison) : IsTrans Int relation.exact where
  trans a b c := by
    cases relation <;> simp only [exact] <;> omega

/-- Where a list is not related throughout, there is a first pair of neighbours that is not. -/
lemma exists_first_unrelated (relation : Comparison) (args : List Value) :
    args.IsChain relation.Relates ∨
      ∃ before v w after, args = before ++ v :: w :: after ∧
        (before ++ [v]).IsChain relation.Relates ∧ ¬relation.Relates v w := by
  induction args with
  | nil => exact .inl .nil
  | cons v args ih =>
    cases args with
    | nil => exact .inl (.singleton v)
    | cons w args =>
      by_cases hvw : relation.Relates v w
      · rcases ih with hchain | ⟨before, u, u', after, heq, hchain, hnot⟩
        · exact .inl (.cons_cons hvw hchain)
        · refine .inr ⟨v :: before, u, u', after, congrArg (v :: ·) heq, ?_, hnot⟩
          -- the pair found further on starts with `w` or comes after it
          cases before with
          | nil =>
            obtain ⟨rfl, -⟩ := List.cons.inj heq
            exact .cons_cons hvw (.singleton _)
          | cons u'' before =>
            obtain ⟨rfl, -⟩ := List.cons.inj heq
            exact .cons_cons hvw hchain
      · exact .inr ⟨[], v, w, args, rfl, .singleton v, hvw⟩

open Primitive

lemma compareAll_numbers (rest : List Value) :
    compareAll relation limit (.number m :: .number n :: rest) =
      if relation.exact m n then compareAll relation limit (.number n :: rest)
      else pure false :=
  if_congr holds_iff rfl rfl

/-- What is related is passed over. -/
lemma compareAll_append (h : (before ++ [v]).IsChain relation.Relates) (rest : List Value) :
    compareAll relation limit (before ++ v :: rest) = compareAll relation limit (v :: rest) := by
  induction before with
  | nil => rfl
  | cons u before ih =>
    rw [← ih h.tail]
    obtain ⟨w, before', heq⟩ : ∃ w before', before ++ [v] = w :: before' :=
      List.exists_cons_of_ne_nil (by simp)
    obtain ⟨m, n, rfl, rfl, hexact⟩ : relation.Relates u w := by
      rw [List.cons_append, heq, List.isChain_cons_cons] at h
      exact h.1
    -- what follows `u` starts with a number that is related to it
    have hsplit : before ++ v :: rest = .number n :: (before' ++ rest) := by
      simpa using congrArg (· ++ rest) heq
    rw [List.cons_append, hsplit, compareAll_numbers, if_pos hexact]

lemma compareAll_of_isChain {args : List Value} (h : args.IsChain relation.Relates) :
    compareAll relation limit args = pure true := by
  rcases List.eq_nil_or_concat' args with rfl | ⟨before, v, rfl⟩
  · rfl
  · rw [compareAll_append h]
    rfl

/-- The first value that is no number is turned down, if the relation holds between all neighbours
before it. -/
lemma exists_turnsDown (s : Store) (after : List Value)
    (hchain : (before ++ [v]).IsChain relation.Relates) :
    (¬v.IsNumber → ∃ e, (comparison relation).TurnsDown s v e ∧
      Settles s (compareAll relation · (before ++ v :: w :: after)) (.error e s)) ∧
    (v.IsNumber → ¬w.IsNumber → ∃ e, (comparison relation).TurnsDown s w e ∧
      Settles s (compareAll relation · (before ++ v :: w :: after)) (.error e s)) := by
  simp only [compareAll_append hchain]
  constructor
  · intro hv
    obtain ⟨e, hdown, hsettles⟩ := Primitive.exists_turnsDown s (comparison relation) hv
    exact ⟨e, hdown, hsettles.bind_error⟩
  · rintro ⟨m, rfl⟩ hw
    obtain ⟨e, hdown, hsettles⟩ := Primitive.exists_turnsDown s (comparison relation) hw
    refine ⟨e, hdown, Settles.bind_ok (settles_const (pure m) s) ?_⟩
    exact hsettles.bind_error

lemma compareAll_of_not_relates (hchain : (before ++ [v]).IsChain relation.Relates)
    (hnot : ¬relation.Relates v w) (hv : v.IsNumber) (hw : w.IsNumber) :
    compareAll relation limit (before ++ v :: w :: after) = pure false := by
  obtain ⟨m, rfl⟩ := hv
  obtain ⟨n, rfl⟩ := hw
  rw [compareAll_append hchain, compareAll_numbers, if_neg (relates_number.not.mp hnot)]

/-- What comes after the first two that are not related has no influence. -/
lemma compareAll_congr (hchain : (before ++ [v]).IsChain relation.Relates)
    (hnot : ¬relation.Relates v w) (after' : List Value) :
    compareAll relation limit (before ++ v :: w :: after) =
      compareAll relation limit (before ++ v :: w :: after') := by
  rw [compareAll_append hchain, compareAll_append hchain]
  by_cases hv : v.IsNumber
  · obtain ⟨m, rfl⟩ := hv
    by_cases hw : w.IsNumber
    · obtain ⟨n, rfl⟩ := hw
      rw [compareAll_numbers, compareAll_numbers, if_neg (relates_number.not.mp hnot),
        if_neg (relates_number.not.mp hnot)]
    · exact numberOf_bind_of_not_isNumber hw _ limit _ _
  · exact numberOf_bind_of_not_isNumber hv _ limit _ _

/-! ### The procedure -/

lemma run_comparison (relation : Comparison) (limit : Nat) (args : List Value) :
    (comparison relation).run limit args =
      (do return .bool (← compareAll relation limit args) : Effect Value) := by
  simp [run, needed, start]

lemma apply_of_compareAll {args : List Value} {b : Bool} (installation : Nat)
    (h : compareAll relation limit args = pure b) (s : Store) :
    (relation.procedure installation).apply limit args s = .ok (.bool b) s := by
  apply Builtin.apply_of_ok
  show (comparison relation).run limit args s = _
  rw [run_comparison, h]
  rfl

lemma settles_apply {args : List Value} {e : Error} (installation : Nat)
    (hdown : (comparison relation).TurnsDown s v e) (hv : v ∈ args)
    (h : Settles s (compareAll relation · args) (.error e s)) :
    Settles s ((relation.procedure installation).apply · args) (.error e s) := by
  refine Builtin.settles_of_turnsDown hdown hv ?_
  show Settles s (fun limit => (comparison relation).run limit args) _
  simp only [run_comparison]
  exact h.bind_error

/-- Numbers are related between all neighbours if and only if they are related throughout. -/
lemma isChain_numbers (relation : Comparison) (ns : List Int) :
    (ns.map Value.number).IsChain relation.Relates ↔
      ns.Pairwise relation.exact := by
  rw [List.isChain_map, ← List.isChain_iff_pairwise]
  simp only [relates_number]

/-- Numbers are related throughout or not, and nothing else can be said of them. -/
lemma compareAll_eq_decide (relation : Comparison) (limit : Nat) (ns : List Int) :
    compareAll relation limit (ns.map .number) =
      pure (decide (ns.Pairwise relation.exact)) := by
  rcases exists_first_unrelated relation (ns.map .number) with
    hchain | ⟨before, v, w, after, heq, hchain, hnot⟩
  · rw [compareAll_of_isChain hchain, decide_eq_true ((isChain_numbers relation ns).mp hchain)]
  · have hnumber {u : Value} (hu : u ∈ before ++ v :: w :: after) : u.IsNumber :=
      Value.isNumber_of_mem_map (heq ▸ hu)
    have hpairwise : ¬ns.Pairwise relation.exact := by
      rw [← isChain_numbers, heq, List.isChain_append_cons_cons]
      exact fun h => hnot h.2.1
    rw [decide_eq_false hpairwise, heq]
    exact compareAll_of_not_relates hchain hnot (hnumber (by simp)) (hnumber (by simp))

/-- **Comparisons are chained.**  Each of the five relations is a procedure of the standard library,
under the name by which it is known.
Applied to any values, it gives the truth value true if all neighbours are numbers in the relation.
Otherwise there is a first pair of neighbours that is not.  If both are numbers, the result is false,
and if not, the first of the two that is no number is turned down; what comes after the pair has no
influence.  Numbers give true if and only if each is related to all that come after it, so that
the numbers in the opposite order are related by the converse. -/
theorem chained (relation : Comparison) (channel : Channel) (installation : Nat) (s : Store) :
    (relation, relation.name) ∈
      [(equal, "="), (atLeast, ">="), (atMost, "<="), (greater, ">"), (less, "<")] ∧
    (Library.standard channel).get? relation.name = some (.comparison relation) ∧
    (∀ args limit, args.IsChain relation.Relates →
      (relation.procedure installation).apply limit args s = .ok (.bool true) s) ∧
    (∀ args : List Value, ¬args.IsChain relation.Relates → ∃ before v w after,
      args = before ++ v :: w :: after ∧ (before ++ [v]).IsChain relation.Relates ∧
        ¬relation.Relates v w) ∧
    (∀ before v w after, (before ++ [v]).IsChain relation.Relates → ¬relation.Relates v w →
      (v.IsNumber → w.IsNumber → ∀ limit,
        (relation.procedure installation).apply limit (before ++ v :: w :: after) s =
          .ok (.bool false) s) ∧
      (¬v.IsNumber → ∃ e, (comparison relation).TurnsDown s v e ∧
        Settles s ((relation.procedure installation).apply · (before ++ v :: w :: after))
          (.error e s)) ∧
      (v.IsNumber → ¬w.IsNumber → ∃ e, (comparison relation).TurnsDown s w e ∧
        Settles s ((relation.procedure installation).apply · (before ++ v :: w :: after))
          (.error e s)) ∧
      ∀ after' limit,
        (relation.procedure installation).apply limit (before ++ v :: w :: after) s =
          (relation.procedure installation).apply limit (before ++ v :: w :: after') s) ∧
    ∀ (ns : List Int) (limit : Nat),
      (∃ b, (relation.procedure installation).apply limit (ns.map .number) s = .ok (.bool b) s ∧
        (b = true ↔ ns.Pairwise relation.exact)) ∧
      (relation.converse.procedure installation).apply limit (ns.reverse.map .number) s =
        (relation.procedure installation).apply limit (ns.map .number) s := by
  refine ⟨by cases relation <;> decide, by cases relation <;> cases channel <;> rfl, ?_, ?_, ?_, ?_⟩
  · exact fun args limit hchain => apply_of_compareAll installation (compareAll_of_isChain hchain) s
  · exact fun args hnot => (exists_first_unrelated relation args).resolve_left hnot
  · intro before v w after hchain hnot
    obtain ⟨hfirst, hsecond⟩ := exists_turnsDown (w := w) s after hchain
    refine ⟨fun hv hw limit => ?_, fun hv => ?_, fun hv hw => ?_, fun after' limit => ?_⟩
    · exact apply_of_compareAll installation (compareAll_of_not_relates hchain hnot hv hw) s
    · obtain ⟨e, hdown, hsettles⟩ := hfirst hv
      exact ⟨e, hdown, settles_apply installation hdown (by simp) hsettles⟩
    · obtain ⟨e, hdown, hsettles⟩ := hsecond hv hw
      exact ⟨e, hdown, settles_apply installation hdown (by simp) hsettles⟩
    · show tryCatch ((comparison relation).run limit _) _ s =
        tryCatch ((comparison relation).run limit _) _ s
      rw [run_comparison, run_comparison, compareAll_congr hchain hnot after']
  · intro ns limit
    have hanswer (r : Comparison) (ms : List Int) :=
      apply_of_compareAll installation (compareAll_eq_decide r limit ms) s
    refine ⟨⟨_, hanswer relation ns, decide_eq_true_iff⟩, ?_⟩
    rw [hanswer, hanswer]
    -- the relation is reversed together with the numbers
    simp only [List.pairwise_reverse, exact_converse]

/-- A chain; numbers with two equal neighbours, which settle the outcome although no number comes
after them; a number before the empty list; and for each of the other relations, numbers of which it
holds and numbers of which it does not. -/
theorem chained_mixed : [Value.number 1, .number 2].IsChain less.Relates ∧
    (∀ limit, (less.procedure 0).apply limit [.number 1, .number 2] .empty =
      .ok (.bool true) .empty) ∧
    (∀ limit, (less.procedure 0).apply limit [.number 1, .number 3, .number 3, .nil] .empty =
      .ok (.bool false) .empty) ∧
    Settles .empty ((less.procedure 0).apply · [.number 1, .nil])
      (.error (.builtin (some "<") (.notNumber "()")) .empty) ∧
    ∀ c ∈ [(equal, [2, 2, 2], true), (equal, [2, 2, 1], false),
        (atLeast, [2, 2, 1], true), (atLeast, [1, 2], false),
        (atMost, [1, 2, 2], true), (atMost, [2, 1], false),
        (greater, [2, 1], true), (greater, [2, 2], false)],
      ∀ limit, (c.1.procedure 0).apply limit (c.2.1.map .number) .empty =
        .ok (.bool c.2.2) .empty := by
  obtain ⟨-, -, hchain, -, hbreak, -⟩ := chained less .standard 0 .empty
  have hupwards : [Value.number 1, .number 2].IsChain less.Relates :=
    .cons_cons (relates_number.mpr (by decide)) (.singleton _)
  have hequal : ¬less.Relates (.number 3) (.number 3) := relates_number.not.mpr (by decide)
  have hempty : ¬Value.IsNumber .nil := by rintro ⟨n, ⟨⟩⟩
  obtain ⟨hfalse, -, -, -⟩ := hbreak [.number 1] (.number 3) (.number 3) [.nil]
    (.cons_cons (relates_number.mpr (by decide)) (.singleton _)) hequal
  obtain ⟨-, -, hdown, -⟩ := hbreak [] (.number 1) .nil [] (.singleton _)
    fun ⟨_, n, _, hn, _⟩ => hempty ⟨n, hn⟩
  refine ⟨hupwards, fun limit => hchain _ limit hupwards, hfalse ⟨3, rfl⟩ ⟨3, rfl⟩, ?_, ?_⟩
  · obtain ⟨e, hdown, hsettles⟩ := hdown ⟨1, rfl⟩ hempty
    have hshown : Store.empty.render 1 .nil = .ok "()" := by decide +kernel
    rw [hdown.eq_complain (by decide) hshown] at hsettles
    exact hsettles
  · intro c hc limit
    -- whether the numbers are related throughout can be computed
    have hcase : c.2.2 = true ↔ c.2.1.Pairwise c.1.exact := by
      revert c
      decide
    obtain ⟨-, -, -, -, -, hnumbers⟩ := chained c.1 .standard 0 .empty
    obtain ⟨⟨b, hanswer, hiff⟩, -⟩ := hnumbers c.2.1 limit
    rw [hanswer, Bool.eq_iff_iff.mpr (hiff.trans hcase.symm)]

end Comparison

/-! ## Arithmetic -/

namespace Arithmetic

/-- The exact operation on integers.  Where there is no quotient, it does not matter. -/
def exact : Arithmetic → Int → Int → Int
  | add => (· + ·)
  | sub => (· - ·)
  | mul => (· * ·)
  | quotient => Int.fdiv
  | modulo => Int.fmod

/-- The operations that need a divisor. -/
def Divides (operation : Arithmetic) : Prop :=
  operation = quotient ∨ operation = modulo

/-- The operations that do not depend on the order. -/
def Commutes (operation : Arithmetic) : Prop :=
  operation = add ∨ operation = mul

/-- The native procedure that folds the operation over its arguments. -/
def procedure (operation : Arithmetic) (installation : Nat) : Builtin :=
  ⟨operation.name, .arithmetic operation, installation⟩

variable {operation : Arithmetic} {limit : Nat} {s t : Store} {n : Int} {ns : List Int} {v : Value}
  {args : List Value}

/-! ### Folds of exact operations -/

lemma result?_of_ne_zero (h : operation.Divides → n ≠ 0) (total : Int) :
    operation.result? total n = some (operation.exact total n) := by
  cases operation with
  | add | sub | mul => rfl
  | quotient => exact if_neg (h (.inl rfl))
  | modulo => exact if_neg (h (.inr rfl))

lemma result?_zero (h : operation.Divides) (total : Int) : operation.result? total 0 = none := by
  rcases h with rfl | rfl <;> rfl

lemma foldl_exact_add (n : Int) (ns : List Int) : ns.foldl add.exact n = (n :: ns).sum := by
  induction ns generalizing n with
  | nil => simp
  | cons m ns ih => simpa [exact, add_assoc] using ih (n + m)

lemma foldl_exact_mul (n : Int) (ns : List Int) : ns.foldl mul.exact n = (n :: ns).prod := by
  induction ns generalizing n with
  | nil => simp
  | cons m ns ih => simpa [exact, mul_assoc] using ih (n * m)

/-- A fold does not depend on the order, or on which numbers are folded first. -/
lemma foldl_exact_of_perm (h : operation.Commutes) {k m n : Int} {ks ms ns : List Int}
    (hperm : (k :: ks).Perm (m :: ms ++ n :: ns)) :
    ks.foldl operation.exact k =
      operation.exact (ms.foldl operation.exact m) (ns.foldl operation.exact n) := by
  rcases h with rfl | rfl
  · rw [foldl_exact_add, foldl_exact_add, foldl_exact_add, hperm.sum_eq, List.sum_append]
    rfl
  · rw [foldl_exact_mul, foldl_exact_mul, foldl_exact_mul, hperm.prod_eq, List.prod_append]
    rfl

lemma foldl_exact_perm (h : operation.Commutes) {k n : Int} {ks ns : List Int}
    (hperm : (k :: ks).Perm (n :: ns)) : ks.foldl operation.exact k = ns.foldl operation.exact n := by
  rcases h with rfl | rfl
  · rw [foldl_exact_add, foldl_exact_add, hperm.sum_eq]
  · rw [foldl_exact_mul, foldl_exact_mul, hperm.prod_eq]

/-- The remainder is smaller than the divisor, and on the same side of zero. -/
lemma fmod_cases (a : Int) {b : Int} (hb : b ≠ 0) :
    (a.fmod b = 0 ∨ (a.fmod b).sign = b.sign) ∧ |a.fmod b| < |b| := by
  have hpositive (a : Int) {b : Int} (hb : 0 < b) :
      (a.fmod b = 0 ∨ (a.fmod b).sign = b.sign) ∧ |a.fmod b| < |b| := by
    have hnonneg := Int.fmod_nonneg_of_pos a hb
    refine ⟨?_, by rw [abs_of_nonneg hnonneg, abs_of_pos hb]; exact Int.fmod_lt_of_pos a hb⟩
    rcases hnonneg.eq_or_lt with hzero | hpos
    · exact .inl hzero.symm
    · exact .inr ((Int.sign_eq_one_of_pos hpos).trans (Int.sign_eq_one_of_pos hb).symm)
  rcases hb.lt_or_gt with hneg | hpos
  · -- both sides are turned round
    have h := hpositive (-a) (Int.neg_pos_of_neg hneg)
    simpa [Int.neg_fmod_neg] using h
  · exact hpositive a hpos

open Primitive

lemma foldNumbers_ok (h : operation.Divides → 0 ∉ ns) (n : Int) (s : Store) :
    foldNumbers operation n ns s = .ok (ns.foldl operation.exact n) s := by
  induction ns generalizing n with
  | nil => rfl
  | cons m ns ih =>
    have hm : operation.Divides → m ≠ 0 := fun hd => (List.ne_of_not_mem_cons (h hd)).symm
    unfold foldNumbers
    rw [result?_of_ne_zero hm]
    exact ih (fun hd => List.not_mem_of_not_mem_cons (h hd)) _

lemma foldNumbers_zero (h : operation.Divides) (hzero : 0 ∈ ns) (n : Int) (s : Store) :
    foldNumbers operation n ns s = .error ((arithmetic operation).complain .divisionByZero) s := by
  induction ns generalizing n with
  | nil => cases hzero
  | cons m ns ih =>
    unfold foldNumbers
    by_cases hm : m = 0
    · rw [hm, result?_zero h]
      rfl
    · rw [result?_of_ne_zero fun _ => hm]
      exact ih ((List.mem_cons.mp hzero).resolve_left (Ne.symm hm)) _

/-! ### The check of the arguments -/

lemma mapM_numbers (p : Primitive) (limit : Nat) (ns : List Int) :
    (ns.map Value.number).mapM (p.numberOf limit) = pure ns := by
  induction ns with
  | nil => rfl
  | cons n ns ih => rw [List.map_cons, List.mapM_cons, ih, numberOf_number, pure_bind, pure_bind]

/-- The first value that is no number is turned down. -/
lemma exists_turnsDown (s : Store) (p : Primitive) (ns : List Int) (hv : ¬v.IsNumber)
    (after : List Value) :
    ∃ e, p.TurnsDown s v e ∧
      Settles s (fun limit => (ns.map Value.number ++ v :: after).mapM (p.numberOf limit))
        (.error e s) := by
  obtain ⟨e, hdown, hsettles⟩ := Primitive.exists_turnsDown s p hv
  refine ⟨e, hdown, ?_⟩
  simp only [List.mapM_append, mapM_numbers, pure_bind, List.mapM_cons]
  exact hsettles.bind_error.bind_error

lemma run_arithmetic (operation : Arithmetic) (limit : Nat) (v : Value) (vs : List Value) :
    (arithmetic operation).run limit (v :: vs) = (do
      match ← (v :: vs).mapM ((arithmetic operation).numberOf limit) with
      | [] => throw ((arithmetic operation).complain .noArguments)
      | n :: ns => return .number (← foldNumbers operation n ns) : Effect Value) := by
  simp [run, needed, start]

/-! ### The procedure -/

lemma apply_nil (operation : Arithmetic) (installation limit : Nat) (s : Store) :
    (operation.procedure installation).apply limit [] s =
      .error (.builtin (some operation.name) .noArguments) s :=
  Builtin.apply_of_error (e := (arithmetic operation).complain .noArguments) rfl

lemma run_numbers (operation : Arithmetic) (limit : Nat) (n : Int) (ns : List Int) :
    (arithmetic operation).run limit ((n :: ns).map .number) =
      (do return .number (← foldNumbers operation n ns) : Effect Value) := by
  rw [List.map_cons, run_arithmetic, ← List.map_cons, mapM_numbers, pure_bind]

lemma apply_numbers (h : operation.Divides → 0 ∉ ns) (installation limit : Nat) (n : Int)
    (s : Store) :
    (operation.procedure installation).apply limit ((n :: ns).map .number) s =
      .ok (.number (ns.foldl operation.exact n)) s := by
  apply Builtin.apply_of_ok
  show (arithmetic operation).run limit _ s = _
  rw [run_numbers, Effect.bind_ok (foldNumbers_ok h n s)]
  rfl

lemma apply_zero (h : operation.Divides) (hzero : 0 ∈ ns) (installation limit : Nat) (n : Int)
    (s : Store) :
    (operation.procedure installation).apply limit ((n :: ns).map .number) s =
      .error (.builtin (some operation.name) .divisionByZero) s := by
  refine Builtin.apply_of_error (e := (arithmetic operation).complain .divisionByZero) ?_
  show (arithmetic operation).run limit _ s = _
  rw [run_numbers, Effect.bind_error (foldNumbers_zero h hzero n s)]

lemma settles_apply (operation : Arithmetic) (installation : Nat) (s : Store) (ns : List Int)
    (hv : ¬v.IsNumber) (after : List Value) :
    ∃ e, (arithmetic operation).TurnsDown s v e ∧
      Settles s ((operation.procedure installation).apply · (ns.map .number ++ v :: after))
        (.error e s) := by
  obtain ⟨e, hdown, hsettles⟩ := exists_turnsDown s (arithmetic operation) ns hv after
  refine ⟨e, hdown, Builtin.settles_of_turnsDown hdown (by simp) ?_⟩
  show Settles s (fun limit => (arithmetic operation).run limit _) _
  obtain ⟨u, us, heq⟩ : ∃ u us, ns.map Value.number ++ v :: after = u :: us :=
    List.exists_cons_of_ne_nil (by simp)
  rw [heq] at hsettles ⊢
  simp only [run_arithmetic]
  exact hsettles.bind_error

/-- There is a value only for arguments that can be calculated with. -/
lemma arguments_of_ok {installation : Nat}
    (hok : (operation.procedure installation).apply limit args s = .ok v t) :
    args ≠ [] ∧ (∀ v ∈ args, v.IsNumber) ∧ (operation.Divides → .number 0 ∉ args.tail) := by
  rcases Value.numbers_cases args with ⟨ns, rfl⟩ | ⟨ns, w, after, rfl, hw⟩
  · cases ns with
    | nil => cases (apply_nil operation installation limit s).symm.trans hok
    | cons n ns =>
      refine ⟨by simp, fun v => Value.isNumber_of_mem_map, fun hdivides hmem => ?_⟩
      obtain ⟨m, hm, ⟨⟩⟩ := List.mem_map.mp hmem
      cases (apply_zero hdivides hm installation limit n s).symm.trans hok
  · obtain ⟨e, -, hsettles⟩ := settles_apply operation installation s ns hw after
    rcases hsettles.of_any limit with herror | hdeep
    · cases herror.symm.trans hok
    · cases hdeep.symm.trans hok

lemma Commutes.apply_numbers (h : operation.Commutes) (installation limit : Nat) (n : Int)
    (ns : List Int) (s : Store) :
    (operation.procedure installation).apply limit ((n :: ns).map .number) s =
      .ok (.number (ns.foldl operation.exact n)) s := by
  have hdivides : ¬operation.Divides := by rcases h with rfl | rfl <;> rintro (⟨⟨⟩⟩ | ⟨⟨⟩⟩)
  exact Arithmetic.apply_numbers (fun hd => absurd hd hdivides) installation limit n s

/-- Numbers in another order have the same sum and the same product. -/
lemma apply_perm (hcommutes : operation.Commutes) {installation : Nat} {args' : List Value}
    (hperm : args.Perm args')
    (hok : (operation.procedure installation).apply limit args s = .ok v t) :
    (operation.procedure installation).apply limit args' s = .ok v t := by
  obtain ⟨hne, hnumbers, hzero⟩ := arguments_of_ok hok
  obtain ⟨n, ns, rfl⟩ := Value.exists_numbers_cons hne hnumbers
  obtain ⟨m, ms, rfl⟩ := Value.exists_numbers_cons
    (fun hnil => hne (List.perm_nil.mp (hnil ▸ hperm)))
    fun v hv => hnumbers v (hperm.mem_iff.mpr hv)
  rw [hcommutes.apply_numbers] at hok ⊢
  rw [← hok, foldl_exact_perm hcommutes ((List.map_perm_map_iff Value.number_injective).mp hperm)]

/-- Groups of numbers can be added or multiplied on their own first. -/
lemma apply_split (hcommutes : operation.Commutes) (installation limit : Nat) (s : Store)
    {vs ws : List Value} (hperm : args.Perm (vs ++ ws)) (hvs : vs ≠ []) (hws : ws ≠ [])
    (hnumbers : ∀ v ∈ args, v.IsNumber) :
    ∃ x y z, (operation.procedure installation).apply limit vs s = .ok x s ∧
      (operation.procedure installation).apply limit ws s = .ok y s ∧
      (operation.procedure installation).apply limit args s = .ok z s ∧
      (operation.procedure installation).apply limit [x, y] s = .ok z s := by
  have hmem {v : Value} (hv : v ∈ vs ++ ws) : v.IsNumber := hnumbers v (hperm.mem_iff.mpr hv)
  obtain ⟨m, ms, rfl⟩ := Value.exists_numbers_cons hvs fun v hv => hmem (by simp [hv])
  obtain ⟨n, ns, rfl⟩ := Value.exists_numbers_cons hws fun v hv => hmem (by simp [hv])
  have hne : args ≠ [] := by
    rintro rfl
    simp at hperm
  obtain ⟨k, ks, rfl⟩ := Value.exists_numbers_cons hne hnumbers
  rw [← List.map_append] at hperm
  have hfold := foldl_exact_of_perm hcommutes
    ((List.map_perm_map_iff Value.number_injective).mp hperm)
  exact ⟨_, _, _, hcommutes.apply_numbers .., hcommutes.apply_numbers ..,
    hcommutes.apply_numbers .., hfold ▸ hcommutes.apply_numbers installation limit _ [_] s⟩

/-- **Arithmetic folds exact operations.**  Each of the five operations is a procedure of the standard
library, under the name by which it is known.  Applied to any values, it gives a number if and only if
there are arguments, all of them are numbers, and no divisor is zero; and the number is that of the
fold of the exact operation from the left.  Otherwise the procedure complains: that there is no
argument; or else it turns down the first argument that is no number, even after a zero divisor; or
else of a zero divisor.  So sums and products do not depend on the order of the arguments or on how
they are grouped, and a number is the product of the divisor and the quotient plus the remainder,
which is zero or on the side of the divisor, and smaller. -/
theorem folds (channel : Channel) (installation : Nat) (s : Store) :
    Complaint.message .noArguments = "requires at least 1 argument" ∧
    Complaint.message .divisionByZero = "division by zero" ∧
    (∀ operation : Arithmetic,
      (operation, operation.name) ∈
        [(add, "+"), (sub, "-"), (mul, "*"), (quotient, "quotient"), (modulo, "modulo")] ∧
      (Library.standard channel).get? operation.name = some (.arithmetic operation) ∧
      (∀ args limit,
        (∃ n t, (operation.procedure installation).apply limit args s = .ok (.number n) t) ↔
          args ≠ [] ∧ (∀ v ∈ args, v.IsNumber) ∧ (operation.Divides → .number 0 ∉ args.tail)) ∧
      (∀ (n : Int) (ns : List Int) (limit : Nat), (operation.Divides → 0 ∉ ns) →
        (operation.procedure installation).apply limit ((n :: ns).map .number) s =
          .ok (.number (ns.foldl operation.exact n)) s) ∧
      (∀ limit, (operation.procedure installation).apply limit [] s =
        .error (.builtin (some operation.name) .noArguments) s) ∧
      (∀ before v after, (∀ u ∈ before, u.IsNumber) → ¬v.IsNumber →
        ∃ e, (arithmetic operation).TurnsDown s v e ∧
          Settles s ((operation.procedure installation).apply · (before ++ v :: after))
            (.error e s)) ∧
      (∀ (n : Int) (ns : List Int) (limit : Nat), operation.Divides → 0 ∈ ns →
        (operation.procedure installation).apply limit ((n :: ns).map .number) s =
          .error (.builtin (some operation.name) .divisionByZero) s) ∧
      (operation.Commutes →
        (∀ args args' limit v t, args.Perm args' →
          (operation.procedure installation).apply limit args s = .ok v t →
          (operation.procedure installation).apply limit args' s = .ok v t) ∧
        ∀ args ms ns limit, args.Perm (ms ++ ns) → ms ≠ [] → ns ≠ [] → (∀ v ∈ args, v.IsNumber) →
          ∃ x y z, (operation.procedure installation).apply limit ms s = .ok x s ∧
            (operation.procedure installation).apply limit ns s = .ok y s ∧
            (operation.procedure installation).apply limit args s = .ok z s ∧
            (operation.procedure installation).apply limit [x, y] s = .ok z s)) ∧
    ∀ (a b : Int) (limit : Nat), b ≠ 0 → ∃ q r : Int,
      (quotient.procedure installation).apply limit [.number a, .number b] s = .ok (.number q) s ∧
      (modulo.procedure installation).apply limit [.number a, .number b] s = .ok (.number r) s ∧
      b * q + r = a ∧ (r = 0 ∨ r.sign = b.sign) ∧ |r| < |b| := by
  refine ⟨rfl, rfl, fun operation => ⟨by cases operation <;> decide,
    by cases operation <;> cases channel <;> rfl, ?_, ?_,
    fun limit => apply_nil operation installation limit s, ?_, ?_, fun hcommutes => ⟨?_, ?_⟩⟩, ?_⟩
  · refine fun args limit => ⟨fun ⟨n, t, hok⟩ => arguments_of_ok hok, ?_⟩
    rintro ⟨hne, hnumbers, hzero⟩
    obtain ⟨n, ns, rfl⟩ := Value.exists_numbers_cons hne hnumbers
    have hns : operation.Divides → 0 ∉ ns := fun hdivides hmem =>
      hzero hdivides (List.mem_map_of_mem hmem)
    exact ⟨_, _, apply_numbers hns installation limit n s⟩
  · exact fun n ns limit h => apply_numbers h installation limit n s
  · intro before v after hbefore hv
    obtain ⟨ns, rfl⟩ := Value.exists_numbers hbefore
    exact settles_apply operation installation s ns hv after
  · exact fun n ns limit hdivides hzero => apply_zero hdivides hzero installation limit n s
  · exact fun args args' limit v t hperm hok => apply_perm hcommutes hperm hok
  · exact fun args ms ns limit hperm hms hns hnumbers =>
      apply_split hcommutes installation limit s hperm hms hns hnumbers
  · intro a b limit hb
    have hdivisor {operation : Arithmetic} : operation.Divides → (0 : Int) ∉ [b] :=
      fun _ hmem => hb (List.mem_singleton.mp hmem).symm
    obtain ⟨hsign, hsmall⟩ := fmod_cases a hb
    exact ⟨a.fdiv b, a.fmod b, apply_numbers hdivisor installation limit a s,
      apply_numbers hdivisor installation limit a s, Int.mul_fdiv_add_fmod a b, hsign, hsmall⟩

/-- Two numbers in both orders, a number and a truth value after a zero divisor, a zero divisor, and
a division of a negative number. -/
theorem folds_mixed :
    (∀ limit, (add.procedure 0).apply limit [.number 7, .number 5] .empty =
      .ok (.number 12) .empty) ∧
    (∀ limit, (add.procedure 0).apply limit [.number 5, .number 7] .empty =
      .ok (.number 12) .empty) ∧
    Settles .empty ((quotient.procedure 0).apply · [.number 1, .number 0, .bool true])
      (.error (.builtin (some "quotient") (.notNumber "#t")) .empty) ∧
    (∀ limit, (quotient.procedure 0).apply limit [.number 1, .number 0] .empty =
      .error (.builtin (some "quotient") .divisionByZero) .empty) ∧
    ∀ limit, ∃ q r : Int,
      (quotient.procedure 0).apply limit [.number (-7), .number 2] .empty = .ok (.number q) .empty ∧
      (modulo.procedure 0).apply limit [.number (-7), .number 2] .empty = .ok (.number r) .empty ∧
      2 * q + r = -7 ∧ (r = 0 ∨ r.sign = Int.sign 2) ∧ |r| < |2| := by
  obtain ⟨-, -, hfolds, hdivision⟩ := folds .standard 0 .empty
  obtain ⟨-, -, -, hsum, -, -, -, hcommutes⟩ := hfolds add
  obtain ⟨hperm, -⟩ := hcommutes (.inl rfl)
  obtain ⟨-, -, -, -, -, hdown, hzero, -⟩ := hfolds quotient
  have htwelve (limit : Nat) : (add.procedure 0).apply limit [.number 7, .number 5] .empty =
      .ok (.number 12) .empty :=
    hsum 7 [5] limit fun _ => by decide
  refine ⟨htwelve, fun limit => ?_, ?_, fun limit => ?_, fun limit => ?_⟩
  · exact hperm _ _ limit _ _ (List.Perm.swap _ _ _) (htwelve limit)
  · have hnumbers : ∀ u ∈ [1, 0].map Value.number, u.IsNumber := fun u =>
      Value.isNumber_of_mem_map
    have htrue : ¬Value.IsNumber (.bool true) := by rintro ⟨n, ⟨⟩⟩
    obtain ⟨e, hdown, hsettles⟩ := hdown _ (.bool true) [] hnumbers htrue
    have hshown : Store.empty.render 1 (.bool true) = .ok "#t" := by decide +kernel
    rw [hdown.eq_complain (by decide) hshown] at hsettles
    exact hsettles
  · exact hzero 1 [0] limit (.inl rfl) (by decide)
  · exact hdivision (-7) 2 limit (by decide)

end Arithmetic

end SmallScheme
