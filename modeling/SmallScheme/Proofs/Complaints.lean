import SmallScheme.Library
import SmallScheme.Proofs.AllOrNothing

/-!
# By which name a native procedure complains

A native procedure that refuses its arguments complains under the title of what it does
(`Primitive.Refuses.owner_eq`).  In the standard library this is the name that it is registered by, with
one exception (`Library.title_standard`): one primitive is registered by two names, `eq?` and `eqv?`, and
it always calls itself `eqv?`.

The main result is `Library.complaints_named`.  Where a program has used `eq?`, the complaint names another
procedure (`Library.misnamed`).
-/

namespace SmallScheme

/-- A complaint of a procedure that has a name starts with this name. -/
lemma Error.message_builtin {name : String} (hname : name ≠ "") (complaint : Complaint) :
    (Error.builtin (some name) complaint).message = name ++ ": " ++ complaint.message := by
  have htelling : (Detail.text name).isTelling = true := by simpa [Detail.isTelling] using hname
  have hmessage : (Error.builtin (some name) complaint).message =
      if (Detail.text name).isTelling then name ++ ": " ++ complaint.message
      else complaint.message := rfl
  rw [hmessage, if_pos htelling]

namespace Primitive

variable {s : Store} {p : Primitive} {args : List Value}

/-- Only a procedure of an embedding program has no title. -/
lemma title_ne_empty (hp : p.isForeign = false) : p.title ≠ "" := by
  cases p with
  | foreign => cases hp
  | arithmetic operation => cases operation <;> decide
  | comparison relation => cases relation <;> decide
  | _ => exact of_decide_eq_true rfl

lemma Refuses.owner_eq {owner : Option String} {complaint : Complaint}
    (h : p.Refuses s args (.builtin owner complaint)) : owner = some p.title := by
  generalize he : Error.builtin owner complaint = e at h
  cases h with
  | complains =>
    cases he
    rfl
  | tooManyDigits => cases he

end Primitive

/-- A native procedure that complains in a program goes by its title. -/
lemma Builtin.owner_eq_of_apply {b : Builtin} {limit : Nat} {args : List Value} {s t : Store}
    {owner : Option String} {complaint : Complaint} (hb : b.primitive.isForeign = false)
    (h : b.apply limit args s = .error (.builtin owner complaint) t) :
    owner = some b.primitive.title := by
  obtain ⟨r, hr, hout⟩ := Primitive.answers_run hb s args
  rcases (settles_apply hr hout).of_any limit with hsame | hdeep
  · rw [hsame] at h
    subst h
    cases hout with
    | refuses he => exact he.owner_eq
  · cases hdeep.symm.trans h

namespace Library

lemma mem_of_get? {l : Library} {name : String} {p : Primitive} (h : l.get? name = some p) :
    (name, p) ∈ l.entries := by
  obtain ⟨entry, hfound, rfl⟩ := Option.map_eq_some_iff.mp h
  have hname : entry.1 = name := by simpa using List.find?_some hfound
  exact hname ▸ List.mem_of_find?_eq_some hfound

/-- A procedure of the standard library has the title that it is registered by, except for `eq?`. -/
lemma title_standard (channel : Channel) :
    ∀ entry ∈ (standard channel).entries,
      entry.2.title = if entry.1 = "eq?" then "eqv?" else entry.1 := by
  cases channel <;> decide

/-- **Complaints name the procedure**, except for `eq?`.  Whichever procedure of the standard library
is applied, and to whatever arguments: if it complains, then under the name that it is registered by,
and this name and a colon are what the message starts with.  But `eq?` complains as `eqv?`. -/
theorem complaints_named {channel : Channel} {name : String} {p : Primitive}
    (hname : (standard channel).get? name = some p) (installation limit : Nat) (args : List Value)
    {s t : Store} {owner : Option String} {complaint : Complaint}
    (h : Builtin.apply limit ⟨name, p, installation⟩ args s = .error (.builtin owner complaint) t) :
    owner = some (if name = "eq?" then "eqv?" else name) ∧
    (Error.builtin owner complaint).message =
      (if name = "eq?" then "eqv?" else name) ++ ": " ++ complaint.message := by
  have hmem : (name, p) ∈ (standard channel).entries := mem_of_get? hname
  have hp : p.isForeign = false := native_standard channel _ hmem
  have htitle : p.title = if name = "eq?" then "eqv?" else name := title_standard channel _ hmem
  obtain rfl : owner = some p.title :=
    Builtin.owner_eq_of_apply (b := ⟨name, p, installation⟩) hp h
  rw [Error.message_builtin (Primitive.title_ne_empty hp), htitle]
  exact ⟨rfl, rfl⟩

/-- A truth value cannot be added to a number. -/
theorem complaints_named_plus :
    (standard .standard).get? "+" = some (.arithmetic .add) ∧
    Builtin.apply 1 ⟨"+", .arithmetic .add, 0⟩ [.number 1, .bool true] .empty =
      .error (.builtin (some "+") (.notNumber "#t")) .empty ∧
    (Error.builtin (some "+") (.notNumber "#t")).message = "+: expected a number, got #t" := by
  have hname : (standard .standard).get? "+" = some (.arithmetic .add) := rfl
  have hcomplains : Builtin.apply 1 ⟨"+", .arithmetic .add, 0⟩ [.number 1, .bool true] .empty =
      .error (.builtin (some "+") (.notNumber "#t")) .empty := rfl
  obtain ⟨-, hmessage⟩ := complaints_named hname 0 1 _ hcomplains
  exact ⟨hname, hcomplains, hmessage⟩

/-- Not every complaint names the procedure: with one argument, `eq?` complains under another name. -/
theorem misnamed : ¬∀ (channel : Channel) (name : String) (p : Primitive) (installation limit : Nat)
    (args : List Value) (s t : Store) (owner : Option String) (complaint : Complaint),
    (standard channel).get? name = some p →
    Builtin.apply limit ⟨name, p, installation⟩ args s = .error (.builtin owner complaint) t →
    owner = some name := by
  intro h
  have hname : some "eqv?" = some "eq?" :=
    h .standard "eq?" .same 0 1 [.number 1] .empty .empty (some "eqv?") (.tooFew 2 1) rfl rfl
  revert hname
  decide

end Library

end SmallScheme
