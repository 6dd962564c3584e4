import SmallScheme.Proofs.Actions
import SmallScheme.Proofs.Encapsulation
import SmallScheme.Proofs.Imitation
import SmallScheme.Proofs.Nesting

/-!
# Fresh nodes

Two runs that begin in one store may add other nodes to it.  Their stores are the same up to nodes that
nobody can reach if the second one mirrors the first one: it has all its nodes, under other numbers,
and from these none of its other nodes can be reached (`Store.Mirrors`).  The nodes that were there at
the beginning keep their numbers (`UpToFresh`).

A store to which nodes are added that nothing mentions is the second store of a replication, in which
all later numbers are shifted (`Store.holds_shifted`).
-/

namespace SmallScheme

/-- The number of a node in another store. -/
def Renaming.node (ρ : Renaming) : Node → Node
  | .cell c => .cell (ρ.cell c)
  | .frame f => .frame f
  | .closure k => .closure (ρ.closure k)

lemma Renaming.node?_value (ρ : Renaming) (v : Value) : (ρ.value v).node? = v.node?.map ρ.node := by
  cases v <;> rfl

namespace Store

variable {ρ : Renaming} {s t : Store} {n : Node}

/-- The second store has the nodes of the first one, under other numbers, and from these nothing else
can be reached.  In everything else both are the same. -/
structure Mirrors (ρ : Renaming) (s t : Store) : Prop where
  has_iff : ∀ n, t.extent.Has (ρ.node n) ↔ s.extent.Has n
  cell : ∀ c, t.cell (ρ.cell c) = ρ.onCell (s.cell c)
  closure : ∀ k, t.closure (ρ.closure k) = ρ.onClosure (s.closure k)
  frame : ∀ f, t.frame f = ρ.onFrame (s.frame f)
  unreachable : ∀ n, (∀ m, s.extent.Has m → n ≠ ρ.node m) → t.extent.Has n →
    ¬t.ReachableFrom (fun root => ∃ m, s.extent.Has m ∧ root = ρ.node m) n
  printed : t.printed = s.printed
  events : t.events = s.events
  foreigns : t.foreigns = s.foreigns
  installations : t.installations = s.installations

end Store

/-- Both runs end in the same value or error and in the same store, up to nodes that only one of them
has added and that nobody can reach.  The nodes with which they began keep their numbers. -/
inductive UpToFresh (start : Store) :
    EStateM.Result Error Store Value → EStateM.Result Error Store Value → Prop
  | ok {ρ : Renaming} {v : Value} {s t : Store} : (∀ n, start.extent.Has n → ρ.node n = n) →
      s.Mirrors ρ t → UpToFresh start (.ok v s) (.ok (ρ.value v) t)
  | error {ρ : Renaming} {e : Error} {s t : Store} : (∀ n, start.extent.Has n → ρ.node n = n) →
      s.Mirrors ρ t → UpToFresh start (.error e s) (.error e t)

/-! ## Mirrors of replications -/

section Mirrors

variable {ρ : Renaming} {s t : Store} {m n : Node}

/-- What is mentioned in the other store corresponds to what is mentioned in the first one. -/
lemma exists_leads (hcell : ∀ c, t.cell (ρ.cell c) = ρ.onCell (s.cell c))
    (hclosure : ∀ k, t.closure (ρ.closure k) = ρ.onClosure (s.closure k))
    (hframe : ∀ f, t.frame f = ρ.onFrame (s.frame f)) (h : t.Leads (ρ.node m) n) :
    ∃ m', n = ρ.node m' := by
  have hnode {v : Value} (hv : (ρ.value v).node? = some n) : ∃ m', n = ρ.node m' := by
    rw [ρ.node?_value] at hv
    obtain ⟨m', -, hm'⟩ := Option.map_eq_some_iff.mp hv
    exact ⟨m', hm'.symm⟩
  cases m with
  | cell c =>
    cases h with
    | car hn => exact hnode (by rwa [hcell] at hn)
    | cdr hn => exact hnode (by rwa [hcell] at hn)
  | frame f =>
    cases h with
    | @binding _ b _ hb hn =>
      rw [hframe] at hb
      obtain ⟨b', -, rfl⟩ := List.mem_map.mp hb
      exact hnode hn
    | outer hg => exact ⟨.frame _, rfl⟩
  | closure k =>
    cases h with
    | env => exact ⟨.frame _, rfl⟩
    | @body _ form _ hform hn =>
      rw [hclosure] at hform
      obtain ⟨form', -, rfl⟩ := List.mem_map.mp hform
      exact hnode hn

/-- **The second store of a replication mirrors the first one**, if both have begun with the same
output. -/
theorem Replication.Holds.mirrors {R : Replication} (h : R.Holds s t)
    (hprinted : R.second.printed = R.first.printed) : s.Mirrors R.toRenaming t where
  has_iff n := by
    cases n with
    | cell c => exact h.cell_lt_iff c
    | frame f =>
      show f < t.frames.size ↔ f < s.frames.size
      rw [h.framesSize]
    | closure k => exact h.closure_lt_iff k
  cell := h.cell
  closure := h.closure
  frame := h.frame
  unreachable n hother hn := by
    rintro ⟨root, ⟨m, hm, rfl⟩, hpath⟩
    have himage : ∃ m', n = R.node m' := by
      clear hn hother
      induction hpath with
      | refl => exact ⟨m, rfl⟩
      | tail _ hlead ih =>
        obtain ⟨m', rfl⟩ := ih
        exact exists_leads h.cell h.closure h.frame hlead
    obtain ⟨m', rfl⟩ := himage
    refine hother m' ?_ rfl
    cases m' with
    | cell c => exact (h.cell_lt_iff c).mp hn
    | frame f => exact lt_of_lt_of_eq hn h.framesSize
    | closure k => exact (h.closure_lt_iff k).mp hn
  printed := by
    obtain ⟨later, hs, ht⟩ := h.printed
    rw [hs, ht, hprinted]
  events := h.events
  foreigns := h.foreigns
  installations := h.installations

end Mirrors

/-! ## Stores with fresh nodes -/

/-- The second store has all that the first one has, and further cells and closures.  Nothing else has
happened. -/
structure Store.AddsFresh (s t : Store) : Prop where
  cells : s.Extends t
  closures_le : s.closures.size ≤ t.closures.size
  closure_eq : ∀ k < s.closures.size, t.closure k = s.closure k
  frames : t.frames = s.frames
  printed : t.printed = s.printed
  events : t.events = s.events
  foreigns : t.foreigns = s.foreigns
  installations : t.installations = s.installations

namespace Store.AddsFresh

variable {s t u : Store}

lemma refl (s : Store) : s.AddsFresh s :=
  ⟨.refl s, le_rfl, fun _ _ => rfl, rfl, rfl, rfl, rfl, rfl⟩

lemma trans (h : s.AddsFresh t) (h' : t.AddsFresh u) : s.AddsFresh u where
  cells := h.cells.trans h'.cells
  closures_le := h.closures_le.trans h'.closures_le
  closure_eq k hk := (h'.closure_eq k (hk.trans_le h.closures_le)).trans (h.closure_eq k hk)
  frames := h'.frames.trans h.frames
  printed := h'.printed.trans h.printed
  events := h'.events.trans h.events
  foreigns := h'.foreigns.trans h.foreigns
  installations := h'.installations.trans h.installations

end Store.AddsFresh

namespace Store

variable {s t : Store}

lemma addsFresh_cons (car cdr : Value) (s : Store) : s.AddsFresh (s.cons car cdr).2 :=
  ⟨extends_cons car cdr s, le_rfl, fun _ _ => rfl, rfl, rfl, rfl, rfl, rfl⟩

lemma addsFresh_chain (vs : List Value) (last : Value) (s : Store) :
    s.AddsFresh (s.chain vs last).2 := by
  induction vs with
  | nil => exact .refl s
  | cons v vs ih => exact ih.trans (addsFresh_cons _ _ _)

/-- A new list with a first member is a pair. -/
lemma exists_newList (v : Value) (vs : List Value) (s : Store) :
    ∃ d t, Derived.newList (v :: vs) s = .ok (.pair d) t ∧ s.AddsFresh t ∧
      t.ListIn (s.cells.size ≤ ·) (.pair d) (v :: vs) :=
  ⟨(s.list vs).2.cells.size, (s.list (v :: vs)).2, rfl, addsFresh_chain (v :: vs) .nil s,
    listIn_list (v :: vs) s⟩

lemma addsFresh_addClosure (closure : Closure) (s : Store) :
    s.AddsFresh (s.addClosure closure).2 where
  cells := ⟨le_rfl, fun _ _ => rfl⟩
  closures_le := by simp [addClosure]
  closure_eq k hk := closure_addClosure_of_lt closure hk
  frames := rfl
  printed := rfl
  events := rfl
  foreigns := rfl
  installations := rfl

lemma shift_injective (n k : Nat) : Function.Injective fun c : Nat => if c < n then c else c + k := by
  intro c d h
  dsimp only at h
  split at h <;> split at h <;> omega

lemma shift_next {m n : Nat} (hle : n ≤ m) (i : Nat) :
    (if n + i < n then n + i else n + i + (m - n)) = m + i := by
  rw [if_neg (by omega)]
  omega

lemma shift_ne {d m n : Nat} (hle : n ≤ d) (hlt : d < m) (c : Nat) :
    (if c < n then c else c + (m - n)) ≠ d := by
  split <;> omega

/-- The numbers after the addition of nodes: those of older nodes stay, and the others are higher. -/
def shift (s t : Store) : Renaming where
  cell c := if c < s.cells.size then c else c + (t.cells.size - s.cells.size)
  closure k := if k < s.closures.size then k else k + (t.closures.size - s.closures.size)
  cell_injective := shift_injective _ _
  closure_injective := shift_injective _ _

/-- A run in a store and its repetition after the addition of nodes. -/
def shifted (s t : Store) : Replication :=
  { s.shift t with first := s, second := t }

lemma shift_node (t : Store) {n : Node} (hn : s.extent.Has n) : (s.shift t).node n = n := by
  cases n with
  | cell c => exact congrArg Node.cell (if_pos hn)
  | frame f => rfl
  | closure k => exact congrArg Node.closure (if_pos hn)

/-- Values that were there keep their numbers. -/
lemma shift_value (t : Store) {v : Value} (hv : s.Knows v) : (s.shift t).value v = v := by
  cases v with
  | pair c => exact congrArg Value.pair (if_pos (hv (.cell c) rfl))
  | closure k => exact congrArg Value.closure (if_pos (hv (.closure k) rfl))
  | _ => rfl

lemma map_shift_value (t : Store) {vs : List Value} (hvs : ∀ v ∈ vs, s.Knows v) :
    vs.map (s.shift t).value = vs :=
  (List.map_congr_left fun v hv => shift_value t (hvs v hv)).trans (List.map_id vs)

/-- In a well-formed store everything that is mentioned is there. -/
lemma WellFormed.knows_car (h : s.WellFormed) (c : CellId) : s.Knows (s.cell c).car := by
  intro n hn
  rcases Nat.lt_or_ge c s.cells.size with hc | hc
  · exact h (.cell c) n hc (.car hn)
  · rw [cell_of_size_le hc] at hn
    cases hn

lemma WellFormed.knows_cdr (h : s.WellFormed) (c : CellId) : s.Knows (s.cell c).cdr := by
  intro n hn
  rcases Nat.lt_or_ge c s.cells.size with hc | hc
  · exact h (.cell c) n hc (.cdr hn)
  · rw [cell_of_size_le hc] at hn
    cases hn

lemma WellFormed.knows_binding (h : s.WellFormed) {f : FrameId} {b : Symbol × Value}
    (hb : b ∈ (s.frame f).bindings) : s.Knows b.2 := by
  intro n hn
  rcases Nat.lt_or_ge f s.frames.size with hf | hf
  · exact h (.frame f) n hf (.binding hb hn)
  · rw [frame_of_size_le hf] at hb
    cases hb

lemma WellFormed.knows_body (h : s.WellFormed) {k : ClosureId} {form : Value}
    (hform : form ∈ (s.closure k).body) : s.Knows form := by
  intro n hn
  rcases Nat.lt_or_ge k s.closures.size with hk | hk
  · exact h (.closure k) n hk (.body hform hn)
  · rw [closure_of_size_le hk] at hform
    cases hform

/-- A datum that is loaded mentions nothing but what is loaded with it. -/
lemma WellFormed.load (h : s.WellFormed) (d : Datum) : (s.load d).2.WellFormed := by
  obtain ⟨w, -, hw, -⟩ := Discipline.exists_load (encapsulated_whole_iff.mpr ⟨rfl, h⟩) .expr d
  exact (encapsulated_whole_iff.mp hw).2

/-- **Fresh nodes make no difference**: the store with them is the second one of a replication. -/
theorem holds_shifted (hs : s.WellFormed) (h : s.AddsFresh t) : (s.shifted t).Holds s t where
  closed := hs.closed
  cell c := by
    have hcar : (s.shift t).value (s.cell c).car = (s.cell c).car := shift_value t (hs.knows_car c)
    have hcdr : (s.shift t).value (s.cell c).cdr = (s.cell c).cdr := shift_value t (hs.knows_cdr c)
    have hcell : (s.shift t).onCell (s.cell c) = s.cell c := congrArg₂ Cell.mk hcar hcdr
    rw [shifted, hcell]
    by_cases hc : c < s.cells.size
    · rw [show (s.shift t).cell c = c from if_pos hc, h.cells.cell_eq c hc]
    · have hle := h.cells.size_le
      have hnew : t.cells.size ≤ (s.shift t).cell c := by
        rw [show (s.shift t).cell c = c + (t.cells.size - s.cells.size) from if_neg hc]
        rw [not_lt] at hc
        exact (Nat.add_sub_cancel' hle).symm.le.trans (Nat.add_le_add_right hc _)
      rw [cell_of_size_le hnew, cell_of_size_le (not_lt.mp hc)]
  nextCell := shift_next h.cells.size_le
  otherCell _ _ := rfl
  closure k := by
    have hbody : (s.closure k).body.map (s.shift t).value = (s.closure k).body :=
      map_shift_value t fun _ hform => hs.knows_body hform
    have hclosure : (s.shift t).onClosure (s.closure k) = s.closure k := by
      rw [Renaming.onClosure, hbody]
    rw [shifted, hclosure]
    by_cases hk : k < s.closures.size
    · rw [show (s.shift t).closure k = k from if_pos hk, h.closure_eq k hk]
    · have hle := h.closures_le
      have hnew : t.closures.size ≤ (s.shift t).closure k := by
        rw [show (s.shift t).closure k = k + (t.closures.size - s.closures.size) from if_neg hk]
        rw [not_lt] at hk
        exact (Nat.add_sub_cancel' hle).symm.le.trans (Nat.add_le_add_right hk _)
      rw [closure_of_size_le hnew, closure_of_size_le (not_lt.mp hk)]
  nextClosure := shift_next h.closures_le
  otherClosure _ _ := rfl
  frame f := by
    have hframe : t.frame f = s.frame f := by rw [frame, frame, h.frames]
    have hbindings : (s.shift t).onBindings (s.frame f).bindings = (s.frame f).bindings :=
      (List.map_congr_left fun b hb =>
        congrArg (Prod.mk b.1) (shift_value t (hs.knows_binding hb))).trans (List.map_id _)
    rw [shifted, hframe, Renaming.onFrame, hbindings]
  framesSize := by rw [h.frames]
  printed := ⟨#[], by simp [shifted], by simp [shifted]⟩
  events := h.events
  foreigns := h.foreigns
  installations := h.installations

/-- New cells are hidden. -/
lemma hides_of_fresh {d : CellId} (hd : s.cells.size ≤ d) (hlt : d < t.cells.size) :
    (s.shifted t).Hides d :=
  fun c => shift_ne hd hlt c

lemma copies_known (t : Store) {v : Value} (hv : s.Knows v) :
    (s.shifted t).Copies s.cells.size v v :=
  ⟨(shift_value t hv).symm, Value.within_of_node? fun c hc => hv (.cell c) hc⟩

lemma copiesAll_known (t : Store) {vs : List Value} (hvs : ∀ v ∈ vs, s.Knows v) :
    (s.shifted t).CopiesAll s.cells.size vs vs :=
  ⟨(map_shift_value t hvs).symm, fun v hv => (copies_known t (hvs v hv)).2⟩

/-- The members of a list are known. -/
lemma WellFormed.knows_of_list? (h : s.WellFormed) {v : Value} {members : List Value}
    (hlist : s.list? v = some members) : ∀ w ∈ members, s.Knows w := by
  intro w hw
  obtain ⟨c, rfl⟩ := exists_car_of_list? hlist hw
  exact h.knows_car c

end Store

/-! ## What expressions mean -/

/-- From the second store, the expression ends as the procedure does from the first one, up to fresh
nodes, and only if the procedure ends. -/
structure Means (mode : Mode) (x : Evaluator → Effect Value) (s : Store) (expr : Value)
    (env : FrameId) (t : Store) : Prop where
  ends : ∀ r, EndsBy mode x s r → ∃ r', Ends mode expr env t r' ∧ UpToFresh s r r'
  procedure : ∀ r', Ends mode expr env t r' → ∃ r, EndsBy mode x s r ∧ UpToFresh s r r'

section Means

variable {s t t' : Store} {mode : Mode} {x y : Evaluator → Effect Value} {expr expr' : Value}
  {env : FrameId}

lemma UpToFresh.of_outcome {n : Nat} {r r' : EStateM.Result Error Store Value}
    (h : s.AddsFresh t) (hout : (s.shifted t).Outcome n (s.shifted t).Copies r r') :
    UpToFresh s r r' := by
  have hkeeps : ∀ n, s.extent.Has n → (s.shift t).node n = n := fun _ => s.shift_node t
  cases hout with
  | ok hs _ hv =>
    obtain ⟨rfl, -⟩ := hv
    exact .ok hkeeps (hs.mirrors h.printed)
  | error hs _ => exact .error hkeeps (hs.mirrors h.printed)

/-- An expression means a procedure if, after the addition of nodes, it ends like an imitation. -/
lemma Means.of_imitates (hs : s.WellFormed) (hfresh : s.AddsFresh t)
    (h : (s.shifted t).Imitates mode s.cells.size (s.shifted t).Copies x y)
    (hends : ∀ r, Ends mode expr env t' r ↔ EndsBy mode y t r) : Means mode x s expr env t' where
  ends r hr := by
    obtain ⟨r', hr', hout⟩ := h.imitation (Store.holds_shifted hs hfresh) le_rfl hr
    exact ⟨r', (hends r').mpr hr', .of_outcome hfresh hout⟩
  procedure r' hr' := by
    obtain ⟨r, hr, hout⟩ := h.original (Store.holds_shifted hs hfresh) le_rfl ((hends r').mp hr')
    exact ⟨r, hr, .of_outcome hfresh hout⟩

lemma Means.congr (h : Means mode x s expr env t)
    (hends : ∀ r, Ends mode expr' env t' r ↔ Ends mode expr env t r) :
    Means mode x s expr' env t' where
  ends r hr := (h.ends r hr).imp fun r' hr' => ⟨(hends r').mpr hr'.1, hr'.2⟩
  procedure r' hr' := h.procedure r' ((hends r').mp hr')

end Means

/-- The value in which a step has ended, if it has. -/
def Effect.value? {α : Type} : EStateM.Result Error Store α → Option α
  | .ok a _ => some a
  | .error _ _ => none

lemma Effect.eq_ok_of_value? {α : Type} {r : EStateM.Result Error Store α} {a : α}
    (h : value? r = some a) : r = .ok a (final r) := by
  cases r with
  | ok a' s =>
    cases h
    rfl
  | error e s => cases h

end SmallScheme
