import SmallScheme.Proofs.Separation
import SmallScheme.Proofs.Session

/-!
# Programs cannot rewrite themselves

The cells that are read as program text are those of the expressions that the evaluator is called
for, among them what derived forms expand to, and those of the bodies of closures; the operand of a
quotation is no text (`Store.TextOf`).  In a session such a cell always has the same content, from
the moment when it was made, whatever the program writes into its data (`text_kept`).  So every
chain of text is finite, and looking for its end finds it.
-/

namespace SmallScheme

namespace Store

/-- The cell is read as program text when the value is looked at in its role. -/
inductive TextOf (s : Store) : Role → Value → CellId → Prop
  | here {r : Role} {c : CellId} : r ≠ .data → TextOf s r (.pair c) c
  | car {r : Role} {c d : CellId} : TextOf s (r.refine (s.cell c).car).first (s.cell c).car d →
      TextOf s r (.pair c) d
  | cdr {r : Role} {c d : CellId} : TextOf s (r.refine (s.cell c).car).rest (s.cell c).cdr d →
      TextOf s r (.pair c) d

end Store

namespace Interpreter

/-- At some moment of the session, with the given store, the cell is text: of an expression that the
evaluator is called for, or of the body of a closure. -/
inductive IsText (i : Interpreter) (requests : List Request) (s : Store) : Store → CellId → Prop
  | called {limit : Nat} {call : Call} {c : CellId} : i.SessionCall requests s limit call →
      call.store.TextOf .expr call.expr c → IsText i requests s call.store c
  | held {t : Store} {k : ClosureId} {form : Value} {c : CellId} : i.Snapshot requests s t →
      form ∈ (t.closure k).body → t.TextOf .expr form c → IsText i requests s t c

end Interpreter

namespace TextMap

variable {m : TextMap} {s : Store} {r : Role} {v : Value} {c : CellId}

/-- What is read as text is text. -/
lemma Fits.of_textOf (hs : m.Separated s) (hv : m.Fits r v) (h : s.TextOf r v c) :
    ∃ r', r' ≠ .data ∧ m.Fits r' (.pair c) := by
  induction h with
  | @here r c hr => exact ⟨r, hr, hv⟩
  | @car r c d _ ih =>
    have hcell := separation.good_refine hs hv
    exact ih (separation.good_car hs hcell (r.refine_ne_expr _))
  | @cdr r c d _ ih =>
    have hcell := separation.good_refine hs hv
    exact ih (separation.good_cdr hs hcell (r.refine_ne_expr _))

/-! ## New interpreters -/

lemma ensures_install {library : Library} (f : FrameId) :
    separation.Ensures m (library.install f) fun _ _ => True := by
  unfold Library.install
  split
  · have hthrow : separation.Ensures m (throw .emptyName : Effect PUnit) fun _ _ => False :=
      Discipline.ensures_throw trivial
    exact hthrow.bind fun _ _ _ h => h.elim
  · refine Discipline.ensures_modify fun s hs => ⟨m, .refl m, ?_⟩
    show m.Separated { s.defineAll f _ with installations := s.installations + 1 }
    refine (hs.defineAll f fun b hb => ?_).of_cells_eq rfl (fun _ _ => .inl) fun _ _ => .inl
    obtain ⟨entry, -, rfl⟩ := List.mem_map.mp hb
    exact .leaf fun _ h => nomatch h

/-- A new interpreter has no text. -/
lemma exists_separated_new {library : Library} {mode : Mode} {announced : Bool} {limit : Nat}
    {i : Interpreter} (h : Interpreter.new library mode announced limit .empty = .ok i s) :
    ∃ m : TextMap, m.Separated s := by
  have hnew : separation.Ensures empty (Interpreter.new library mode announced limit)
      fun _ _ => True := by
    unfold Interpreter.new
    have hframe : separation.Ensures empty (modifyGet fun s : Store => s.addFrame [] none)
        fun _ _ => True :=
      Discipline.ensures_modifyGet fun s hs =>
        ⟨empty, .refl empty, hs.addFrame none (List.forall_mem_nil _), trivial⟩
    refine hframe.bind fun _ f _ _ => (ensures_install f).bind fun _ _ _ _ => ?_
    exact Discipline.ensures_pure trivial
  obtain ⟨m, -, hout⟩ := hnew .empty separated_empty
  rw [h] at hout
  exact ⟨m, hout.1⟩

end TextMap

/-! ## Text is kept -/

namespace Interpreter

variable {i : Interpreter} {requests : List Request} {s t t' : Store} {c : CellId}

/-- **Programs cannot rewrite themselves.**  A cell that is read as text at one moment of a session
has the same content at every moment at which it is there.  The chain that starts at such a cell is
finite and has no cycle, and looking for its members finds them. -/
theorem text_kept {library : Library} {mode : Mode} {announced : Bool} {limit : Nat}
    (hnew : Interpreter.new library mode announced limit .empty = .ok i s)
    (hc : i.IsText requests s t c) (ht' : i.Snapshot requests s t') (hlt : c < t'.cells.size) :
    t'.cell c = t.cell c ∧
      ∃ cs last, t'.Spine (.pair c) cs last ∧ cs.Nodup ∧
        t'.chain? (.pair c) = some (cs.map fun d => (t'.cell d).car, last) := by
  obtain ⟨m, hs⟩ := TextMap.exists_separated_new hnew
  obtain ⟨m', -, hcalls, hsnapshots⟩ :=
    Discipline.exists_session (D := TextMap.separation) (i := i) (fun _ => trivial) requests hs trivial
  -- the cell is text in the world of the store in which it is read
  have htext : ∃ m₁ : TextMap, m₁.Le m' ∧ m₁.Separated t ∧
      ∃ r, r ≠ .data ∧ m₁.Fits r (.pair c) := by
    cases hc with
    | called hcall htext =>
      obtain ⟨m₁, m₂, -, hmeets, hle, -, hle'⟩ := hcalls _ _ hcall
      exact ⟨m₁, hle.trans hle', hmeets.holds, hmeets.expr.of_textOf hmeets.holds htext⟩
    | held ht hform htext =>
      obtain ⟨m₁, -, hs₁, hle⟩ := hsnapshots t ht
      exact ⟨m₁, hle, hs₁, (hs₁.body _ _ hform).of_textOf hs₁ htext⟩
  obtain ⟨m₁, hle₁, hs₁, r, hr, hfits⟩ := htext
  obtain ⟨m₂, -, hs₂, hle₂⟩ := hsnapshots t' ht'
  obtain ⟨cell, hcell, -, -⟩ := hfits.text_inv hr
  have hlt₂ : c < m₂.size := hs₂.size_eq ▸ hlt
  -- both worlds are earlier than the one of the end, where the cell is the same
  have hcell₂ : m₂.text c = some cell := by
    rw [← hle₂.text_eq c hlt₂]
    exact hle₁.text_of_text hcell
  refine ⟨?_, ?_⟩
  · rw [hs₂.text_eq c cell hcell₂, hs₁.text_eq c cell hcell]
  · have hspine := (hfits.mono hle₁).exists_spine hr hle₂ hs₂ fun d hd => ?_
    · obtain ⟨cs, last, hspine⟩ := hspine
      exact ⟨cs, last, hspine, hspine.nodup, hspine.chain?_eq⟩
    · cases hd
      exact hlt₂

/-- A procedure is defined that gives a quoted list. -/
def quoting : Request := .run "(define (f) '(1 2))".toList

/-- The definition as a datum. -/
def quotingDatum : Datum :=
  .ofList [.symbol ⟨"define"⟩, .ofList [.symbol ⟨"f"⟩] .nil,
    (Datum.ofList [.atom (.number 1), .atom (.number 2)] .nil).quoted] .nil

/-- The quoted list is written into. -/
def writing : Request := .eval "(set-car! (f) 9)".toList

/-- The quoted list becomes `(9 2)`, but the quotation and the definition stay as they are. -/
theorem text_kept_quoting : ∃ t t',
    Interpreter.new (.standard .standard) .plain false 30 .empty = .ok small smallStart ∧
    small.Snapshot [quoting, writing] smallStart t ∧
    small.Snapshot [quoting, writing] smallStart t' ∧
    (t.cell 2).car = .number 1 ∧ (t'.cell 2).car = .number 9 ∧
    t'.cell 4 = t.cell 4 ∧ t'.cell 7 = (smallStart.loadAll [quotingDatum]).2.cell 7 := by
  have hnew : Interpreter.new (.standard .standard) .plain false 30 .empty =
      .ok small smallStart := rfl
  have ht : small.Snapshot [quoting, writing] smallStart (small.after smallStart quoting) :=
    .later (.start _ _)
  have ht' : small.Snapshot [quoting, writing] smallStart
      (small.after (small.after smallStart quoting) writing) := .later (.later (.start _ _))
  refine ⟨_, _, hnew, ht, ht', by decide +kernel, by decide +kernel, ?_, ?_⟩
  · have hbody : .pair 4 ∈ ((small.after smallStart quoting).closure 0).body := by decide +kernel
    exact (text_kept hnew (.held ht hbody (.here (by decide))) ht' (by decide +kernel)).1
  · have hread : read small.limit quoting.text = .ok [quotingDatum] := by decide +kernel
    have hcall := sessionCall_first [writing] smallStart rfl hread
    exact (text_kept hnew (.called hcall (.here (by decide))) ht' (by decide +kernel)).1

end Interpreter

end SmallScheme
