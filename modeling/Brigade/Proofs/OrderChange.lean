/-
What one operation can do to an order, and so what a run can do.

`Order.Change o op o'` lists the ways in which `op` takes `o` to `o'`, one constructor for each operation, with the
conditions under which it is granted. `change_of_apply`: an operation that is granted is such a change. A relation that
every change keeps is kept along every run (`run_kept`).
-/
import Brigade.Proofs.First
import Brigade.Proofs.OrderSheet

namespace Brigade

namespace Order

/-- the ways in which an operation that is granted takes an order to another -/
inductive Change (o : Order) : Op → Order → Prop where
  | lineAdded (i m : Id) (q : Int32) (p : Decimal) (t : Option String) (total : Decimal) (pending : o.status = .pending)
      (quantity : 0 < q.toInt) (price : p.Positive) :
      Change o (.addLine i m q p t) { o with lines := o.lines ++ [⟨i, m, q, p, t⟩], total := total }
  | linesRemoved (i : Id) (total : Decimal) (pending : o.status = .pending) :
      Change o (.removeLine i) { o with lines := o.lines.filter (·.id != i), total := total }
  | quantitySet (i : Id) (q : Int32) (total : Decimal) (pending : o.status = .pending)
      (quantity : 0 < q.toInt ∨ ∀ l ∈ o.lines, l.id ≠ i) :
      Change o (.setQuantity i q)
        { o with lines := updateFirst (·.id == i) (fun l => { l with quantity := q }) o.lines, total := total }
  | noted (n : Option String) : Change o (.setNotes n) { o with notes := n }
  | moved (s : OrderStatus) (allowed : o.status.canMoveTo s = true) : Change o (.moveTo s) { o with status := s }
  | prepared (pending : o.status = .pending) : Change o .startPreparation { o with status := .preparing }
  | readied (preparing : o.status = .preparing) : Change o .markReady { o with status := .ready }
  | brought (ready : o.status = .ready) : Change o .serve { o with status := .served }
  | cancelled (unserved : o.status ≠ .served) : Change o .cancel { o with status := .cancelled }

variable {o o' : Order} {op : Op}

theorem setLines_eq_ok {ε : Type} {ls : List OrderLine} (h : (o.setLines ls : Outcome ε Order) = .ok o') :
    ∃ total, o' = { o with lines := ls, total := total } := by
  obtain ⟨total, -, h⟩ := Outcome.bind_eq_ok.1 h
  exact ⟨total, (Outcome.ok.inj h).symm⟩

theorem canBeModified_iff : o.canBeModified = true ↔ o.status = .pending := beq_iff_eq

theorem removeLine_eq_ok {i : Id} (h : o.removeLine i = .ok o') : Change o (.removeLine i) o' := by
  simp only [removeLine] at h
  split_ifs at h with hopen
  · obtain rfl := Outcome.ok.inj h
    exact .linesRemoved i o.total (canBeModified_iff.1 (by simpa using hopen))
  · obtain ⟨total, rfl⟩ := setLines_eq_ok h
    exact .linesRemoved i total (canBeModified_iff.1 (by simpa using hopen))

theorem setQuantity_eq_ok {i : Id} {q : Int32} (h : o.setQuantity i q = .ok o') : Change o (.setQuantity i q) o' := by
  unfold setQuantity at h
  split_ifs at h with hopen hnone hq
  · -- no line has the identity
    obtain rfl := Outcome.ok.inj h
    have hfind : o.lines.find? (·.id == i) = none := Option.isNone_iff_eq_none.1 hnone
    have hchange := Change.quantitySet (o := o) i q o.total (canBeModified_iff.1 (by simpa using hopen))
      (.inr (by simpa using hfind))
    rw [updateFirst_of_none hfind] at hchange
    exact hchange
  · obtain ⟨total, rfl⟩ := setLines_eq_ok h
    refine .quantitySet i q total (canBeModified_iff.1 (by simpa using hopen)) (.inl ?_)
    rw [Int32.le_iff_toInt_le] at hq
    exact Int.not_le.1 hq

/-- **What an operation can do.** An operation that is granted is one of the changes. -/
theorem change_of_apply (h : o.apply op = .ok o') : Change o op o' := by
  cases op with
  | addLine i m q p t =>
    simp only [apply, addLine] at h
    split_ifs at h with hopen
    obtain ⟨l, hl, h⟩ := Outcome.bind_eq_ok.1 h
    obtain ⟨hq, hp, rfl⟩ := OrderLine.make_eq_ok hl
    obtain ⟨total, rfl⟩ := setLines_eq_ok h
    exact .lineAdded i m q p t total (canBeModified_iff.1 (by simpa using hopen)) hq hp
  | removeLine i => exact removeLine_eq_ok h
  | setQuantity i q => exact setQuantity_eq_ok h
  | setNotes n =>
    obtain rfl := Outcome.ok.inj h
    exact .noted n
  | moveTo s =>
    simp only [apply, moveTo] at h
    split_ifs at h with hs
    obtain rfl := Outcome.ok.inj h
    exact .moved s hs
  | startPreparation =>
    simp only [apply, startPreparation] at h
    split_ifs at h with hs
    obtain rfl := Outcome.ok.inj h
    exact .prepared (not_not.1 hs)
  | markReady =>
    simp only [apply, markReady] at h
    split_ifs at h with hs
    obtain rfl := Outcome.ok.inj h
    exact .readied (not_not.1 hs)
  | serve =>
    simp only [apply, serve] at h
    split_ifs at h with hs
    obtain rfl := Outcome.ok.inj h
    exact .brought (not_not.1 hs)
  | cancel =>
    simp only [apply, cancel] at h
    split_ifs at h with hs
    obtain rfl := Outcome.ok.inj h
    exact .cancelled hs

/-! ## Runs -/

theorem step_eq_ok (h : o.step op = .ok o') : o' = o ∨ o.apply op = .ok o' :=
  Outcome.settle_eq_ok h

/-- what every change keeps, every run keeps -/
theorem run_kept {P : Order → Prop} {ops : List Op} (hchange : ∀ a op b, P a → Change a op b → P b) (h : P o)
    (hr : o.run ops = .ok o') : P o' := by
  induction ops generalizing o with
  | nil =>
    obtain rfl := Except.ok.inj hr
    exact h
  | cons op ops ih =>
    obtain ⟨m, hm, hr⟩ := Except.bind_eq_ok.1 hr
    refine ih ?_ hr
    rcases step_eq_ok hm with rfl | hm
    · exact h
    · exact hchange o op m h (change_of_apply hm)

end Order

end Brigade
