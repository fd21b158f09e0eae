/-
The life of an order.

Two sets of verbs move the status: `moveTo` goes by the table of moves, the kitchen's verbs each look at one status. Both
only ever go on in the order of an order's life, `OrderStatus.rank`, from pending to cancelled.
- `status_only_advances`: this for every single move, and what follows for runs in which all operations are mixed: no
  status comes back, cancelled stays, an order that is completed can only be cancelled, and once an order is no longer
  pending its lines and its total stay what they are.

The rank never falls and a change of the lines needs the lowest rank, so each statement about runs is one about a single
change.
-/
import Brigade.Proofs.OrderChange

namespace Brigade

/-- the place of a status in an order's life -/
def OrderStatus.rank (s : OrderStatus) : Nat := OrderStatus.all.idxOf s

theorem OrderStatus.rank_injective {s t : OrderStatus} (h : s.rank = t.rank) : s = t :=
  (List.idxOf_inj (OrderStatus.mem_all s)).1 h

/-- a move of the table goes on, or stays at cancelled -/
theorem OrderStatus.rank_lt_of_canMoveTo {s t : OrderStatus} (h : s.canMoveTo t = true) :
    s.rank < t.rank ∨ s = .cancelled ∧ t = .cancelled := by
  revert h
  cases s <;> cases t <;> decide

/-- the table has no way out of completed -/
theorem OrderStatus.canMoveTo_completed (t : OrderStatus) : OrderStatus.completed.canMoveTo t = false := by
  cases t <;> rfl

/-- the last status -/
theorem OrderStatus.rank_le_cancelled (s : OrderStatus) : s.rank ≤ OrderStatus.cancelled.rank := by
  cases s <;> decide

namespace Order

/-- the operation is about the status -/
def Op.isMove : Op → Bool
  | .moveTo _ | .startPreparation | .markReady | .serve | .cancel => true
  | .addLine .. | .removeLine _ | .setQuantity .. | .setNotes _ => false

/-- what an operation does to the status: a move goes on, or stays at cancelled, and no other operation touches it -/
def Advances (old new : OrderStatus) (op : Op) : Prop :=
  if op.isMove then old.rank < new.rank ∨ old = .cancelled ∧ new = .cancelled else new = old

variable {o o' : Order} {op : Op}

/-- **One change.** -/
theorem Change.advances (h : Change o op o') : Advances o.status o'.status op := by
  cases h with
  | lineAdded => exact rfl
  | linesRemoved => exact rfl
  | quantitySet => exact rfl
  | noted => exact rfl
  | moved s allowed => exact OrderStatus.rank_lt_of_canMoveTo allowed
  | prepared pending =>
    rw [pending]
    exact .inl (by decide : OrderStatus.pending.rank < OrderStatus.preparing.rank)
  | readied preparing =>
    rw [preparing]
    exact .inl (by decide : OrderStatus.preparing.rank < OrderStatus.ready.rank)
  | brought ready =>
    rw [ready]
    exact .inl (by decide : OrderStatus.ready.rank < OrderStatus.served.rank)
  | cancelled unserved =>
    -- cancelling is last in the life of an order, and may be repeated
    rcases Nat.lt_or_eq_of_le (OrderStatus.rank_le_cancelled o.status) with hlt | heq
    · exact .inl hlt
    · exact .inr ⟨OrderStatus.rank_injective heq, rfl⟩

theorem Change.rank_le (h : Change o op o') : o.status.rank ≤ o'.status.rank := by
  have hadvances := h.advances
  unfold Advances at hadvances
  split at hadvances
  · rcases hadvances with hlt | ⟨hold, hnew⟩
    · exact hlt.le
    · rw [hold, hnew]
  · rw [hadvances]

/-- a change of the lines or the total finds the order pending -/
theorem Change.closed (h : Change o op o') (hclosed : o.status ≠ .pending) :
    o'.status ≠ .pending ∧ o'.lines = o.lines ∧ o'.total = o.total := by
  cases h with
  | lineAdded _ _ _ _ _ _ pending => exact absurd pending hclosed
  | linesRemoved _ _ pending => exact absurd pending hclosed
  | quantitySet _ _ _ pending => exact absurd pending hclosed
  | noted => exact ⟨hclosed, rfl, rfl⟩
  | moved s allowed =>
    refine ⟨?_, rfl, rfl⟩
    rintro rfl
    cases hs : o.status <;> rw [hs] at allowed <;> cases allowed
  | prepared pending => exact absurd pending hclosed
  | readied => exact ⟨OrderStatus.noConfusion, rfl, rfl⟩
  | brought => exact ⟨OrderStatus.noConfusion, rfl, rfl⟩
  | cancelled => exact ⟨OrderStatus.noConfusion, rfl, rfl⟩

/-- the only change that takes an order out of completed -/
theorem Change.cancel_of_completed (h : Change o op o') (hold : o.status = .completed) (hnew : o'.status ≠ .completed) :
    op = .cancel := by
  cases h with
  | lineAdded => exact absurd hold hnew
  | linesRemoved => exact absurd hold hnew
  | quantitySet => exact absurd hold hnew
  | noted => exact absurd hold hnew
  | moved s allowed =>
    rw [hold, OrderStatus.canMoveTo_completed] at allowed
    cases allowed
  | prepared pending => rw [hold] at pending; cases pending
  | readied preparing => rw [hold] at preparing; cases preparing
  | brought ready => rw [hold] at ready; cases ready
  | cancelled => rfl

/-! ## Runs -/

theorem rank_le_of_run {ops : List Op} (h : o.run ops = .ok o') : o.status.rank ≤ o'.status.rank :=
  run_kept (P := fun a => o.status.rank ≤ a.status.rank) (fun _ _ _ ha hab => ha.trans hab.rank_le) (le_refl _) h

theorem closed_of_run {ops : List Op} (hclosed : o.status ≠ .pending) (h : o.run ops = .ok o') :
    o'.lines = o.lines ∧ o'.total = o.total := by
  refine (run_kept (P := fun a => a.status ≠ .pending ∧ a.lines = o.lines ∧ a.total = o.total) ?_
    ⟨hclosed, rfl, rfl⟩ h).2
  rintro a op b ⟨ha, hlines, htotal⟩ hab
  obtain ⟨hb, hlines', htotal'⟩ := hab.closed ha
  exact ⟨hb, hlines'.trans hlines, htotal'.trans htotal⟩

/-- **The status only advances.** Take an order at any moment of a run. Every move that is granted takes it on in the
order of an order's life, or finds and leaves it cancelled, and no other operation touches its status; the only operation
that takes it out of completed is `cancel`. From this moment on, along every run: a status that was left does not come
back, cancelled stays, and unless the order is still pending its lines and its total stay what they are. -/
theorem status_only_advances (o : Order) :
    (∀ op o', o.apply op = .ok o' → Advances o.status o'.status op ∧
      (o.status = .completed → o'.status ≠ .completed → op = .cancel)) ∧
    ∀ ops o', o.run ops = .ok o' →
      (o'.status ≠ o.status → ∀ later o'', o'.run later = .ok o'' → o''.status ≠ o.status) ∧
      (o.status = .cancelled → o'.status = .cancelled) ∧
      (o.status ≠ .pending → o'.lines = o.lines ∧ o'.total = o.total) := by
  refine ⟨fun op o' h => ?_, fun ops o' h => ⟨?_, ?_, ?_⟩⟩
  · have hchange := change_of_apply h
    exact ⟨hchange.advances, hchange.cancel_of_completed⟩
  · intro hleft later o'' hlater hback
    have hle := rank_le_of_run h
    have hle' := rank_le_of_run hlater
    rw [hback] at hle'
    exact hleft (OrderStatus.rank_injective (le_antisymm hle' hle))
  · intro hcancelled
    have hle := rank_le_of_run h
    rw [hcancelled] at hle
    exact OrderStatus.rank_injective (le_antisymm (OrderStatus.rank_le_cancelled _) hle)
  · intro hclosed
    exact closed_of_run hclosed h

/-- two lines for 1.5 each, two of the first -/
def confirmedDouble : Order := double 2 2 .confirmed ((Decimal.ofParts? 60 1).get rfl)

/-- to the kitchen by the table and on by the kitchen's verbs, with a line that can no longer be removed -/
def mixedOps : List Op :=
  [.setNotes (some "window"), .moveTo .preparing, .markReady, .removeLine (.ofNat 7), .serve, .moveTo .completed, .cancel]

theorem status_only_advances_mixed :
    ∃ o : Order, confirmedDouble.run mixedOps = .ok o ∧ o.status = .cancelled ∧ o.lines = confirmedDouble.lines ∧
      o.total = confirmedDouble.total ∧ (∀ later o', o.run later = .ok o' → o'.status ≠ .confirmed) ∧
      Advances .confirmed .cancelled .cancel := by
  obtain ⟨hop, hrun⟩ := status_only_advances confirmedDouble
  have hr : confirmedDouble.run mixedOps = .ok { confirmedDouble with status := .cancelled, notes := some "window" } := by
    decide +kernel
  obtain ⟨hback, -, hclosed⟩ := hrun _ _ hr
  obtain ⟨hlines, htotal⟩ := hclosed (by decide)
  have hcancel : confirmedDouble.apply .cancel = .ok { confirmedDouble with status := .cancelled } := rfl
  exact ⟨_, hr, rfl, hlines, htotal, hback (by decide), (hop _ _ hcancel).1⟩

end Order

end Brigade
