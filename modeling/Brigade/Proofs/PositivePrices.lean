/-
Quantities and prices that are greater than zero.

The constructors demand them, and so does every operation that sets one. Reading does not: an order or a menu item is read
with whatever quantities and prices were stored.
- `positive_iff_read`: what is built by the constructors has positive quantities and prices for ever. What was read has
  them for ever exactly if it has them when it is read; a line that lacks them later was read without them, and a menu
  item gets its price right by a change of price and by nothing else.
- `read_for_nothing`: an order line in the number zero for less than nothing, and a menu item at such a price, are read.

Operations never spoil a line: each line of an order comes from a line before, in the same number or in another positive
one, or was added as a positive one (`Order.Change.line_origin`).
-/
import Brigade.Proofs.OrderChange
import Brigade.MenuItem

namespace Brigade

/-- quantity and price are greater than zero -/
def OrderLine.Positive (l : OrderLine) : Prop := 0 < l.quantity.toInt ∧ l.unitPrice.Positive

instance (l : OrderLine) : Decidable l.Positive := inferInstanceAs (Decidable (_ ∧ _))

/-- the line `l` is the line `old`, in the same number or in another positive one -/
def OrderLine.Recounts (l old : OrderLine) : Prop :=
  l = { old with quantity := l.quantity } ∧ (l.quantity = old.quantity ∨ 0 < l.quantity.toInt)

namespace OrderLine

variable {l m n : OrderLine}

theorem Recounts.refl (l : OrderLine) : l.Recounts l := ⟨rfl, .inl rfl⟩

theorem Recounts.trans (h : l.Recounts m) (h' : m.Recounts n) : l.Recounts n := by
  obtain ⟨hl, hquantity⟩ := h
  obtain ⟨hm, hquantity'⟩ := h'
  refine ⟨?_, ?_⟩
  · rw [hl, hm]
  · rcases hquantity with heq | hpos
    · rw [heq]
      exact hquantity'
    · exact .inr hpos

/-- a positive line stays positive -/
theorem Recounts.positive (h : l.Recounts m) (hm : m.Positive) : l.Positive := by
  obtain ⟨hl, hquantity⟩ := h
  refine ⟨?_, ?_⟩
  · rcases hquantity with heq | hpos
    · rw [heq]
      exact hm.1
    · exact hpos
  · rw [hl]
    exact hm.2

end OrderLine

namespace Order

/-- every line is positive -/
def LinesPositive (o : Order) : Prop := ∀ l ∈ o.lines, l.Positive

instance (o : Order) : Decidable o.LinesPositive := inferInstanceAs (Decidable (∀ l ∈ o.lines, l.Positive))

variable {o o' : Order} {op : Op}

/-- **One change.** A line is new and positive, or it is a line from before. -/
theorem Change.line_origin (h : Change o op o') :
    ∀ l ∈ o'.lines, l.Positive ∨ ∃ old ∈ o.lines, l.Recounts old := by
  intro l hl
  cases h with
  | lineAdded i m q p t total pending quantity price =>
    rcases List.mem_append.1 hl with hold | hnew
    · exact .inr ⟨l, hold, .refl l⟩
    · rw [List.mem_singleton.1 hnew]
      exact .inl ⟨quantity, price⟩
  | linesRemoved i total pending => exact .inr ⟨l, List.mem_of_mem_filter hl, .refl l⟩
  | quantitySet i q total pending quantity =>
    rcases quantity with hq | hunknown
    · rcases mem_updateFirst hl with hold | ⟨old, hold, rfl⟩
      · exact .inr ⟨l, hold, .refl l⟩
      · exact .inr ⟨old, hold, rfl, .inr hq⟩
    · -- a quantity that is not checked is not set either
      have hsame : updateFirst (·.id == i) (fun l : OrderLine => { l with quantity := q }) o.lines = o.lines :=
        updateFirst_of_none (by simpa using hunknown) _
      rw [hsame] at hl
      exact .inr ⟨l, hl, .refl l⟩
  | _ => exact .inr ⟨l, hl, .refl l⟩

/-- every line of a run is positive, or was there at the start without being positive -/
theorem line_origin_of_run {ops : List Op} (h : o.run ops = .ok o') :
    ∀ l ∈ o'.lines, l.Positive ∨ ∃ old ∈ o.lines, ¬old.Positive ∧ l.Recounts old := by
  have hkept : ∀ l ∈ o'.lines, l.Positive ∨ ∃ old ∈ o.lines, l.Recounts old := by
    refine run_kept (P := fun a => ∀ l ∈ a.lines, l.Positive ∨ ∃ old ∈ o.lines, l.Recounts old) ?_ ?_ h
    · intro a op b ha hab l hl
      rcases hab.line_origin l hl with hpos | ⟨m, hm, hlm⟩
      · exact .inl hpos
      · rcases ha m hm with hpos | ⟨old, hold, hmold⟩
        · exact .inl (hlm.positive hpos)
        · exact .inr ⟨old, hold, hlm.trans hmold⟩
    · exact fun l hl => .inr ⟨l, hl, .refl l⟩
  intro l hl
  rcases hkept l hl with hpos | ⟨old, hold, hrecounts⟩
  · exact .inl hpos
  · by_cases hpos : old.Positive
    · exact .inl (hrecounts.positive hpos)
    · exact .inr ⟨old, hold, hpos, hrecounts⟩

theorem linesPositive_of_run {ops : List Op} (hpos : o.LinesPositive) (h : o.run ops = .ok o') : o'.LinesPositive := by
  intro l hl
  rcases line_origin_of_run h l hl with hl | ⟨old, hold, hnot, -⟩
  · exact hl
  · exact absurd (hpos old hold) hnot

theorem linesPositive_of_create {id tableId : Id} {number : String} {date : Timestamp} {notes : Option String}
    (h : create id number tableId date notes = .ok o) : o.LinesPositive := by
  unfold create at h
  split_ifs at h
  obtain rfl := Outcome.ok.inj h
  exact fun l hl => absurd hl List.not_mem_nil

end Order

/-! ## Menu items -/

namespace MenuItem

variable {m m' : MenuItem} {op : Op}

theorem positive_of_create {id : Id} {name category : String} {price : Decimal} {description : Option String}
    (h : create id name category price description = .ok m) : m.price.Positive := by
  unfold create at h
  split at h
  · rename_i hproblems
    obtain rfl := Outcome.ok.inj h
    by_contra hprice
    have hle : price.coeff ≤ 0 := Int.not_lt.1 hprice
    simp [problems, hle] at hproblems
  · cases h

/-- one operation: the price stays, or it is set to a positive one -/
theorem price_of_step (h : m.step op = .ok m') :
    m'.price.Positive ↔ m.price.Positive ∨ ∃ p, op = .setPrice p ∧ p.Positive := by
  cases op with
  | makeAvailable =>
    obtain rfl := Except.ok.inj h
    simp [makeAvailable]
  | makeUnavailable =>
    obtain rfl := Except.ok.inj h
    simp [makeUnavailable]
  | setPrice p =>
    simp only [step, apply, setPrice] at h
    split_ifs at h with hp
    · -- a price that is not positive is refused
      obtain rfl := Except.ok.inj h
      have hnot : ¬p.Positive := not_lt.2 hp
      simp [hnot]
    · obtain rfl := Except.ok.inj h
      have hpos : p.Positive := Int.not_le.1 hp
      simp [hpos]

/-- along a run the price is positive exactly if it was, or if a positive one was asked for -/
theorem price_of_run {ops : List Op} (h : m.run ops = .ok m') :
    m'.price.Positive ↔ m.price.Positive ∨ ∃ p, .setPrice p ∈ ops ∧ p.Positive := by
  induction ops generalizing m with
  | nil =>
    obtain rfl := Except.ok.inj h
    simp
  | cons op ops ih =>
    obtain ⟨n, hn, h⟩ := Except.bind_eq_ok.1 h
    rw [ih h, price_of_step hn, or_assoc, ← exists_or]
    simp only [List.mem_cons, or_and_right, eq_comm]

end MenuItem

/-! ## Constructors and readers -/

/-- **Constructors check, readers do not.** What the constructors make keeps positive quantities and prices along every
run. An order that was read keeps them along every run exactly if every line was positive when it was read, and a line
that is not positive later was read as such. The price of a menu item that was read is positive after a run exactly if it
was positive when it was read or a positive one was set. -/
theorem positive_iff_read (j : Json) :
    (∀ id number tableId date notes o, Order.create id number tableId date notes = .ok o →
      ∀ ops o', o.run ops = .ok o' → o'.LinesPositive) ∧
    (∀ o, Order.read j = .ok o →
      ((∀ ops o', o.run ops = .ok o' → o'.LinesPositive) ↔ o.LinesPositive) ∧
      ∀ ops o', o.run ops = .ok o' → ∀ l ∈ o'.lines, l.Positive ∨ ∃ old ∈ o.lines, ¬old.Positive ∧ l.Recounts old) ∧
    (∀ id name category price description m, MenuItem.create id name category price description = .ok m →
      ∀ ops m', m.run ops = .ok m' → m'.price.Positive) ∧
    ∀ m, MenuItem.read j = .ok m → ∀ ops m', m.run ops = .ok m' →
      (m'.price.Positive ↔ m.price.Positive ∨ ∃ p, .setPrice p ∈ ops ∧ p.Positive) := by
  refine ⟨?_, ?_, ?_, ?_⟩
  · intro id number tableId date notes o hnew ops o' h
    exact Order.linesPositive_of_run (Order.linesPositive_of_create hnew) h
  · intro o _
    refine ⟨⟨fun h => h [] o rfl, fun hpos ops o' h => Order.linesPositive_of_run hpos h⟩, fun ops o' h => ?_⟩
    exact Order.line_origin_of_run h
  · intro id name category price description m hnew ops m' h
    exact (MenuItem.price_of_run h).2 (.inl (MenuItem.positive_of_create hnew))
  · intro m _ ops m' h
    exact MenuItem.price_of_run h

/-- an order with one line: none of a dish that costs less than nothing -/
def freeOrder : Order :=
  ⟨.ofNat 1, "ORD-1", .ofNat 2, .epoch, .pending,
    [⟨.ofNat 7, .ofNat 8, 0, (Decimal.ofParts? (-150) 2).get rfl, none⟩], .zero, none, 1⟩

/-- a dish that costs less than nothing -/
def paidDish : MenuItem := ⟨.ofNat 8, "Soup", "Starters", none, .ofInt32 (-1), true, 1⟩

theorem positive_iff_read_repriced :
    (¬∀ ops o, freeOrder.run ops = .ok o → o.LinesPositive) ∧
    (∀ ops o, { freeOrder with lines := [] }.run ops = .ok o → o.LinesPositive) ∧
    (∀ ops m, { paidDish with price := .ofInt32 6 }.run ops = .ok m → m.price.Positive) ∧
    ∃ m, paidDish.run [.setPrice .zero, .setPrice (.ofInt32 6), .makeUnavailable] = .ok m ∧ m.price.Positive := by
  obtain ⟨hnew, hread, hnewItem, -⟩ := positive_iff_read freeOrder.toJson
  obtain ⟨-, -, -, hreadItem⟩ := positive_iff_read paidDish.toJson
  have horder : Order.read freeOrder.toJson = .ok freeOrder := by decide +kernel
  have hitem : MenuItem.read paidDish.toJson = .ok paidDish := by decide +kernel
  have hrun : paidDish.run [.setPrice .zero, .setPrice (.ofInt32 6), .makeUnavailable] =
      .ok { paidDish with price := .ofInt32 6, available := false } := by decide +kernel
  refine ⟨fun h => absurd ((hread _ horder).1.1 h) (by decide), ?_, ?_, ?_⟩
  · exact hnew (.ofNat 1) "ORD-1" (.ofNat 2) .epoch none _ (by decide +kernel)
  · exact hnewItem (.ofNat 8) "Soup" "Starters" (.ofInt32 6) none _ (by decide +kernel)
  · exact ⟨_, hrun, (hreadItem _ hitem _ _ hrun).2 (.inr ⟨.ofInt32 6, by decide, by decide⟩)⟩

/-- **Read for nothing.** -/
theorem read_for_nothing :
    (∃ o, Order.read freeOrder.toJson = .ok o ∧ ∃ l ∈ o.lines, ¬0 < l.quantity.toInt ∧ ¬l.unitPrice.Positive) ∧
    ∃ m, MenuItem.read paidDish.toJson = .ok m ∧ ¬m.price.Positive := by
  have horder : Order.read freeOrder.toJson = .ok freeOrder := by decide +kernel
  have hitem : MenuItem.read paidDish.toJson = .ok paidDish := by decide +kernel
  exact ⟨⟨_, horder, by decide⟩, _, hitem, by decide⟩

end Brigade
