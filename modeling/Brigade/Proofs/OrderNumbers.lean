/-
The numbers of orders, along every sequence of commands.

A command that places an order reads the clock first and makes the number of what it read; no operation changes a number
afterwards. So an order has the number of the time at which it was placed (`number_of_placed`), and nothing else keeps two
numbers apart: orders have no natural key.
- `numbers_distinct_iff`: the numbers of the orders that were placed are distinct exactly if no two of them were placed in
  the same second.
- `placed_together`: two orders placed in the same second have the same number.
-/
import Brigade.Proofs.Additions
import Brigade.Proofs.Stamps

namespace Brigade

/-! ## One command -/

/-- an order that is stored was stored before with its number, or has just been placed -/
theorem Solo.order_origin (w : Solo) {o : Order} (ho : o ∈ w.outcome.2.store.orders.items) :
    (∃ o' ∈ w.before.store.orders.items, o'.id = o.id ∧ o'.number = o.number) ∨
      (∃ c, w.command = .createOrder c) ∧ (∀ o' ∈ w.before.store.orders.items, o'.id ≠ o.id) ∧
        o.number = Order.numberAt w.settings.orderNumberFront (w.env.times w.before.timesRead) := by
  obtain ⟨d, hdrew, hstore | ⟨u, hu, hwrote⟩⟩ := w.outcome_wrote
  · rw [hstore] at ho
    exact .inl ⟨o, ho, rfl, rfl⟩
  · rcases hwrote.repo_cases .order with
      heq | ⟨a, rfl, -, hunused, heq⟩ | ⟨old, new, op, pre, post, -, hplace, hop, -, heq⟩
    · change w.outcome.2.store.orders = w.before.store.orders at heq
      rw [heq] at ho
      exact .inl ⟨o, ho, rfl, rfl⟩
    · change w.outcome.2.store.orders = _ at heq
      rw [heq] at ho
      rcases List.mem_append.1 ho with ho | ho
      · exact .inl ⟨o, ho, rfl, rfl⟩
      · obtain rfl := List.mem_singleton.1 ho
        obtain ⟨c, now, hc, hnow, hnumber, -⟩ := hu
        rw [hdrew.first_time hnow] at hnumber
        exact .inr ⟨⟨c, hc⟩, hunused, hnumber⟩
    · change w.outcome.2.store.orders = _ at heq
      change w.before.store.orders.items = _ at hplace
      have hframe := Order.apply_frame hop
      have hid : old.id = Order.id new := (congrArg Order.id hframe).symm
      have hnumber : old.number = Order.number new := (congrArg Order.number hframe).symm
      rw [heq] at ho
      left
      rcases List.mem_append.1 ho with ho | ho
      · exact ⟨o, hplace ▸ List.mem_append_left _ ho, rfl, rfl⟩
      · rcases List.mem_cons.1 ho with rfl | ho
        · exact ⟨old, hplace ▸ List.mem_append_right _ List.mem_cons_self, hid, hnumber⟩
        · exact ⟨o, hplace ▸ List.mem_append_right _ (List.mem_cons_of_mem _ ho), rfl, rfl⟩

/-! ## Sequences of commands -/

namespace Service

variable {env : Surroundings} {settings : Settings} {start : Service} {cs : List (Listing × Command)} {i : Id}
  {t : Timestamp}

/-- one of the commands placed an order under this identity, and the clock showed `t` when it began -/
def PlacedAt (env : Surroundings) (settings : Settings) (start : Service) (cs : List (Listing × Command)) (i : Id)
    (t : Timestamp) : Prop :=
  ∃ c before, Added env settings start cs .order i (.createOrder c) before ∧ t = env.times before.timesRead

/-- an order has the number of the time at which it was placed -/
theorem number_of_placed {o : Order} (ho : o ∈ (start.executeAllIn env settings cs).store.orders.items)
    (hplaced : PlacedAt env settings start cs o.id t) : o.number = Order.numberAt settings.orderNumberFront t := by
  induction cs using List.reverseRecOn generalizing o with
  | nil =>
    obtain ⟨c, before, hadded, -⟩ := hplaced
    exact absurd hadded not_added_nil
  | append_singleton cs c ih =>
    obtain ⟨l, c⟩ := c
    rw [executeAllIn_snoc] at ho
    obtain ⟨c', before, hadded, rfl⟩ := hplaced
    have horigin := Solo.order_origin ⟨env, l, settings, c, start.executeAllIn env settings cs⟩ ho
    rcases added_snoc.1 hadded with hold | ⟨rfl, rfl, hnone, hstored⟩
    · rcases horigin with ⟨o', ho', hid, hnumber⟩ | ⟨-, hunused, -⟩
      · rw [← hid] at hold
        exact hnumber.symm.trans (ih ho' ⟨c', before, hold, rfl⟩)
      · -- what was placed earlier is stored, so the identity was not unused
        exact absurd (Repository.get?_eq_none.2 hunused) (stored_of_added hold)
    · rcases horigin with ⟨o', ho', hid, -⟩ | ⟨-, -, hnumber⟩
      · exact absurd hid (Repository.get?_eq_none.1 hnone o' ho')
      · exact hnumber

/-- an order that was placed is stored -/
theorem stored_of_placed (h : PlacedAt env settings start cs i t) :
    ∃ o ∈ (start.executeAllIn env settings cs).store.orders.items, o.id = i := by
  obtain ⟨c, before, hadded, -⟩ := h
  obtain ⟨o, hget⟩ := Option.ne_none_iff_exists'.1 (stored_of_added hadded)
  exact ⟨o, Repository.mem_of_get? hget, Repository.id_of_get? hget⟩

/-- two orders have the same number exactly if they were placed in the same second -/
theorem number_eq_iff {t' : Timestamp} {o o' : Order}
    (ho : o ∈ (start.executeAllIn env settings cs).store.orders.items)
    (ho' : o' ∈ (start.executeAllIn env settings cs).store.orders.items)
    (hplaced : PlacedAt env settings start cs o.id t) (hplaced' : PlacedAt env settings start cs o'.id t') :
    o.number = o'.number ↔ t.shown = t'.shown := by
  rw [number_of_placed ho hplaced, number_of_placed ho' hplaced', Order.numberAt_eq_iff]

/-- the orders that were placed have distinct numbers -/
def NumbersDistinct (env : Surroundings) (settings : Settings) (start : Service) (cs : List (Listing × Command)) : Prop :=
  ∀ o ∈ (start.executeAllIn env settings cs).store.orders.items,
    ∀ o' ∈ (start.executeAllIn env settings cs).store.orders.items, ∀ t t',
      PlacedAt env settings start cs o.id t → PlacedAt env settings start cs o'.id t' → o.id ≠ o'.id → o.number ≠ o'.number

/-- no two orders were placed in the same second -/
def SecondsDistinct (env : Surroundings) (settings : Settings) (start : Service) (cs : List (Listing × Command)) : Prop :=
  ∀ i i' t t', PlacedAt env settings start cs i t → PlacedAt env settings start cs i' t' → i ≠ i' → t.shown ≠ t'.shown

/-- **Numbers are as distinct as seconds.** Along every sequence of commands, the orders that were placed have distinct
numbers exactly if no two of them were placed in the same second. -/
theorem numbers_distinct_iff (env : Surroundings) (settings : Settings) (start : Service)
    (cs : List (Listing × Command)) :
    NumbersDistinct env settings start cs ↔ SecondsDistinct env settings start cs := by
  constructor
  · intro h i i' t t' hplaced hplaced' hne hshown
    obtain ⟨o, ho, rfl⟩ := stored_of_placed hplaced
    obtain ⟨o', ho', rfl⟩ := stored_of_placed hplaced'
    exact h o ho o' ho' t t' hplaced hplaced' hne ((number_eq_iff ho ho' hplaced hplaced').2 hshown)
  · intro h o ho o' ho' t t' hplaced hplaced' hne hnumber
    exact h o.id o'.id t t' hplaced hplaced' hne ((number_eq_iff ho ho' hplaced hplaced').1 hnumber)

/-- a service with one free table and a soup on the menu -/
def soupKitchen : Service :=
  { Service.start with
    store :=
      { Store.empty with
        tables := ⟨[⟨.ofNat 100, 1, 4, .available, none, 1⟩], []⟩
        menuItems :=
          ⟨[⟨.ofNat 200, "Soup", "Mains", none, { Decimal.zero with size := 7, size_lt := by decide }, true, 1⟩], []⟩ } }

/-- a soup at the table -/
def orderSoup : Command := .createOrder ⟨.ofNat 100, [⟨.ofNat 200, 1, none⟩], none⟩

/-- **Two orders, one number.** Numbers are not distinct along every sequence of commands: while the clock stands still, two
soups are ordered, and both orders are stored under the number of that second. -/
theorem placed_together : ¬∀ (env : Surroundings) (settings : Settings) (start : Service)
    (cs : List (Listing × Command)), NumbersDistinct env settings start cs := by
  intro h
  have h := h .standstill .standard soupKitchen [(.arrival, orderSoup), (.arrival, orderSoup)]
  have hfirst : PlacedAt .standstill .standard soupKitchen [(.arrival, orderSoup), (.arrival, orderSoup)] (.ofNat 0)
      .epoch := by
    refine ⟨_, _, ⟨[], .arrival, [(.arrival, orderSoup)], rfl, rfl, ?_, ?_⟩, rfl⟩
    · decide +kernel
    · decide +kernel
  have hsecond : PlacedAt .standstill .standard soupKitchen [(.arrival, orderSoup), (.arrival, orderSoup)] (.ofNat 2)
      .epoch := by
    refine ⟨_, _, ⟨[(.arrival, orderSoup)], .arrival, [], rfl, rfl, ?_, ?_⟩, rfl⟩
    · decide +kernel
    · decide +kernel
  obtain ⟨o, ho, hid⟩ := stored_of_placed hfirst
  obtain ⟨o', ho', hid'⟩ := stored_of_placed hsecond
  rw [← hid] at hfirst
  rw [← hid'] at hsecond
  refine h o ho o' ho' .epoch .epoch hfirst hsecond ?_ ((number_eq_iff ho ho' hfirst hsecond).2 rfl)
  rw [hid, hid']
  decide

end Service

end Brigade
