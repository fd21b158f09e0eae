/-
Placing an order: when it succeeds, what is stored then, and with what it fails.

The input is checked first, then the table, then the menu. `Placeable` says that nothing stands in the way; `Rejection`
lists the failures, each with the stage that fails after those that do not. One of the two holds
(`rejection_or_placeable`), and each settles how the command ends (`Rejection.fails`, `Placeable.placed`).

The menu items that were found and the requests are two lists, and they are put together by position. They have the same
length, and stand in the same order, because nothing is placed unless every request has its item (`found_of_offered`): each
line `Answers` its request, with the price of its own item.
- `order_placed`: all of this, for every input and every store whose menu has positive prices, while the lines can be added
  up, somebody listens, and the identity that is drawn is a new one.
-/
import Brigade.Proofs.ExactTotals
import Brigade.Proofs.GoalAnswers
import Brigade.Proofs.OrderNumbers

namespace Brigade

variable {α β σ : Type}

/-! ## Tasks that have a value, and tasks that fail -/

namespace Task

variable {w : World σ} {s s' : σ} {a : α} {t : Task α} {cont : α → Task β}

theorem run_bind_of_value (h : t.plan.run w s = (.value a, s')) :
    (t >>= cont).plan.run w s = (cont a).plan.run w s' := by
  rw [run_bind, h]

theorem run_counted_of_value {metrics : Ending α → List Metric} (h : t.plan.run w s = (.value a, s'))
    (hmetrics : metrics (.value a) = []) : (counted metrics t).plan.run w s = (.value a, s') := by
  refine (Plan.run_bind w t _ s).trans ?_
  change Plan.run w t s = _ at h
  rw [h, hmetrics]
  rfl

end Task

section Fails

variable {l : Listing} {env : Surroundings} {s : Service} {f : Failure} {t : Task α}

/-- counting changes no store -/
theorem store_counting (ms : List Metric) (s : Service) :
    ((Plan.counting ms).run (Service.answerIn l env) s).2.store = s.store := by
  induction ms generalizing s with
  | nil => rfl
  | cons m ms ih => exact (ih _).trans rfl

/-- the task fails, and leaves the store as it was -/
def Task.Fails (t : Task α) (l : Listing) (env : Surroundings) (s : Service) (f : Failure) : Prop :=
  ∃ s', t.plan.run (Service.answerIn l env) s = (.failure f, s') ∧ s'.store = s.store

theorem Task.fails_fail : (Task.fail f : Task α).Fails l env s f := ⟨s, rfl, rfl⟩

theorem Task.Fails.bind (h : t.Fails l env s f) (cont : α → Task β) : (t >>= cont).Fails l env s f := by
  obtain ⟨s', hrun, hstore⟩ := h
  exact ⟨s', by rw [Task.run_bind, hrun], hstore⟩

/-- a task fails with what follows a value that changed nothing -/
theorem Task.Fails.after {a : α} {cont : α → Task β} (hrun : t.plan.run (Service.answerIn l env) s = (.value a, s))
    (h : (cont a).Fails l env s f) : (t >>= cont).Fails l env s f := by
  obtain ⟨s', hcont, hstore⟩ := h
  exact ⟨s', (Task.run_bind_of_value hrun).trans hcont, hstore⟩

theorem Task.Fails.counted (h : t.Fails l env s f) (metrics : Ending α → List Metric) :
    (Task.counted metrics t).Fails l env s f := by
  obtain ⟨s', hrun, hstore⟩ := h
  refine ⟨((Plan.counting (metrics (.failure f))).run (Service.answerIn l env) s').2, ?_,
    (store_counting _ s').trans hstore⟩
  refine (Plan.run_bind _ t _ s).trans ?_
  change Plan.run _ t s = _ at hrun
  rw [hrun]
  exact Plan.run_bind _ _ _ s'

end Fails

/-! ## The input -/

namespace LineRequest

/-- a request for at least one, with instructions that are short enough -/
def Valid (l : LineRequest) : Prop := 1 ≤ l.quantity ∧ ∀ t ∈ l.instructions, t.length ≤ 250

instance (l : LineRequest) : Decidable l.Valid := inferInstanceAs (Decidable (_ ∧ _))

/-- the line is for what was asked, at the price that the menu has for it -/
structure Answers (menu : Repository MenuItem) (r : LineRequest) (l : OrderLine) : Prop where
  item : l.menuItem = r.menuItem
  price : (menu.get? r.menuItem).map MenuItem.price = some l.unitPrice
  quantity : l.quantity = r.quantity
  instructions : l.instructions = r.instructions

theorem complaints_eq_nil {l : LineRequest} : l.complaints = [] ↔ l.Valid := by
  rw [complaints, List.append_eq_nil_iff, Validation.check_eq_nil, Validation.check_eq_nil, Valid, decide_eq_true_iff,
    Option.all_eq_true]
  simp

end LineRequest

/-- what is replied about a stored order -/
def CreateOrderResult.ofOrder (o : Order) : CreateOrderResult :=
  ⟨o.id, o.number, o.tableId, o.date, o.status, o.total, o.version⟩

namespace CreateOrder

variable {c : CreateOrder} {store : Store} {menu : Repository MenuItem}

/-- there is something to order, and all texts and numbers are in range -/
structure Valid (c : CreateOrder) : Prop where
  lines_ne_nil : c.lines ≠ []
  notes : ∀ n ∈ c.notes, n.length ≤ 500
  lines : ∀ l ∈ c.lines, l.Valid

/-- a menu item that can be ordered -/
def offered? (menu : Repository MenuItem) (i : Id) : Option MenuItem := (menu.get? i).filter MenuItem.available

/-- the menu items that are asked for and can be ordered, in the order of the requests -/
def found (menu : Repository MenuItem) (ls : List LineRequest) : List MenuItem :=
  ls.filterMap fun l => offered? menu l.menuItem

/-- what is asked for and cannot be ordered, in the order of the requests -/
def notOffered (menu : Repository MenuItem) (ls : List LineRequest) : List Id :=
  (ls.map LineRequest.menuItem).filter fun i => (offered? menu i).isNone

/-- nothing stands in the way of the order -/
structure Placeable (c : CreateOrder) (store : Store) : Prop where
  valid : c.Valid
  table : ∃ t, store.tables.get? c.tableId = some t ∧ t.status = .available
  menu : ∀ l ∈ c.lines, ∃ m, store.menuItems.get? l.menuItem = some m ∧ m.available = true

/-- with what an order is rejected: the stage that fails, after stages that do not -/
inductive Rejection (c : CreateOrder) (store : Store) : Failure → Prop where
  | input (invalid : ¬c.Valid) : Rejection c store (.validation ("; ".intercalate c.messages))
  | tableMissing (valid : c.Valid) (missing : store.tables.get? c.tableId = none) :
      Rejection c store (.notFound ("Table " ++ c.tableId.text ++ " not found"))
  | tableTaken (valid : c.Valid) (t : Table) (stored : store.tables.get? c.tableId = some t)
      (taken : t.status ≠ .available) :
      Rejection c store (.invalidOperation ("Table " ++ toString t.number.toInt ++ " is not available for orders"))
  | notOnMenu (valid : c.Valid) (t : Table) (stored : store.tables.get? c.tableId = some t)
      (available : t.status = .available) (off : notOffered store.menuItems c.lines ≠ []) :
      Rejection c store (.invalidOperation ("The following menu items are not available: " ++
        ", ".intercalate ((notOffered store.menuItems c.lines).map Id.text)))

theorem messages_of_complaints {cs : List Complaint} :
    (Validation.failure? cs).toList.flatMap Failure.messages = [] ↔ cs = [] := by
  cases cs with
  | nil => simp [Validation.failure?]
  | cons c cs => simp [Validation.failure?, Failure.messages]

theorem complaints_eq_nil : c.complaints = [] ↔ c.lines ≠ [] ∧ ∀ n ∈ c.notes, n.length ≤ 500 := by
  rw [complaints, List.append_eq_nil_iff, Validation.check_eq_nil, Validation.check_eq_nil, Option.all_eq_true]
  simp

/-- there is nothing to say about input that is in range, and only about such input -/
theorem messages_eq_nil : c.messages = [] ↔ c.Valid := by
  rw [messages, List.append_eq_nil_iff, messages_of_complaints, complaints_eq_nil, List.flatMap_eq_nil_iff]
  simp only [messages_of_complaints, LineRequest.complaints_eq_nil]
  exact ⟨fun ⟨⟨hlines, hnotes⟩, hvalid⟩ => ⟨hlines, hnotes, hvalid⟩, fun h => ⟨⟨h.lines_ne_nil, h.notes⟩, h.lines⟩⟩

theorem problem?_of_valid (h : c.Valid) : c.problem? = none := by
  rw [problem?, messages_eq_nil.2 h]
  rfl

theorem problem?_of_invalid (h : ¬c.Valid) : c.problem? = some (.validation ("; ".intercalate c.messages)) := by
  have hmessages : ¬c.messages.isEmpty = true := by rwa [List.isEmpty_iff, messages_eq_nil]
  rw [problem?, if_neg hmessages]

/-! ## The menu -/

theorem offered?_eq_some {i : Id} {m : MenuItem} :
    offered? menu i = some m ↔ menu.get? i = some m ∧ m.available = true := by
  rw [offered?, Option.filter_eq_some_iff]

theorem notOffered_eq_nil {ls : List LineRequest} :
    notOffered menu ls = [] ↔ ∀ l ∈ ls, ∃ m, menu.get? l.menuItem = some m ∧ m.available = true := by
  simp only [notOffered, List.filter_eq_nil_iff, List.forall_mem_map, Option.isNone_iff_eq_none,
    ← offered?_eq_some, ← Option.isSome_iff_exists, ← Option.ne_none_iff_isSome, ne_eq]

theorem found_cons_some {l : LineRequest} {ls : List LineRequest} {m : MenuItem} (h : offered? menu l.menuItem = some m) :
    found menu (l :: ls) = m :: found menu ls ∧ notOffered menu (l :: ls) = notOffered menu ls := by
  simp [found, notOffered, h]

theorem found_cons_none {l : LineRequest} {ls : List LineRequest} (h : offered? menu l.menuItem = none) :
    found menu (l :: ls) = found menu ls ∧ notOffered menu (l :: ls) = l.menuItem :: notOffered menu ls := by
  simp [found, notOffered, h]

/-- every request has its item at the same place -/
theorem found_of_offered {ls : List LineRequest} (h : notOffered menu ls = []) :
    List.Forall₂ (fun l m => offered? menu l.menuItem = some m) ls (found menu ls) := by
  induction ls with
  | nil => exact .nil
  | cons l ls ih =>
    rw [notOffered_eq_nil, List.forall_mem_cons] at h
    obtain ⟨⟨m, hm⟩, hrest⟩ := h
    have hm := offered?_eq_some.2 hm
    rw [(found_cons_some hm).1]
    exact .cons hm (ih (notOffered_eq_nil.2 hrest))

/-- something stands in the way, or nothing -/
theorem rejection_or_placeable (c : CreateOrder) (store : Store) : (∃ f, c.Rejection store f) ∨ c.Placeable store := by
  by_cases hvalid : c.Valid
  · cases htable : store.tables.get? c.tableId with
    | none => exact .inl ⟨_, .tableMissing hvalid htable⟩
    | some t =>
      by_cases hstatus : t.status = .available
      · by_cases hmenu : notOffered store.menuItems c.lines = []
        · exact .inr ⟨hvalid, ⟨t, htable, hstatus⟩, notOffered_eq_nil.1 hmenu⟩
        · exact .inl ⟨_, .notOnMenu hvalid t htable hstatus hmenu⟩
      · exact .inl ⟨_, .tableTaken hvalid t htable hstatus⟩
  · exact .inl ⟨_, .input hvalid⟩

/-! ## Rejected orders -/

section Running

variable {l : Listing} {env : Surroundings} {s : Service} {f : Failure} {front : String}

theorem run_get {k : Kind} {i : Id} {cont : Option k.Member → Task β} :
    (Task.get k i >>= cont).plan.run (Service.answerIn l env) s =
      (cont ((s.store.repo k).get? i)).plan.run (Service.answerIn l env) s := rfl

theorem run_clock {cont : Timestamp → Task β} :
    (Task.clock >>= cont).plan.run (Service.answerIn l env) s =
      (cont (env.times s.timesRead)).plan.run (Service.answerIn l env) { s with timesRead := s.timesRead + 1 } := rfl

/-- looking up the menu items finds what is offered, and the rest is missing -/
theorem run_lookUp (ls : List LineRequest) :
    (lookUp ls).plan.run (Service.answerIn l env) s =
      (.value (found s.store.menuItems ls, notOffered s.store.menuItems ls), s) := by
  induction ls with
  | nil => rfl
  | cons r ls ih =>
    rw [lookUp, run_get, Task.run_bind_of_value ih]
    cases hget : (s.store.repo .menuItem).get? r.menuItem with
    | none =>
      have hoff : offered? s.store.menuItems r.menuItem = none := congrArg (Option.filter MenuItem.available) hget
      obtain ⟨hfound, hmissing⟩ := found_cons_none hoff
      rw [hfound, hmissing]
      rfl
    | some m =>
      have hfilter : offered? s.store.menuItems r.menuItem = if m.available then some m else none :=
        congrArg (Option.filter MenuItem.available) hget
      cases hm : m.available with
      | true =>
        have hon : offered? s.store.menuItems r.menuItem = some m := hfilter.trans (if_pos hm)
        obtain ⟨hfound, hmissing⟩ := found_cons_some hon
        rw [hfound, hmissing]
        simp only [hm, if_true]
        rfl
      | false =>
        have hoff : offered? s.store.menuItems r.menuItem = none := hfilter.trans (if_neg (by simp [hm]))
        obtain ⟨hfound, hmissing⟩ := found_cons_none hoff
        rw [hfound, hmissing]
        simp only [hm]
        rfl

theorem checked_of_valid (h : c.Valid) (metrics : Failure → Metric) :
    (Task.counted (OrderCommand.failureMetric metrics) (Task.unless? c.problem?)).plan.run (Service.answerIn l env) s =
      (.value (), s) := by
  rw [problem?_of_valid h]
  rfl

/-- what fails after the input has been checked is what storing the order fails with -/
theorem fails_of_valid (h : c.Valid) (hstore : (c.store front).Fails l env s f) : (c.task front).Fails l env s f := by
  rw [task]
  exact .after (checked_of_valid h _) ((hstore.counted _).bind _)

/-- at a table that can be had, the menu is looked up -/
theorem run_store_of_available {t : Table} (stored : s.store.tables.get? c.tableId = some t)
    (available : t.status = .available) :
    (c.store front).plan.run (Service.answerIn l env) s =
      (Task.plan (if !(notOffered s.store.menuItems c.lines).isEmpty then
          Task.fail (OrderCommand.unavailable (notOffered s.store.menuItems c.lines))
        else do
          let now ← Task.clock
          let i ← Task.freshId
          let date ← Task.clock
          let o ← Task.ofOutcome OrderCommand.refusal (Order.create i (Order.numberAt front now) c.tableId date c.notes)
          let o ← addLines o (c.lines.zip (found s.store.menuItems c.lines))
          Task.add .order o)).run (Service.answerIn l env) s := by
  have hget : (s.store.repo .table).get? c.tableId = some t := stored
  have hfree : ¬(!t.isAvailable) = true := by simp [Table.isAvailable, available]
  rw [store, run_get, hget]
  change (Task.plan (if !t.isAvailable then _ else _)).run _ _ = _
  rw [if_neg hfree, Task.run_bind_of_value (run_lookUp c.lines)]

/-- an order fails as it is rejected, and is stored nowhere -/
theorem Rejection.fails (h : c.Rejection s.store f) : (c.task front).Fails l env s f := by
  cases h with
  | input invalid =>
    rw [task, problem?_of_invalid invalid]
    exact (Task.fails_fail.counted _).bind _
  | tableMissing valid missing =>
    have hget : (s.store.repo .table).get? c.tableId = none := missing
    refine fails_of_valid valid ⟨s, ?_, rfl⟩
    rw [store, run_get, hget]
    rfl
  | tableTaken valid t stored taken =>
    have hget : (s.store.repo .table).get? c.tableId = some t := stored
    have htaken : (!t.isAvailable) = true := by simp [Table.isAvailable, taken]
    refine fails_of_valid valid ⟨s, ?_, rfl⟩
    rw [store, run_get, hget]
    change (Task.plan (if !t.isAvailable then _ else _)).run _ _ = _
    rw [if_pos htaken]
    rfl
  | notOnMenu valid t stored available off =>
    have hoff : (!(notOffered s.store.menuItems c.lines).isEmpty) = true := by simpa using off
    refine fails_of_valid valid ⟨s, ?_, rfl⟩
    rw [run_store_of_available stored available, if_pos hoff]
    rfl

/-! ## Placed orders -/

/-- the lines for requests and the menu items found for them, under identities from the `n`-th on -/
def linesFrom (ids : Nat → Id) : Nat → List (LineRequest × MenuItem) → List OrderLine
  | _, [] => []
  | n, (r, m) :: rest => ⟨ids n, m.id, r.quantity, m.price, r.instructions⟩ :: linesFrom ids (n + 1) rest

/-- positive lines that can be added up are put on a new order one after another -/
theorem run_addLines {rs : List (LineRequest × MenuItem)} {o : Order} {d : Decimal} (hpending : o.status = .pending)
    (hpos : ∀ m ∈ linesFrom env.ids s.idsDrawn rs, m.Positive)
    (htotal : Order.totalOf o.lines = Outcome.ok (ε := OrderError) o.total)
    (hd : Order.totalOf (o.lines ++ linesFrom env.ids s.idsDrawn rs) = Outcome.ok (ε := OrderError) d) :
    (addLines o rs).plan.run (Service.answerIn l env) s =
      (.value { o with lines := o.lines ++ linesFrom env.ids s.idsDrawn rs, total := d },
        { s with idsDrawn := s.idsDrawn + rs.length }) := by
  induction rs generalizing o s with
  | nil =>
    rw [linesFrom, List.append_nil] at hd ⊢
    obtain rfl := Outcome.ok.inj (hd.symm.trans htotal)
    rfl
  | cons r rs ih =>
    obtain ⟨r, m⟩ := r
    rw [linesFrom, List.append_cons] at hd
    obtain ⟨d', hd', -⟩ := Outcome.bind_eq_ok.1 ((Order.addLines_append _ _).symm.trans hd)
    have hline := Order.addLine_exact (t := r.instructions) hpending (hpos _ List.mem_cons_self) hd'
    have hdrawn : s.idsDrawn + 1 + rs.length = s.idsDrawn + (rs.length + 1) := by omega
    rw [addLines, run_freshId, run_ofOutcome hline]
    refine (ih (s := { s with idsDrawn := s.idsDrawn + 1 })
      (o := { o with lines := o.lines ++ [⟨env.ids s.idsDrawn, m.id, r.quantity, m.price, r.instructions⟩], total := d' })
      hpending (fun m' hm' => hpos m' (List.mem_cons_of_mem _ hm')) hd' hd).trans ?_
    simp only [linesFrom, List.append_assoc, List.singleton_append, List.length_cons, hdrawn]

/-- requests and their items, in the same places, make the lines that were asked for -/
theorem answers_linesFrom {ls : List LineRequest} {ms : List MenuItem} (ids : Nat → Id) (n : Nat)
    (h : List.Forall₂ (fun r m => offered? menu r.menuItem = some m) ls ms) :
    List.Forall₂ (LineRequest.Answers menu) ls (linesFrom ids n (ls.zip ms)) := by
  induction h generalizing n with
  | nil => exact .nil
  | cons hm _ ih =>
    obtain ⟨hget, -⟩ := offered?_eq_some.1 hm
    refine .cons ⟨Repository.id_of_get? hget, ?_, rfl, rfl⟩ (ih (n + 1))
    rw [hget]
    rfl

/-- a line that answers a request that is in range, at a menu with positive prices, is positive -/
theorem positive_of_answers {ls : List LineRequest} {ms : List OrderLine} (prices : ∀ m ∈ menu.items, m.price.Positive)
    (valid : ∀ r ∈ ls, r.Valid) (h : List.Forall₂ (LineRequest.Answers menu) ls ms) : ∀ m ∈ ms, m.Positive := by
  induction h with
  | nil => exact fun m hm => nomatch hm
  | cons hline _ ih =>
    rw [List.forall_mem_cons] at valid ⊢
    obtain ⟨m, hget, hprice⟩ := Option.map_eq_some_iff.1 hline.price
    refine ⟨⟨?_, ?_⟩, ih valid.2⟩
    · rw [hline.quantity]
      exact Int32.lt_iff_toInt_lt.1 (Int32.not_le.1 (Int32.not_le_zero valid.1.1))
    · rw [← hprice]
      exact prices m (Repository.mem_of_get? hget)

theorem allBlank_numberAt (front : String) (now : Timestamp) : Text.allBlank (Order.numberAt front now) = false := by
  have hhyphen : Text.isBlank '-' = false := by decide
  simp [Text.allBlank, Order.numberAt, hhyphen]

/-- storing an order under an unused identity -/
theorem run_add_order {o : Order} (h : s.store.orders.get? o.id = none) :
    (Task.add .order o).plan.run (Service.answerIn l env) s =
      (.value o, { s with store := { s.store with orders := ⟨s.store.orders.items ++ [o], s.store.orders.keys⟩ } }) := by
  have hadd : (s.store.repo .order).add o = (.ok (), ⟨s.store.orders.items ++ [o], s.store.orders.keys⟩) := by
    change Repository.finishAdd s.store.orders o = _
    have hget : s.store.orders.get? (Aggregate.id o) = none := h
    rw [Repository.finishAdd, Repository.insert, hget]
    rfl
  change Service.answer env (.add .order o) s = _
  exact Service.answer_add_of_ok hadd

/-- an announcement that is heard changes no store -/
theorem run_announced {event : Event} {describe : String → String} (h : s.channelOpen = true) :
    (Task.publish event describe).plan.run (Service.answerIn l env) s =
      (.value (), { s with events := s.events ++ [event] }) := by
  have hanswer : Service.answerIn l env (.publish event) s = (true, { s with events := s.events ++ [event] }) := by
    simp [Service.answerIn, Service.answer, h]
  change Plan.run _ (.ask (.publish event) _) s = _
  rw [Plan.run_ask, hanswer]
  rfl

end Running

/-- the order that is stored: pending, in its first version, with one line for each request, in their order, and the sum of
the lines; its identities and times are the next ones -/
structure Placed (c : CreateOrder) (front : String) (env : Surroundings) (s : Service) (o : Order) : Prop where
  id : o.id = env.ids s.idsDrawn
  number : o.number = Order.numberAt front (env.times s.timesRead)
  table : o.tableId = c.tableId
  date : o.date = env.times (s.timesRead + 1)
  status : o.status = .pending
  lines : List.Forall₂ (LineRequest.Answers s.store.menuItems) c.lines o.lines
  total : Order.totalOf o.lines = Outcome.ok (ε := OrderError) o.total
  notes : o.notes = c.notes
  version : o.version = 1

/-- all orders for these requests can be added up -/
def Payable (c : CreateOrder) (menu : Repository MenuItem) : Prop :=
  ∀ ls, List.Forall₂ (LineRequest.Answers menu) c.lines ls → ¬Order.Overflows ls

section Placing

variable {env : Surroundings} {s : Service}

theorem Placeable.stored (h : c.Placeable s.store) (l : Listing) (front : String)
    (prices : ∀ m ∈ s.store.menuItems.items, m.price.Positive)
    (unused : s.store.orders.get? (env.ids s.idsDrawn) = none) (room : c.Payable s.store.menuItems) :
    ∃ o s', (c.store front).plan.run (Service.answerIn l env) s = (.value o, s') ∧ c.Placed front env s o ∧
      s'.store = { s.store with orders := ⟨s.store.orders.items ++ [o], s.store.orders.keys⟩ } := by
  obtain ⟨t, stored, available⟩ := h.table
  have hoffered : notOffered s.store.menuItems c.lines = [] := notOffered_eq_nil.2 h.menu
  let rs := c.lines.zip (found s.store.menuItems c.lines)
  -- the order before it has lines, and the service that has drawn its identity and its times
  let blank : Order := ⟨env.ids s.idsDrawn, Order.numberAt front (env.times s.timesRead), c.tableId,
    env.times (s.timesRead + 1), .pending, [], Decimal.zero, c.notes, 1⟩
  let drawn : Service := { s with idsDrawn := s.idsDrawn + 1, timesRead := s.timesRead + 1 + 1 }
  have hblank : Order.create blank.id blank.number c.tableId blank.date c.notes = .ok blank := by
    rw [Order.create, allBlank_numberAt]
    rfl
  have hlines : List.Forall₂ (LineRequest.Answers s.store.menuItems) c.lines (linesFrom env.ids drawn.idsDrawn rs) :=
    answers_linesFrom env.ids _ (found_of_offered hoffered)
  obtain ⟨d, hd⟩ := Order.addLines_ok_iff.2 (room _ hlines)
  let o : Order := { blank with lines := linesFrom env.ids drawn.idsDrawn rs, total := d }
  have hadded : (addLines blank rs).plan.run (Service.answerIn l env) drawn =
      (.value o, { drawn with idsDrawn := drawn.idsDrawn + rs.length }) :=
    run_addLines rfl (positive_of_answers prices h.valid.lines hlines) rfl hd
  have hrun : (c.store front).plan.run (Service.answerIn l env) s =
      (Task.add .order o).plan.run (Service.answerIn l env) { drawn with idsDrawn := drawn.idsDrawn + rs.length } := by
    rw [run_store_of_available stored available, hoffered]
    change (Task.clock >>= _ : Task Order).plan.run _ s = _
    rw [run_clock, run_freshId, run_clock, run_ofOutcome hblank, Task.run_bind_of_value hadded]
  exact ⟨o, _, hrun.trans (run_add_order unused), ⟨rfl, rfl, rfl, rfl, rfl, hlines, hd, rfl, rfl⟩, rfl⟩

theorem Placeable.placed (h : c.Placeable s.store) (l : Listing) (front : String)
    (prices : ∀ m ∈ s.store.menuItems.items, m.price.Positive)
    (listened : s.channelOpen = true) (unused : s.store.orders.get? (env.ids s.idsDrawn) = none)
    (room : c.Payable s.store.menuItems) :
    ∃ o s', (c.task front).plan.run (Service.answerIn l env) s = (.value (.ofOrder o), s') ∧ c.Placed front env s o ∧
      s'.store = { s.store with orders := ⟨s.store.orders.items ++ [o], s.store.orders.keys⟩ } := by
  obtain ⟨o, s₁, hrun, hplaced, hstore⟩ := h.stored l front prices unused room
  have hopen : s₁.channelOpen = true := by
    have hkept : ((c.store front).plan.run (Service.answerIn l env) s).2.channelOpen = s.channelOpen :=
      Service.channelOpen_run _ s
    rw [hrun] at hkept
    exact hkept.trans listened
  refine ⟨o, { s₁ with events := s₁.events ++ [.orderCreated o.id],
                       counters := Counters.bump .orderCreations s₁.counters }, ?_, hplaced, hstore⟩
  rw [task, Task.run_bind_of_value (checked_of_valid h.valid _),
    Task.run_bind_of_value (Task.run_counted_of_value hrun rfl),
    Task.run_bind_of_value (Task.run_counted_of_value (run_announced hopen) rfl)]
  rfl

end Placing

end CreateOrder

namespace Service

open CreateOrder

variable {env : Surroundings} {c : CreateOrder} {s : Service} {f : Failure}

theorem executeIn_of_rejection (h : c.Rejection s.store f) (l : Listing) (env : Surroundings) (settings : Settings) :
    ∃ s', s.executeIn l env settings (.createOrder c) = (.failure f, s') ∧ s'.store = s.store :=
  h.fails.bind _

theorem executeIn_of_placeable (h : c.Placeable s.store) (l : Listing) (settings : Settings)
    (prices : ∀ m ∈ s.store.menuItems.items, m.price.Positive) (listened : s.channelOpen = true)
    (unused : s.store.orders.get? (env.ids s.idsDrawn) = none) (room : c.Payable s.store.menuItems) :
    ∃ o s', s.executeIn l env settings (.createOrder c) = (.value (.created (.ofOrder o)), s') ∧
      c.Placed settings.orderNumberFront env s o ∧
      s'.store = { s.store with orders := ⟨s.store.orders.items ++ [o], s.store.orders.keys⟩ } := by
  obtain ⟨o, s', hrun, hplaced⟩ := h.placed l settings.orderNumberFront prices listened unused room
  exact ⟨o, s', Task.run_bind_of_value hrun, hplaced⟩

/-- **Placing orders.** Let the menu have positive prices, let somebody listen, let the identity that is drawn next be
unused, and let there be room for the sum of the lines, if it comes to that. Then an order is placed exactly if it has
lines, its texts and quantities are in range, its table is stored and available, and every menu item that is asked for is
stored and available. One new order is then stored and reported, and nothing else changes. Else the command fails with the
first stage that fails, of the input, the table that is missing, the table that is taken, and the menu, with all that is
not on it; and nothing is stored. -/
theorem order_placed (l : Listing) (env : Surroundings) (settings : Settings) (c : CreateOrder) (s : Service)
    (prices : ∀ m ∈ s.store.menuItems.items, m.price.Positive) (listened : s.channelOpen = true)
    (unused : s.store.orders.get? (env.ids s.idsDrawn) = none)
    (room : c.Placeable s.store → c.Payable s.store.menuItems) :
    ((∃ r, (s.executeIn l env settings (.createOrder c)).1 = .value r) ↔ c.Placeable s.store) ∧
    (c.Placeable s.store ∨ ∃ f, (s.executeIn l env settings (.createOrder c)).1 = .failure f) ∧
    (∀ f, (s.executeIn l env settings (.createOrder c)).1 = .failure f ↔ c.Rejection s.store f) ∧
    (∀ f, (s.executeIn l env settings (.createOrder c)).1 = .failure f →
      (s.executeIn l env settings (.createOrder c)).2.store = s.store) ∧
    ∀ r, (s.executeIn l env settings (.createOrder c)).1 = .value r →
      ∃ o, r = .created (.ofOrder o) ∧ c.Placed settings.orderNumberFront env s o ∧
        (s.executeIn l env settings (.createOrder c)).2.store =
          { s.store with orders := ⟨s.store.orders.items ++ [o], s.store.orders.keys⟩ } := by
  rcases rejection_or_placeable c s.store with ⟨f, hf⟩ | h
  · obtain ⟨s', hrun, hstore⟩ := executeIn_of_rejection hf l env settings
    have hnot : ¬c.Placeable s.store := by
      intro h
      obtain ⟨o, s'', hrun', -⟩ := executeIn_of_placeable h l settings prices listened unused (room h)
      exact nomatch hrun.symm.trans hrun'
    rw [hrun]
    refine ⟨by simp [hnot], .inr ⟨f, rfl⟩, ?_, fun _ _ => hstore, nofun⟩
    intro f'
    constructor
    · intro h
      exact Ending.failure.inj h ▸ hf
    · intro hf'
      obtain ⟨s'', hrun', -⟩ := executeIn_of_rejection hf' l env settings
      exact congrArg Prod.fst (hrun.symm.trans hrun')
  · obtain ⟨o, s', hrun, hplaced, hstore⟩ := executeIn_of_placeable h l settings prices listened unused (room h)
    have hnot : ∀ f, ¬c.Rejection s.store f := by
      intro f hf
      obtain ⟨s'', hrun', -⟩ := executeIn_of_rejection hf l env settings
      exact nomatch hrun.symm.trans hrun'
    rw [hrun]
    refine ⟨iff_of_true ⟨_, rfl⟩ h, .inl h, by simp [hnot], nofun, ?_⟩
    intro r hr
    exact ⟨o, (Ending.value.inj hr).symm, hplaced, hstore⟩

/-- two soups, and one more with a wish -/
def soups : CreateOrder := ⟨.ofNat 100, [⟨.ofNat 200, 2, none⟩, ⟨.ofNat 200, 1, some "no salt"⟩], some "window seat"⟩

/-- a soup between two dishes that nobody cooks -/
def hiddenDishes : CreateOrder := ⟨.ofNat 100, [⟨.ofNat 9, 1, none⟩, ⟨.ofNat 200, 1, none⟩, ⟨.ofNat 8, 1, none⟩], none⟩

theorem order_placed_soups :
    (∃ o, (soupKitchen.executeIn .arrival .standstill .standard (.createOrder soups)).1 = .value (.created (.ofOrder o)) ∧
      soups.Placed "ORD" .standstill soupKitchen o) ∧
    (soupKitchen.executeIn .arrival .standstill .standard (.createOrder hiddenDishes)).1 =
      .failure (OrderCommand.unavailable [.ofNat 9, .ofNat 8]) := by
  have hprices : ∀ m ∈ soupKitchen.store.menuItems.items, m.price.Positive := by decide
  have htable : soupKitchen.store.tables.get? (.ofNat 100) = some ⟨.ofNat 100, 1, 4, .available, none, 1⟩ := by decide
  have hvalid : soups.Valid := ⟨by decide, by decide, by decide⟩
  have hplaceable : soups.Placeable soupKitchen.store :=
    ⟨hvalid, ⟨_, htable, rfl⟩, notOffered_eq_nil.1 (by decide)⟩
  have hroom : soups.Payable soupKitchen.store.menuItems := by
    intro ls h
    refine Order.addLines_ok_iff.1 ?_
    obtain _ | ⟨hfirst, _ | ⟨hsecond, _ | _⟩⟩ := h
    have hprice : (soupKitchen.store.menuItems.get? (.ofNat 200)).map MenuItem.price = some (.ofInt32 7) := by decide
    have hp := Option.some.inj (hfirst.price.symm.trans hprice)
    have hp' := Option.some.inj (hsecond.price.symm.trans hprice)
    simp only [Order.addLines, OrderLine.total, hp, hp', hfirst.quantity, hsecond.quantity]
    exact ⟨_, rfl⟩
  have hhidden : hiddenDishes.Rejection soupKitchen.store (OrderCommand.unavailable [.ofNat 9, .ofNat 8]) :=
    .notOnMenu ⟨by decide, by decide, by decide⟩ _ htable rfl (by decide)
  obtain ⟨hplaced, -, -, -, hresult⟩ :=
    order_placed .arrival .standstill .standard soups soupKitchen hprices rfl rfl fun _ => hroom
  obtain ⟨-, -, hrejected, -⟩ := order_placed .arrival .standstill .standard hiddenDishes soupKitchen hprices rfl rfl
    fun h => absurd (notOffered_eq_nil.2 h.menu) (by decide)
  obtain ⟨r, hr⟩ := hplaced.2 hplaceable
  obtain ⟨o, rfl, ho, -⟩ := hresult r hr
  exact ⟨⟨o, hr, ho⟩, (hrejected _).2 hhidden⟩

end Service

end Brigade
