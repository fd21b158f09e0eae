/-
The event log, and the store that can be read off it.

`Store.Told` relates two stores and the events between them: the changes of status of an order or a table lead from its
first status to its last one (`Event.Leads`), what was decided on a goal set gives its status, and the goals that were
added to it are its goals, in order. Nothing happens without an event (`told_refl`), one write is told by the event that
belongs to it (`told_of_wrote`), and logs are put together (`Told.trans`), so a whole run is told by its events.
- `events_tell_store`: over an open channel a command announces exactly one event if it gives a result, and otherwise none;
  and the events of a run of commands tell the store after it.

An aggregate that is not stored counts as new: a new order is pending, which no phase of `Solo.protocol` says and placing
an order is followed once more for (`Placing`); a new goal set is blank; and commands add no tables.
-/
import Brigade.Proofs.GoalSetSteps
import Brigade.Proofs.OrderChange
import Brigade.Proofs.OrderNumbers
import Brigade.Proofs.ProgressHistory

namespace Brigade

/-! ## What events tell -/

namespace Event

/-- the aggregate that an event is about -/
def subject : Event → Kind × Id
  | .orderCreated o | .orderItemsChanged o | .orderStatusChanged o _ _ => (.order, o)
  | .tableStatusChanged t _ _ => (.table, t)
  | .goalPeriodCreated p _ _ => (.goalPeriod, p)
  | .goalSetCreated s | .goalAdded s _ | .goalUpdated s _ | .goalProgressSubmitted s _ | .goalProgressApproved s _
  | .goalProgressRejected s _ | .goalSetSubmitted s | .goalSetApproved s _ | .goalSetRejected s _ => (.goalSet, s)

/-- the change of status that an event tells of an order: the old one and the new one -/
def orderMove? (i : Id) : Event → Option (String × String)
  | .orderStatusChanged o old new => if o = i then some (old, new) else none
  | _ => none

/-- the change of status that an event tells of a table -/
def tableMove? (i : Id) : Event → Option (String × String)
  | .tableStatusChanged t old new => if t = i then some (old, new) else none
  | _ => none

/-- the status of a goal set after an event, by its status before -/
def goalSetStatus (i : Id) (before : Option GoalSetStatus) : Event → Option GoalSetStatus
  | .goalSetSubmitted s => if s = i then some .waitingForApproval else before
  | .goalSetApproved s _ => if s = i then some .approved else before
  | .goalSetRejected s _ => if s = i then some .returned else before
  | _ => before

/-- the goal that an event tells of as added to a goal set -/
def addedGoal? (i : Id) : Event → Option Id
  | .goalAdded s g => if s = i then some g else none
  | _ => none

variable {i : Id} {e : Event}

theorem orderMove?_of_other (h : e.subject ≠ (.order, i)) : e.orderMove? i = none := by
  cases e with
  | orderStatusChanged o old new => exact if_neg fun ho => h (congrArg (Prod.mk _) ho)
  | _ => rfl

theorem tableMove?_of_other (h : e.subject ≠ (.table, i)) : e.tableMove? i = none := by
  cases e with
  | tableStatusChanged t old new => exact if_neg fun ht => h (congrArg (Prod.mk _) ht)
  | _ => rfl

theorem goalSetStatus_of_other (before : Option GoalSetStatus) (h : e.subject ≠ (.goalSet, i)) :
    e.goalSetStatus i before = before := by
  cases e with
  | goalSetSubmitted s => exact if_neg fun hs => h (congrArg (Prod.mk _) hs)
  | goalSetApproved s u => exact if_neg fun hs => h (congrArg (Prod.mk _) hs)
  | goalSetRejected s u => exact if_neg fun hs => h (congrArg (Prod.mk _) hs)
  | _ => rfl

theorem addedGoal?_of_other (h : e.subject ≠ (.goalSet, i)) : e.addedGoal? i = none := by
  cases e with
  | goalAdded s g => exact if_neg fun hs => h (congrArg (Prod.mk _) hs)
  | _ => rfl

/-! ## Chains of changes -/

/-- the changes lead from one status to another: each begins where the one before it ended -/
def Leads : List (String × String) → String → String → Prop
  | [], first, last => first = last
  | (old, new) :: moves, first, last => old = first ∧ Leads moves new last

theorem Leads.append {ms ns : List (String × String)} {a b c : String} (h : Leads ms a b) (h' : Leads ns b c) :
    Leads (ms ++ ns) a c := by
  induction ms generalizing a with
  | nil =>
    obtain rfl : a = b := h
    exact h'
  | cons m ms ih => exact ⟨h.1, ih h.2⟩

end Event

/-! ## One write at one place -/

/-- the aggregate that a write is about -/
def Write.subject : Write → Kind × Id
  | .added k a => (k, Aggregate.id a)
  | .changed k old _ => (k, Aggregate.id old)

/-- the event of a write is about what is written -/
theorem Write.Announces.subject_eq {u : Write} {e : Event} (h : u.Announces e) : e.subject = u.subject := by
  cases u with
  | added k a =>
    change Event.ofAdded? k a = some e at h
    cases k <;> cases h <;> rfl
  | changed k old new =>
    obtain ⟨op, hop, he⟩ := h
    have hid : Aggregate.id new = Aggregate.id old := by simpa using hop.id_eq
    change e.subject = (k, Aggregate.id old)
    rw [← hid]
    cases k with
    | order => cases op <;> cases he <;> rfl
    | goalSet => cases op <;> cases he <;> rfl
    | table =>
      cases he
      rfl
    | menuItem => cases he
    | goalPeriod => cases he

/-- under an identity a write leaves what was there, stores what was not there, or puts an aggregate in the place of the
stored one -/
theorem Store.Wrote.get?_cases {s t : Store} {u : Write} (h : s.Wrote u t) (k : Kind) (i : Id) :
    (u.subject ≠ (k, i) ∧ (t.repo k).get? i = (s.repo k).get? i) ∨
      (∃ a, u = .added k a ∧ Aggregate.id a = i ∧ (s.repo k).get? i = none ∧ (t.repo k).get? i = some a) ∨
      ∃ old new, u = .changed k old new ∧ Aggregate.id new = i ∧ (s.repo k).get? i = some old ∧
        (t.repo k).get? i = some new := by
  cases h with
  | added free unused =>
    rename_i k' a
    by_cases hk : k = k'
    · subst hk
      rw [repo_setRepo]
      by_cases hi : Aggregate.id a = i
      · right; left
        subst hi
        have hnone : (s.repo k).get? (Aggregate.id a) = none := Repository.get?_eq_none.2 unused
        refine ⟨a, rfl, rfl, hnone, ?_⟩
        change ((s.repo k).items ++ [a]).find? _ = some a
        rw [List.find?_append, show (s.repo k).items.find? _ = none from hnone]
        simp
      · left
        refine ⟨fun h => hi (congrArg Prod.snd h), ?_⟩
        simp [Repository.get?, List.find?_append, hi]
    · rw [repo_setRepo_of_ne _ hk]
      exact .inl ⟨fun h => hk (congrArg Prod.fst h).symm, rfl⟩
  | changed op place first granted id version =>
    rename_i k' old new pre post
    by_cases hk : k = k'
    · subst hk
      rw [repo_setRepo]
      by_cases hi : Aggregate.id new = i
      · right; right
        subst hi
        have hnone : pre.find? (Aggregate.id · == Aggregate.id new) = none :=
          List.find?_eq_none.2 fun b hb => by simpa [id] using first b hb
        refine ⟨old, new, rfl, rfl, ?_, ?_⟩
        · rw [Repository.get?, place, List.find?_append, hnone, Option.none_or]
          exact List.find?_cons_of_pos (by simp [id])
        · rw [Repository.get?, List.find?_append, hnone, Option.none_or]
          exact List.find?_cons_of_pos (by simp)
      · left
        have hold : ¬Aggregate.id old = i := id ▸ hi
        refine ⟨fun h => hold (congrArg Prod.snd h), ?_⟩
        simp [Repository.get?, place, List.find?_append, hi, hold]
    · rw [repo_setRepo_of_ne _ hk]
      exact .inl ⟨fun h => hk (congrArg Prod.fst h).symm, rfl⟩

/-- what commands add: pending orders, blank goal sets, periods -/
def Write.AddsNew : Write → Prop
  | .added .order o => Order.status o = .pending
  | .added .goalSet s => GoalSet.Blank s
  | .added .goalPeriod _ => True
  | .added .table _ | .added .menuItem _ => False
  | .changed .. => True

/-! ## Stores and the events between them -/

namespace Store

/-- the status of an order, or the one that it will be placed with -/
def orderStatus (s : Store) (i : Id) : OrderStatus := ((s.orders.get? i).map Order.status).getD .pending

/-- the status of a table, if there is one -/
def tableStatus? (s : Store) (i : Id) : Option TableStatus := (s.tables.get? i).map Table.status

/-- the status of a goal set; a new one has none -/
def goalSetStatus (s : Store) (i : Id) : Option GoalSetStatus := (s.goalSets.get? i).bind GoalSet.status

/-- the identities of the goals of a goal set; a new one has no goals -/
def goalIds (s : Store) (i : Id) : List Id := ((s.goalSets.get? i).map fun g => g.goals.map Goal.id).getD []

section Lookups

variable {s : Store} {i : Id}

theorem orderStatus_of_some {o : Order} (h : s.orders.get? i = some o) : s.orderStatus i = o.status := by
  simp [orderStatus, h]

theorem orderStatus_of_none (h : s.orders.get? i = none) : s.orderStatus i = .pending := by simp [orderStatus, h]

theorem tableStatus?_of_some {a : Table} (h : s.tables.get? i = some a) : s.tableStatus? i = some a.status := by
  simp [tableStatus?, h]

theorem goalSet_of_some {g : GoalSet} (h : s.goalSets.get? i = some g) :
    s.goalSetStatus i = g.status ∧ s.goalIds i = g.goals.map Goal.id := by
  simp [goalSetStatus, goalIds, h]

theorem goalSet_of_none (h : s.goalSets.get? i = none) : s.goalSetStatus i = none ∧ s.goalIds i = [] := by
  simp [goalSetStatus, goalIds, h]

end Lookups

/-- the events tell what becomes of the store -/
structure Told (s : Store) (es : List Event) (t : Store) : Prop where
  orders : ∀ i, Event.Leads (es.filterMap (Event.orderMove? i)) (s.orderStatus i).name (t.orderStatus i).name
  tables : ∀ i b, t.tableStatus? i = some b →
    ∃ a, s.tableStatus? i = some a ∧ Event.Leads (es.filterMap (Event.tableMove? i)) a.name b.name
  sets : ∀ i, es.foldl (Event.goalSetStatus i) (s.goalSetStatus i) = t.goalSetStatus i
  goals : ∀ i, s.goalIds i ++ es.filterMap (Event.addedGoal? i) = t.goalIds i

variable {s t r : Store} {es fs : List Event} {u : Write} {e : Event}

theorem told_refl (s : Store) : s.Told [] s :=
  ⟨fun _ => rfl, fun _ a ha => ⟨a, ha, rfl⟩, fun _ => rfl, fun _ => List.append_nil _⟩

theorem Told.trans (h : s.Told es t) (h' : t.Told fs r) : s.Told (es ++ fs) r := by
  refine ⟨fun i => ?_, fun i c hc => ?_, fun i => ?_, fun i => ?_⟩
  · rw [List.filterMap_append]
    exact (h.orders i).append (h'.orders i)
  · obtain ⟨b, hb, hbc⟩ := h'.tables i c hc
    obtain ⟨a, ha, hab⟩ := h.tables i b hb
    rw [List.filterMap_append]
    exact ⟨a, ha, hab.append hbc⟩
  · rw [List.foldl_append, h.sets i, h'.sets i]
  · rw [List.filterMap_append, ← List.append_assoc, h.goals i, h'.goals i]

end Store

/-! ## One write is told by its event -/

/-- an operation on an order keeps its status, or the event has the old one and the new one -/
theorem Order.Change.leads {o o' : Order} {op : Order.Op} {e : Event} (h : Order.Change o op o')
    (he : Event.ofOrderOp? o o' op = some e) :
    Event.Leads ([e].filterMap (Event.orderMove? o'.id)) o.status.name o'.status.name := by
  cases h with
  | noted n => cases he
  | lineAdded i m q p n total pending quantity price => cases he; exact rfl
  | linesRemoved i total pending => cases he; exact rfl
  | quantitySet i q total pending quantity => cases he; exact rfl
  | _ =>
    cases he
    simp [Event.orderMove?, Event.Leads]

/-- the event of an operation on a goal set has the status afterwards, if it is another one -/
theorem GoalSet.Change.told {s t : GoalSet} {op : GoalSet.Op} (h : GoalSet.Change s op t) :
    (Event.ofGoalSetOp t op).goalSetStatus t.id s.status = t.status := by
  cases h <;> simp [Event.ofGoalSetOp, Event.goalSetStatus, GoalSet.changeGoal]

/-- the event of an operation on a goal set names the goal that is added to it, if there is one -/
theorem GoalSet.Change.told_goals {s t : GoalSet} {op : GoalSet.Op} (h : GoalSet.Change s op t) :
    s.goals.map Goal.id ++ [Event.ofGoalSetOp t op].filterMap (Event.addedGoal? t.id) = t.goals.map Goal.id := by
  rw [GoalSet.ids_of_change h]
  cases op with
  | addGoal i title type value percentage => simp [Event.ofGoalSetOp, Event.addedGoal?, GoalSet.Op.added?]
  | _ => rfl

namespace Store

variable {s t : Store} {u : Write} {e : Event}

theorem orders_told (h : s.Wrote u t) (he : u.Announces e) (hnew : u.AddsNew) (i : Id) :
    Event.Leads ([e].filterMap (Event.orderMove? i)) (s.orderStatus i).name (t.orderStatus i).name := by
  rcases h.get?_cases .order i with ⟨hother, hsame⟩ | ⟨a, rfl, -, hnone, hsome⟩ | ⟨old, new, rfl, rfl, hold, hstored⟩
  · have hsame : t.orders.get? i = s.orders.get? i := hsame
    rw [List.filterMap_cons_none (Event.orderMove?_of_other (he.subject_eq ▸ hother)), orderStatus, orderStatus, hsame]
    exact rfl
  · have hpending : a.status = .pending := hnew
    cases he
    rw [orderStatus_of_none hnone, orderStatus_of_some hsome, hpending]
    exact rfl
  · obtain ⟨op, hop, he⟩ := he
    have he : Event.ofOrderOp? old (Aggregate.withVersion new (Aggregate.version old)) op = some e := by
      cases op <;> exact he
    rw [orderStatus_of_some hold, orderStatus_of_some hstored]
    exact (Order.change_of_apply hop).leads he

theorem tables_told (h : s.Wrote u t) (he : u.Announces e) (hnew : u.AddsNew) (i : Id) {b : TableStatus}
    (hb : t.tableStatus? i = some b) :
    ∃ a, s.tableStatus? i = some a ∧ Event.Leads ([e].filterMap (Event.tableMove? i)) a.name b.name := by
  rcases h.get?_cases .table i with ⟨hother, hsame⟩ | ⟨a, rfl, -⟩ | ⟨old, new, rfl, rfl, hold, hstored⟩
  · have hsame : t.tableStatus? i = s.tableStatus? i := congrArg (Option.map Table.status) hsame
    rw [List.filterMap_cons_none (Event.tableMove?_of_other (he.subject_eq ▸ hother))]
    exact ⟨b, hsame ▸ hb, rfl⟩
  · exact hnew.elim
  · rw [tableStatus?_of_some hstored] at hb
    obtain rfl := Option.some.inj hb
    obtain ⟨op, hop, he⟩ := he
    cases he
    have hmove : (Event.tableStatusChanged new.id old.status.name new.status.name).tableMove? new.id =
        some (old.status.name, new.status.name) := if_pos rfl
    refine ⟨old.status, tableStatus?_of_some hold, ?_⟩
    exact (List.filterMap_cons_some (l := []) hmove).symm ▸ ⟨rfl, rfl⟩

theorem sets_told (h : s.Wrote u t) (he : u.Announces e) (hnew : u.AddsNew) (i : Id) :
    e.goalSetStatus i (s.goalSetStatus i) = t.goalSetStatus i ∧
      s.goalIds i ++ [e].filterMap (Event.addedGoal? i) = t.goalIds i := by
  rcases h.get?_cases .goalSet i with ⟨hother, hsame⟩ | ⟨a, rfl, -, hnone, hsome⟩ | ⟨old, new, rfl, rfl, hold, hstored⟩
  · have hsame : t.goalSets.get? i = s.goalSets.get? i := hsame
    rw [← he.subject_eq] at hother
    rw [List.filterMap_cons_none (Event.addedGoal?_of_other hother), Event.goalSetStatus_of_other _ hother,
      goalSetStatus, goalSetStatus, goalIds, goalIds, hsame]
    exact ⟨rfl, List.append_nil _⟩
  · obtain ⟨hstatus, hgoals⟩ : GoalSet.Blank a := hnew
    obtain ⟨hnostatus, hnoids⟩ := goalSet_of_none hnone
    obtain ⟨hstored, hids⟩ := goalSet_of_some hsome
    cases he
    rw [hnostatus, hnoids, hstored, hids, hstatus, hgoals]
    exact ⟨rfl, rfl⟩
  · obtain ⟨op, hop, he⟩ := he
    obtain rfl : Event.ofGoalSetOp (Aggregate.withVersion new (Aggregate.version old)) op = e := by
      cases op <;> exact Option.some.inj he
    have hchange := GoalSet.change_of_apply hop
    rw [(goalSet_of_some hold).1, (goalSet_of_some hold).2, (goalSet_of_some hstored).1, (goalSet_of_some hstored).2]
    exact ⟨hchange.told, hchange.told_goals⟩

/-- a write is told by the event that belongs to it -/
theorem told_of_wrote (h : s.Wrote u t) (he : u.Announces e) (hnew : u.AddsNew) : s.Told [e] t :=
  ⟨orders_told h he hnew, fun i _ => tables_told h he hnew i, fun i => (sets_told h he hnew i).1,
    fun i => (sets_told h he hnew i).2⟩

end Store

/-! ## New orders are pending -/

namespace Placing

variable {α β : Type}

/-- nothing is written but pending orders, which are added -/
def protocol : Protocol Unit where
  first := ()
  asks
    | _, .add .order o => Order.status o = .pending
    | _, .add _ _ | _, .update _ _ => False
    | _, _ => True
  answers _ _ := True
  after _ _ _ := ()

instance : protocol.Counting := ⟨fun _ _ => ⟨trivial, rfl⟩⟩

/-- what is known of the value, if the task has one -/
def Yields (q : α → Prop) (_ : Unit) (e : Ending α) : Prop := ∀ a, e = .value a → q a

/-- along every path of replies nothing but pending orders is written -/
def Careful (q : α → Prop) (t : Task α) : Prop := t.plan.Keeps protocol (Yields q) ()

variable {q : α → Prop} {q' : β → Prop} {t : Task α} {cont : α → Task β}

theorem Careful.bind (ht : Careful q t) (hcont : ∀ a, q a → Careful q' (cont a)) : Careful q' (t >>= cont) := by
  refine Task.keeps_bind.2 (Plan.Keeps.mono ht fun _ e he => ?_)
  cases e with
  | value a => exact hcont a (he a rfl)
  | _ => exact nofun

theorem Careful.ite {c : Prop} [Decidable c] {t' : Task α} (ht : c → Careful q t) (ht' : ¬c → Careful q t') :
    Careful q (if c then t else t') := Task.keeps_ite ht ht'

theorem Careful.counted {metrics : Ending α → List Metric} (ht : Careful q t) : Careful q (Task.counted metrics t) :=
  Task.counted_keeps ht

theorem careful_fail {f : Failure} : Careful q (Task.fail f) := nofun

theorem careful_pure {a : α} (h : q a) : Careful q (pure a) := fun _ ha => Ending.value.inj ha ▸ h

theorem careful_get (k : Kind) (i : Id) : Careful (fun _ => True) (Task.get k i) := ⟨trivial, fun _ _ _ _ => trivial⟩

theorem careful_orFail {f : Failure} {o : Option α} : Careful (fun _ => True) (Task.orFail f o) :=
  Task.keeps_orFail.2 ⟨fun _ => nofun, fun _ _ _ _ => trivial⟩

theorem careful_ofOutcome {ε : Type} {refusal : ε → Refusal} {x : Outcome ε α} (h : ∀ a, x = .ok a → q a) :
    Careful q (Task.ofOutcome refusal x) :=
  Task.keeps_ofOutcome.2 ⟨fun a ha _ hb => Ending.value.inj hb ▸ h a ha, fun _ _ => nofun, fun _ _ => nofun⟩

theorem careful_freshId : Careful (fun _ => True) Task.freshId := ⟨trivial, fun _ _ _ _ => trivial⟩

theorem careful_clock : Careful (fun _ => True) Task.clock := ⟨trivial, fun _ _ _ _ => trivial⟩

theorem careful_lookUp (ls : List LineRequest) : Careful (fun _ => True) (CreateOrder.lookUp ls) := by
  induction ls with
  | nil => exact careful_pure trivial
  | cons l ls ih =>
    refine (careful_get _ _).bind fun m _ => ih.bind fun found _ => ?_
    cases m with
    | none => exact careful_pure trivial
    | some m => exact careful_pure trivial

/-- lines leave the status alone -/
theorem careful_addLines (ls : List (LineRequest × MenuItem)) (o : Order) (h : o.status = .pending) :
    Careful (fun o' => o'.status = .pending) (CreateOrder.addLines o ls) := by
  induction ls generalizing o with
  | nil => exact careful_pure h
  | cons l ls ih =>
    refine careful_freshId.bind fun i _ => ?_
    refine Careful.bind (careful_ofOutcome (q := fun o' => o'.status = .pending) fun o' ho' => ?_) ih
    have happly : o.apply (.addLine i l.2.id l.1.quantity l.2.price l.1.instructions) = .ok o' := ho'
    cases Order.change_of_apply happly with
    | lineAdded i m q p n total pending quantity price => exact pending

theorem careful_createOrder (c : CreateOrder) (front : String) : Careful (fun _ => True) (c.task front) := by
  have hstore : Careful (fun _ => True) (c.store front) := by
    refine (careful_get _ _).bind fun t _ => careful_orFail.bind fun t _ => ?_
    refine Careful.ite (fun _ => careful_fail) fun _ => ?_
    refine (careful_lookUp c.lines).bind fun found _ => ?_
    refine Careful.ite (fun _ => careful_fail) fun _ => ?_
    refine careful_clock.bind fun now _ => careful_freshId.bind fun i _ => careful_clock.bind fun date _ => ?_
    refine Careful.bind (careful_ofOutcome (q := fun o => o.status = .pending) fun o ho => ?_) fun o ho => ?_
    · unfold Order.create at ho
      split at ho
      · cases ho
      · exact Outcome.ok.inj ho ▸ rfl
    · exact (careful_addLines _ o ho).bind fun o' ho' => ⟨ho', fun _ _ _ _ => trivial⟩
  have hproblem : Careful (fun _ => True) (Task.unless? c.problem?) :=
    Task.keeps_unless?.2 ⟨fun _ _ _ => trivial, fun _ _ => nofun⟩
  have hpublish : ∀ e describe, Careful (fun _ => True) (Task.publish e describe) :=
    fun _ _ => ⟨trivial, fun _ _ _ _ => trivial⟩
  have hcount : Careful (fun _ => True) (Task.count .orderCreations) := ⟨trivial, fun _ _ _ _ => trivial⟩
  refine hproblem.counted.bind fun _ _ => hstore.counted.bind fun o _ => ?_
  exact (hpublish _ _).counted.bind fun _ _ => hcount.bind fun _ _ => careful_pure trivial

variable {l : Listing} {env : Surroundings} {before s : Service}

/-- the orders of the service are those from before, or pending -/
def OldOrPending (before s : Service) : Prop :=
  ∀ o ∈ s.store.orders.items, o ∈ before.store.orders.items ∨ o.status = .pending

theorem oldOrPending_add {o : Order} (h : OldOrPending before s) (ho : o.status = .pending) :
    OldOrPending before (Service.answer env (.add .order o) s).2 := by
  rcases hadd : (s.store.repo .order).add o with ⟨f | u, r⟩
  · rw [Service.answer_add_of_error (congrArg Prod.fst hadd)]
    exact h
  · rw [Service.answer_add_of_ok hadd]
    cases hadd ▸ Repository.add_case (s.store.repo .order) o with
    | stored free unused =>
      intro o' ho'
      rcases List.mem_append.1 ho' with hold | hlast
      · exact h o' hold
      · exact .inr (List.mem_singleton.1 hlast ▸ ho)

theorem oldOrPending_answerIn {r : Request} (h : OldOrPending before s) (hasks : protocol.asks () r) :
    OldOrPending before (Service.answerIn l env r s).2 := by
  cases r with
  | add k a =>
    cases k with
    | order => exact @oldOrPending_add env before s a h hasks
    | _ => exact hasks.elim
  | update k a => exact hasks.elim
  | _ =>
    unfold OldOrPending
    rw [Service.store_answerIn rfl]
    exact h

/-- a careful task leaves no orders that are new and not pending -/
theorem Careful.run (ht : Careful q t) (s : Service) : OldOrPending s (t.plan.run (Service.answerIn l env) s).2 := by
  have hstep : ∀ (ph : Unit) r m, OldOrPending s m → protocol.asks ph r →
      protocol.answers r (Service.answerIn l env r m).1 ∧ OldOrPending s (Service.answerIn l env r m).2 :=
    fun _ _ _ hm hasks => ⟨trivial, oldOrPending_answerIn hm hasks⟩
  obtain ⟨-, -, hkept⟩ := Plan.Keeps.run hstep ht fun o ho => .inl ho
  exact hkept

end Placing

/-! ## One command -/

/-- the order that a command has added is pending -/
theorem Solo.pending_of_added (w : Solo) {o : Order} {c : CreateOrder} (hc : w.command = .createOrder c)
    (hwrote : w.before.store.Wrote (.added .order o) w.outcome.2.store) : o.status = .pending := by
  have hcareful : Placing.Careful (fun _ => True) ((Command.createOrder c).task w.settings) := by
    exact (Placing.careful_createOrder c _).bind fun _ _ => Placing.careful_pure trivial
  rw [← hc] at hcareful
  have hrun : Placing.OldOrPending w.before w.outcome.2 := hcareful.run w.before
  unfold Placing.OldOrPending at hrun
  generalize w.outcome.2.store = t at hwrote hrun
  cases hwrote with
  | added free unused =>
    rcases hrun o (List.mem_append_right _ (List.mem_singleton_self o)) with hold | hpending
    · exact absurd rfl (unused o hold)
    · exact hpending

theorem Solo.addsNew_of_wrote (w : Solo) {u : Write} (h : w.Wrote u w.outcome.2) : u.AddsNew := by
  obtain ⟨hwrote, d, -, hallows⟩ := h
  cases u with
  | changed k old new => cases k <;> exact trivial
  | added k a =>
    cases k with
    | order =>
      obtain ⟨c, -, hc, -⟩ := hallows
      exact w.pending_of_added hc hwrote
    | goalSet =>
      obtain ⟨c, i, p, -, -, -, -, rfl⟩ := hallows
      exact ⟨rfl, rfl⟩
    | goalPeriod => exact trivial
    | table => exact hallows.elim
    | menuItem => exact hallows.elim

namespace Service

variable {s : Service}

/-- how a command has left a service that somebody listens to: it made one write and announced it, and gives a result; or it
changed nothing and announced nothing, and gives none -/
def Logged {α : Type} (s : Service) : Ending α × Service → Prop
  | (.value _, t) => ∃ u e, s.store.Wrote u t.store ∧ u.Announces e ∧ u.AddsNew ∧ t.events = s.events ++ [e]
  | (_, t) => t.store = s.store ∧ t.events = s.events

theorem logged_executeIn (l : Listing) (env : Surroundings) (settings : Settings) (c : Command)
    (hopen : s.channelOpen = true) : s.Logged (s.executeIn l env settings c) := by
  let w : Solo := ⟨env, l, settings, c, s⟩
  obtain ⟨ph, hends, hinv⟩ := w.outcome_ends
  have hnew : ∀ u, w.Wrote u w.outcome.2 → u.AddsNew := fun u => w.addsNew_of_wrote
  change s.Logged w.outcome
  generalize w.outcome = out at hends hinv hnew
  obtain ⟨e, t⟩ := out
  have hquiet : (∃ d, ph = .preparing d) → t.store = s.store ∧ t.events = s.events := by
    rintro ⟨d, rfl⟩
    exact ⟨hinv.1, hinv.2.1⟩
  cases e with
  | value a =>
    obtain rfl : ph = .announced := hends
    obtain ⟨u, e, hwrote, he, hevents⟩ := hinv
    exact ⟨u, e, hwrote.1, he, hnew u hwrote, hevents⟩
  | failure f =>
    cases f with
    | event m =>
      -- the announcement is heard
      obtain rfl : ph = .unheard := hends
      obtain ⟨-, -, -, hclosed⟩ := hinv
      exact absurd (hopen.symm.trans hclosed) nofun
    | _ => exact hquiet hends
  | fault f => exact hquiet hends
  | silence => exact hends.elim

/-- a command is told by the events that it announced -/
theorem told_executeIn (l : Listing) (env : Surroundings) (settings : Settings) (c : Command)
    (hopen : s.channelOpen = true) :
    ∃ es, (s.executeIn l env settings c).2.events = s.events ++ es ∧
      s.store.Told es (s.executeIn l env settings c).2.store := by
  have hlogged := logged_executeIn l env settings c hopen
  generalize s.executeIn l env settings c = out at hlogged
  obtain ⟨e, t⟩ := out
  cases e with
  | value a =>
    obtain ⟨u, e, hwrote, he, hnew, hevents⟩ := hlogged
    exact ⟨[e], hevents, Store.told_of_wrote hwrote he hnew⟩
  | _ =>
    obtain ⟨hstore, hevents⟩ := hlogged
    refine ⟨[], hevents.trans (List.append_nil _).symm, ?_⟩
    change s.store.Told [] t.store
    rw [hstore]
    exact Store.told_refl _

/-- a run is told by the events that were announced in it -/
theorem told_executeAllIn (env : Surroundings) (settings : Settings) (cs : List (Listing × Command))
    (hopen : s.channelOpen = true) :
    ∃ es, (s.executeAllIn env settings cs).events = s.events ++ es ∧
      s.store.Told es (s.executeAllIn env settings cs).store := by
  induction cs using List.reverseRecOn with
  | nil => exact ⟨[], (List.append_nil _).symm, Store.told_refl _⟩
  | append_singleton cs c ih =>
    obtain ⟨l, c⟩ := c
    obtain ⟨es, hevents, htold⟩ := ih
    obtain ⟨fs, hevents', htold'⟩ := told_executeIn l env settings c
      ((channelOpen_executeAllIn settings cs).trans hopen)
    rw [executeAllIn_snoc]
    refine ⟨es ++ fs, ?_, htold.trans htold'⟩
    rw [hevents', hevents, List.append_assoc]

/-- **The events tell the store.** Commands are run one after another, over an open channel. Each one that gives a result
has announced one event, and no other one has announced any. The events of the whole run tell the store after it: the
changes of status of an order or a table lead, one from where the other led, from the status that it had before the run (a
new order is pending, tables are not added) to the one that is stored; what was announced of decisions on a goal set gives
its status, and the goals that were announced as added are its goals in their order, after those it had before the run (a
new set has no status and no goals). -/
theorem events_tell_store (env : Surroundings) (settings : Settings) (start : Service) (cs : List (Listing × Command))
    (hopen : start.channelOpen = true) :
    (∀ pre l c post, cs = pre ++ (l, c) :: post →
      (start.executeAllIn env settings pre).Logged ((start.executeAllIn env settings pre).executeIn l env settings c)) ∧
    ∃ es, (start.executeAllIn env settings cs).events = start.events ++ es ∧
      (∀ i o, (start.executeAllIn env settings cs).store.orders.get? i = some o →
        Event.Leads (es.filterMap (Event.orderMove? i)) (start.store.orderStatus i).name o.status.name) ∧
      (∀ i t, (start.executeAllIn env settings cs).store.tables.get? i = some t →
        ∃ t₀, start.store.tables.get? i = some t₀ ∧
          Event.Leads (es.filterMap (Event.tableMove? i)) t₀.status.name t.status.name) ∧
      ∀ i g, (start.executeAllIn env settings cs).store.goalSets.get? i = some g →
        es.foldl (Event.goalSetStatus i) (start.store.goalSetStatus i) = g.status ∧
          start.store.goalIds i ++ es.filterMap (Event.addedGoal? i) = g.goals.map Goal.id := by
  refine ⟨fun pre l c post _ => ?_, ?_⟩
  · exact logged_executeIn l env settings c ((channelOpen_executeAllIn settings pre).trans hopen)
  obtain ⟨es, hevents, htold⟩ := told_executeAllIn env settings cs hopen
  refine ⟨es, hevents, fun i o ho => ?_, fun i t ht => ?_, fun i g hg => ⟨?_, ?_⟩⟩
  · exact Store.orderStatus_of_some ho ▸ htold.orders i
  · obtain ⟨a, ha, hleads⟩ := htold.tables i t.status (Store.tableStatus?_of_some ht)
    obtain ⟨t₀, ht₀, rfl⟩ := Option.map_eq_some_iff.1 ha
    exact ⟨t₀, ht₀, hleads⟩
  · exact (htold.sets i).trans (Store.goalSet_of_some hg).1
  · exact (htold.goals i).trans (Store.goalSet_of_some hg).2

/-- a soup is ordered and cooked, with one move asked for twice, and its table is taken; a goal set is handed in and
returned -/
def cookedAndReturned : List (Listing × Command) :=
  [orderSoup, .advanceOrder ⟨.ofNat 0, .preparing⟩, .advanceOrder ⟨.ofNat 0, .preparing⟩,
    .moveTable ⟨.ofNat 100, .occupied⟩, .advanceOrder ⟨.ofNat 0, .ready⟩, .addGoalPeriod ⟨1, 2030⟩,
    .createGoalSet ⟨1, 5, 2030⟩, .addGoal ⟨.ofNat 3, "Ship it", .team, 1, 2, 3, .number, 100⟩,
    .submitProgress ⟨.ofNat 3, .ofNat 4, 2, none⟩, .approveProgress ⟨.ofNat 3, .ofNat 4⟩, .sendToApproval ⟨.ofNat 3⟩,
    .rejectGoalSet ⟨.ofNat 3, 9⟩].map (.arrival, ·)

theorem events_tell_store_returned :
    soupKitchen.channelOpen = true ∧
      ∃ es, (soupKitchen.executeAllIn .standstill .standard cookedAndReturned).events = es ∧ es.length = 11 ∧
        Event.Leads (es.filterMap (Event.orderMove? (.ofNat 0))) "Pending" "Ready" ∧
        es.foldl (Event.goalSetStatus (.ofNat 3)) none = some .returned ∧
        es.filterMap (Event.addedGoal? (.ofNat 3)) = [.ofNat 4] := by
  obtain ⟨-, es, hevents, horders, -, hsets⟩ := events_tell_store .standstill .standard soupKitchen cookedAndReturned rfl
  have hlength : (soupKitchen.executeAllIn .standstill .standard cookedAndReturned).events.length = 11 := by
    decide +kernel
  obtain ⟨o, ho, hstatus⟩ : ∃ o,
      (soupKitchen.executeAllIn .standstill .standard cookedAndReturned).store.orders.get? (.ofNat 0) = some o ∧
        o.status = .ready := Option.map_eq_some_iff.1 (by decide +kernel)
  obtain ⟨g, hg, hgoals⟩ : ∃ g,
      (soupKitchen.executeAllIn .standstill .standard cookedAndReturned).store.goalSets.get? (.ofNat 3) = some g ∧
        (g.status, g.goals.map Goal.id) = (some .returned, [.ofNat 4]) := Option.map_eq_some_iff.1 (by decide +kernel)
  obtain ⟨hreturned, hadded⟩ := Prod.mk.inj hgoals
  refine ⟨rfl, es, hevents, (congrArg List.length hevents).symm.trans hlength, ?_, ?_, ?_⟩
  · have hleads := horders _ o ho
    rw [hstatus] at hleads
    exact hleads
  · exact (hsets _ g hg).1.trans hreturned
  · exact (hsets _ g hg).2.trans hadded

end Service

end Brigade
