/-
Commands on orders and tables as clients of a service that others use too.

All eight of them keep to one protocol, `Floor.protocol`: a command fetches one order or one table, writes once, and then
announces its write; before the write it looks up menu items, draws identities and times, and counts. What it writes is
told by `Writes`: the copy that it fetched under its identity and version, changed, or a new order at the table that it
fetched and that was available.
- `task_keeps_floor`: every command on orders and tables keeps to the protocol, whatever the fetches give.

`Tells` says what the history of such a command looks like in each phase.
-/
import Brigade.Command
import Brigade.Proofs.Paths
import Brigade.Proofs.Solo

namespace Brigade

/-- a lookup on the menu, a draw or a count -/
def Request.isQuiet : Request → Bool
  | .get .menuItem _ | .freshId | .clock | .count _ => true
  | _ => false

theorem Request.isWrite_of_isQuiet {r : Request} (h : r.isQuiet = true) : r.isWrite = false := by
  cases r <;> first | rfl | cases h

/-- a command that acts on an order or a table -/
def Command.onFloor : Command → Bool
  | .createOrder _ | .addItem _ | .removeItem _ | .setItemQuantity _ | .moveOrder _ | .advanceOrder _ | .moveTable _
  | .setTable _ => true
  | _ => false

/-- a command on the floor, beside others -/
structure Floor where
  /-- whether somebody listens to events -/
  heard : Bool
  /-- the menu, which nobody writes -/
  menu : Repository MenuItem
  /-- the orders that the command may place -/
  places : CreateOrder → Prop

namespace Floor

variable {α β ε : Type}

/-- where a command is -/
inductive Phase where
  | arriving
  /-- one order or table was fetched, and this was found -/
  | holding (k : Kind) (i : Id) (found : Option k.Member)
  | written
  /-- the write was refused -/
  | refused

/-- the command has not tried to write yet -/
def Phase.Open : Phase → Prop
  | .arriving | .holding _ _ _ => True
  | .written | .refused => False

/-- what a command writes, by what it has fetched -/
inductive Writes (w : Floor) : Phase → Request → Prop where
  | update {k : Kind} {a c : k.Member} (floor : k ≠ .menuItem) (version : Aggregate.version a = Aggregate.version c) :
      Writes w (.holding k (Aggregate.id a) (some c)) (.update k a)
  | add {c : CreateOrder} {t : Table} {o : Order} (placed : w.places c) (available : t.isAvailable = true)
      (table : o.tableId = c.tableId) : Writes w (.holding .table c.tableId (some t)) (.add .order o)

/-- fetch an order or a table, write once, announce the write -/
def protocol (w : Floor) : Protocol Phase where
  first := .arriving
  asks ph r :=
    match ph with
    | .arriving => r.isQuiet = true ∨ ∃ i, r = .get .order i ∨ r = .get .table i
    | .holding _ _ _ => r.isQuiet = true ∨ w.Writes ph r
    | .written => (∃ e, r = .publish e) ∨ ∃ m, r = .count m
    | .refused => ∃ m, r = .count m
  answers
    | .get .menuItem i, x => x = .value (w.menu.get? i)
    | .get _ i, x => ∃ found, x = .value found ∧ ∀ a, found = some a → Aggregate.id a = i
    | .add _ _, x => x ≠ .silence ∧ ∀ m, x ≠ .failure (.event m)
    | .update _ _, x => x ≠ .silence ∧ ∀ m, x ≠ .failure (.event m)
    | .publish _, x => x = w.heard
    | _, _ => True
  after ph
    | .get .order i, x =>
      match x with
      | .value found => .holding .order i found
      | _ => ph
    | .get .table i, x =>
      match x with
      | .value found => .holding .table i found
      | _ => ph
    | .add _ _, x =>
      match x with
      | .value _ => .written
      | _ => .refused
    | .update _ _, x =>
      match x with
      | .value _ => .written
      | _ => .refused
    | _, _ => ph

/-- in which phase a failure may end a command -/
def FailureEnds (w : Floor) (ph : Phase) : Failure → Prop
  | .event _ => ph = .written ∧ w.heard = false
  | _ => ph ≠ .written

/-- in which phase a command ends how -/
def Ends (w : Floor) (ph : Phase) : Ending α → Prop
  | .value _ => ph = .written
  | .failure f => FailureEnds w ph f
  | .fault _ => ph ≠ .written
  | .silence => False

variable {w : Floor} {ph : Phase} {k : Kind} {i : Id}

/-- a command that has written ends with a value, unless nobody listens -/
theorem ends_of_written {e : Ending α} (h : Ends w .written e) :
    (∃ a, e = .value a) ∨ w.heard = false ∧ ∃ m, e = .failure (.event m) := by
  cases e with
  | value a => exact .inl ⟨a, rfl⟩
  | failure f =>
    cases f with
    | event m => exact .inr ⟨h.2, m, rfl⟩
    | _ => exact absurd rfl h
  | fault f => exact absurd rfl h
  | silence => exact h.elim

theorem open_holding {found : Option k.Member} : (Phase.holding k i found).Open := trivial

theorem failureEnds_of_unwritten {f : Failure} (hph : ph ≠ .written) (h : f.kind ≠ .event) : FailureEnds w ph f := by
  cases f with
  | event m => exact absurd rfl h
  | _ => exact hph

/-! ## Requests -/

/-- before the write a command may make quiet requests, and they leave it where it is -/
theorem asks_quiet {r : Request} (hph : ph.Open) (hr : r.isQuiet = true) :
    w.protocol.asks ph r ∧ ∀ x, w.protocol.after ph r x = ph := by
  have hasks : w.protocol.asks ph r := by
    cases ph with
    | arriving => exact .inl hr
    | holding k i found => exact .inl hr
    | written => exact hph.elim
    | refused => exact hph.elim
  refine ⟨hasks, fun x => ?_⟩
  cases r with
  | get k i =>
    cases k with
    | menuItem => rfl
    | _ => cases hr
  | freshId => rfl
  | clock => rfl
  | count m => rfl
  | _ => cases hr

/-- counting is allowed in every phase -/
instance : w.protocol.Counting where
  count ph m := by
    cases ph with
    | written => exact ⟨.inr ⟨m, rfl⟩, rfl⟩
    | refused => exact ⟨⟨m, rfl⟩, rfl⟩
    | _ => exact ⟨.inl rfl, rfl⟩

section Requests

variable {ends : Phase → Ending β → Prop}

theorem freshId_keeps {cont : Id → Task β} (hph : ph.Open) (h : ∀ i, (cont i).plan.Keeps w.protocol ends ph) :
    (Task.freshId >>= cont).plan.Keeps w.protocol ends ph :=
  Task.keeps_bind.2 ⟨(asks_quiet hph rfl).1, fun i _ => h i⟩

theorem clock_keeps {cont : Timestamp → Task β} (hph : ph.Open)
    (h : ∀ t, (cont t).plan.Keeps w.protocol ends ph) : (Task.clock >>= cont).plan.Keeps w.protocol ends ph :=
  Task.keeps_bind.2 ⟨(asks_quiet hph rfl).1, fun t _ => h t⟩

/-- a menu item is fetched in every phase that is open, and the command stays there -/
theorem menuItem_keeps (hph : ph.Open) (i : Id) :
    (Task.get .menuItem i).plan.Keeps w.protocol (fun ph' e => ph' = ph ∧ ∃ m, e = .value m) ph := by
  refine ⟨(asks_quiet hph rfl).1, fun x hx => ?_⟩
  obtain rfl : x = .value (w.menu.get? i) := hx
  exact ⟨rfl, _, rfl⟩

/-- an order or a table is fetched, or the command fails -/
theorem load_keeps {f : Failure} {cont : k.Member → Task β} (hk : k = .order ∨ k = .table)
    (hmissing : ends (.holding k i none) (.failure f))
    (h : ∀ a, Aggregate.id a = i → (cont a).plan.Keeps w.protocol ends (.holding k i (some a))) :
    ((Task.get k i >>= Task.orFail f) >>= cont).plan.Keeps w.protocol ends .arriving := by
  have hfound : ∀ found : Option k.Member, (∀ a, found = some a → Aggregate.id a = i) →
      (Task.orFail f found).plan.Keeps w.protocol (Task.Passes w.protocol ends cont) (.holding k i found) := by
    rintro (_ | a) hid
    · exact hmissing
    · exact h a (hid a rfl)
  obtain rfl | rfl := hk
  · refine Task.keeps_bind.2 (Task.keeps_bind.2 ⟨.inr ⟨i, .inl rfl⟩, fun x hx => ?_⟩)
    obtain ⟨found, rfl, hid⟩ := hx
    exact hfound found hid
  · refine Task.keeps_bind.2 (Task.keeps_bind.2 ⟨.inr ⟨i, .inr rfl⟩, fun x hx => ?_⟩)
    obtain ⟨found, rfl, hid⟩ := hx
    exact hfound found hid

theorem publish_keeps {e : Event} {describe : String → String} {ends : Phase → Ending Unit → Prop}
    (hheard : ends .written (.value ())) (hunheard : w.heard = false → ∀ m, ends .written (.failure (.event m))) :
    (Task.publish e describe).plan.Keeps w.protocol ends .written := by
  refine ⟨.inl ⟨e, rfl⟩, fun sent hsent => ?_⟩
  cases sent with
  | true => exact hheard
  | false => exact hunheard hsent.symm _

end Requests

/-! ## Results -/

theorem giving_keeps {f : α → β} {t : Task α} (h : t.plan.Keeps w.protocol (Ends w) ph) :
    (t.giving f).plan.Keeps w.protocol (Ends w) ph := by
  refine Task.keeps_bind.2 (h.mono fun ph e he => ?_)
  cases e <;> exact he

/-! ## Changes of a copy -/

/-- in which phase the copy `c` has been changed, but for its identity and its version -/
def Made (c : k.Member) (ph ph' : Phase) : Ending k.Member → Prop
  | .value a => ph' = ph ∧ Aggregate.id a = Aggregate.id c ∧ Aggregate.version a = Aggregate.version c
  | .failure f => ph' = ph ∧ f.kind ≠ .event
  | .fault _ => ph' = ph
  | .silence => False

theorem made_ofOutcome {refusal : ε → Refusal} {x : Outcome ε k.Member} {c : k.Member} (op : k.Op)
    (hop : ∀ a, x = .ok a → k.Granted op c a) :
    (Task.ofOutcome refusal x).plan.Keeps w.protocol (Made c ph) ph := by
  refine Task.keeps_ofOutcome.2 ⟨fun a ha => ?_, fun e _ => ⟨rfl, FailureKind.noConfusion⟩, fun f _ => rfl⟩
  exact ⟨rfl, (hop a ha).id_eq, (hop a ha).version_eq⟩

/-- in which phase a task has written, or ended without a write -/
def WriteEnds (ph : Phase) : Ending α → Prop
  | .value _ => ph = .written
  | .failure f => ph ≠ .written ∧ f.kind ≠ .event
  | .fault _ => ph ≠ .written
  | .silence => False

/-- a changed copy is written, or the command ends without a write -/
theorem update_keeps {a c : k.Member} {cont : k.Member → Task β} {ends : Phase → Ending β → Prop} (hk : k ≠ .menuItem)
    (hid : Aggregate.id a = i) (hversion : Aggregate.version a = Aggregate.version c)
    (hcont : ∀ b, (cont b).plan.Keeps w.protocol ends .written)
    (hfailure : ∀ f, f.kind ≠ .event → ends .refused (.failure f)) (hfault : ∀ f, ends .refused (.fault f)) :
    (Task.update k a >>= cont).plan.Keeps w.protocol ends (.holding k i (some c)) := by
  subst hid
  refine Task.keeps_bind.2 ⟨.inr (.update hk hversion), fun x hx => ?_⟩
  cases x with
  | value b => exact hcont b
  | failure f =>
    refine hfailure f fun hf => ?_
    cases f with
    | event m => exact hx.2 m rfl
    | _ => cases hf
  | fault f => exact hfault f
  | silence => exact absurd rfl hx.1

/-- what a copy was changed into is written, or the command ends without a write -/
theorem write_keeps {c : k.Member} {t : Task k.Member} {cont : k.Member → Task β} {ends : Phase → Ending β → Prop}
    (hk : k ≠ .menuItem) (hc : Aggregate.id c = i)
    (ht : t.plan.Keeps w.protocol (Made c (.holding k i (some c))) (.holding k i (some c)))
    (hcont : ∀ b, (cont b).plan.Keeps w.protocol ends .written)
    (hfailure : ∀ ph f, ph ≠ .written → f.kind ≠ .event → ends ph (.failure f))
    (hfault : ∀ ph f, ph ≠ .written → ends ph (.fault f)) :
    (t >>= fun a => Task.update k a >>= cont).plan.Keeps w.protocol ends (.holding k i (some c)) := by
  refine Task.keeps_bind.2 (ht.mono fun ph e he => ?_)
  cases e with
  | value a =>
    obtain ⟨rfl, hid, hversion⟩ := he
    exact update_keeps hk (hid.trans hc) hversion hcont (fun f hf => hfailure _ f Phase.noConfusion hf)
      fun f => hfault _ f Phase.noConfusion
  | failure f =>
    obtain ⟨rfl, hkind⟩ := he
    exact hfailure _ f Phase.noConfusion hkind
  | fault f =>
    obtain rfl : ph = .holding k i (some c) := he
    exact hfault _ f Phase.noConfusion
  | silence => exact he.elim

theorem bind_written_keeps {t : Task α} {cont : α → Task β} (ht : t.plan.Keeps w.protocol WriteEnds ph)
    (hcont : ∀ x, (cont x).plan.Keeps w.protocol (Ends w) .written) :
    (t >>= cont).plan.Keeps w.protocol (Ends w) ph := by
  refine Task.keeps_bind.2 (ht.mono fun ph x hx => ?_)
  cases x with
  | value x =>
    obtain rfl : ph = .written := hx
    exact hcont x
  | failure f => exact failureEnds_of_unwritten hx.1 hx.2
  | fault f => exact hx
  | silence => exact hx

/-! ## Orders -/

/-- what an operation makes of an order is written and announced, and the command ends -/
theorem saveLines_keeps {o : Order} {result : Order → β} (op : Order.Op) (hid : o.id = i) :
    (Task.ofOutcome OrderCommand.refusal (o.apply op) >>= fun o => Task.update .order o >>= fun o =>
      OrderCommand.announceLines o >>= fun _ => pure (result o)).plan.Keeps w.protocol (Ends w)
      (.holding .order i (some o)) := by
  refine write_keeps (k := .order) Kind.noConfusion hid (made_ofOutcome (k := .order) op fun _ ha => ha) (fun b => ?_)
    (fun _ _ => failureEnds_of_unwritten) fun _ _ h => h
  exact Task.keeps_bind.2 (publish_keeps rfl fun h m => ⟨rfl, h⟩)

theorem addItem_keeps (c : AddItem) : c.body.plan.Keeps w.protocol (Ends w) .arriving := by
  refine Task.checked_keeps (fun m => Phase.noConfusion) fun _ => ?_
  have hopen : Phase.Open .arriving := trivial
  refine Task.keeps_bind.2 ((menuItem_keeps hopen c.menuItem).mono fun ph e he => ?_)
  obtain ⟨rfl, m, rfl⟩ := he
  refine Task.orFail_keeps Phase.noConfusion fun m _ => ?_
  refine load_keeps (k := .order) (.inl rfl) Phase.noConfusion fun o ho => ?_
  refine freshId_keeps trivial fun i => ?_
  exact saveLines_keeps (.addLine i m.id c.quantity m.price c.instructions) ho

theorem removeItem_keeps (c : RemoveItem) : c.task.plan.Keeps w.protocol (Ends w) .arriving := by
  refine load_keeps (k := .order) (.inl rfl) Phase.noConfusion fun o ho => ?_
  exact saveLines_keeps (.removeLine c.itemId) ho

theorem setItemQuantity_keeps (c : SetItemQuantity) : c.task.plan.Keeps w.protocol (Ends w) .arriving := by
  refine Task.checked_keeps (fun m => Phase.noConfusion) fun _ => ?_
  refine load_keeps (k := .order) (.inl rfl) Phase.noConfusion fun o ho => ?_
  exact saveLines_keeps (.setQuantity c.itemId c.quantity) ho

theorem moveOrder_keeps (c : MoveOrder) : c.task.plan.Keeps w.protocol (Ends w) .arriving := by
  have hstore : c.store.plan.Keeps w.protocol WriteEnds .arriving := by
    refine load_keeps (k := .order) (.inl rfl) ⟨Phase.noConfusion, FailureKind.noConfusion⟩ fun o ho => ?_
    refine Task.keeps_ite (fun _ => ?_) fun _ => ⟨Phase.noConfusion, FailureKind.noConfusion⟩
    exact write_keeps (k := .order) Kind.noConfusion ho
      (made_ofOutcome (k := .order) (.moveTo c.status) fun _ ha => ha) (fun b => rfl)
      (fun _ f hph hf => ⟨hph, hf⟩) fun _ _ h => h
  refine bind_written_keeps (Task.counted_keeps hstore) fun x => ?_
  exact Task.keeps_bind.2 (Task.counted_keeps (publish_keeps (Task.count_keeps rfl) fun h m => ⟨rfl, h⟩))

theorem advanceOrder_keeps (c : AdvanceOrder) : c.task.plan.Keeps w.protocol (Ends w) .arriving := by
  refine load_keeps (k := .order) (.inl rfl) Phase.noConfusion fun o ho => ?_
  refine write_keeps (k := .order) Kind.noConfusion ho ?_ (fun b => ?_) (fun _ _ => failureEnds_of_unwritten)
    fun _ _ h => h
  · unfold AdvanceOrder.apply
    split
    · exact made_ofOutcome (k := .order) .startPreparation fun _ ha => ha
    · exact made_ofOutcome (k := .order) .markReady fun _ ha => ha
    · exact made_ofOutcome (k := .order) .serve fun _ ha => ha
    · exact made_ofOutcome (k := .order) .cancel fun _ ha => ha
    · exact ⟨rfl, FailureKind.noConfusion⟩
  · exact Task.keeps_bind.2 (publish_keeps (Task.count_keeps rfl) fun h m => ⟨rfl, h⟩)

/-! ## Placing an order -/

/-- in which phase lines have been put on an order that is not stored yet; it stays at its table -/
def Unstored (table : Id) (ph ph' : Phase) : Ending Order → Prop
  | .value o => ph' = ph ∧ o.tableId = table
  | .failure f => ph' = ph ∧ f.kind ≠ .event
  | .fault _ => ph' = ph
  | .silence => False

theorem addLines_keeps (hph : ph.Open) (ls : List (LineRequest × MenuItem)) (o : Order) :
    (CreateOrder.addLines o ls).plan.Keeps w.protocol (Unstored o.tableId ph) ph := by
  induction ls generalizing o with
  | nil => exact ⟨rfl, rfl⟩
  | cons l ls ih =>
    refine freshId_keeps hph fun i => ?_
    refine Task.ofOutcome_keeps (fun r => ⟨rfl, FailureKind.noConfusion⟩) (fun f => rfl) fun o' ho' => ?_
    have happly : o.apply (.addLine i l.2.id l.1.quantity l.2.price l.1.instructions) = .ok o' := ho'
    have htable : o'.tableId = o.tableId := by
      rw [Order.apply_frame happly]
      rfl
    exact htable ▸ ih o'

theorem createOrder_keeps {c : CreateOrder} (hc : w.places c) (front : String) :
    (c.task front).plan.Keeps w.protocol (Ends w) .arriving := by
  have hstore : (c.store front).plan.Keeps w.protocol WriteEnds .arriving := by
    refine Task.keeps_bind.2 ⟨.inr ⟨c.tableId, .inr rfl⟩, fun x hx => ?_⟩
    obtain ⟨found, rfl, -⟩ := hx
    change (Task.plan (Task.orFail _ found >>= _)).Keeps _ _ (Phase.holding .table c.tableId found)
    refine Task.orFail_keeps ⟨Phase.noConfusion, FailureKind.noConfusion⟩ fun t ht => ?_
    subst ht
    refine Task.keeps_ite (fun _ => ⟨Phase.noConfusion, FailureKind.noConfusion⟩) fun havailable => ?_
    have havailable : t.isAvailable = true := by simpa using havailable
    refine Task.keeps_bind.2 ((CreateOrder.lookUp_keeps (menuItem_keeps open_holding) c.lines).mono fun ph e he => ?_)
    obtain ⟨rfl, ⟨found, missing⟩, rfl⟩ := he
    refine Task.keeps_ite (fun _ => ⟨Phase.noConfusion, FailureKind.noConfusion⟩) fun _ => ?_
    refine clock_keeps trivial fun now => freshId_keeps trivial fun i =>
      clock_keeps trivial fun date => ?_
    refine Task.ofOutcome_keeps (fun r => ⟨Phase.noConfusion, FailureKind.noConfusion⟩) (fun f => Phase.noConfusion)
      fun o ho => ?_
    refine Task.keeps_bind.2 ((addLines_keeps open_holding _ o).mono fun ph e he => ?_)
    cases e with
    | value o' =>
      obtain ⟨rfl, htable⟩ := he
      refine ⟨.inr (.add hc havailable (htable.trans (Order.create_eq_ok ho).2.2)), fun x hx => ?_⟩
      cases x with
      | value b => exact rfl
      | failure f =>
        refine ⟨Phase.noConfusion, fun hf => ?_⟩
        cases f with
        | event m => exact hx.2 m rfl
        | _ => cases hf
      | fault f => exact Phase.noConfusion
      | silence => exact absurd rfl hx.1
    | failure f =>
      obtain ⟨rfl, hkind⟩ := he
      exact ⟨Phase.noConfusion, hkind⟩
    | fault f =>
      obtain rfl : ph = _ := he
      exact Phase.noConfusion
    | silence => exact he.elim
  refine Task.keeps_bind.2 (Task.counted_keeps (Task.keeps_unless?.2 ⟨fun _ => ?_, fun f hf => ?_⟩))
  · refine bind_written_keeps (Task.counted_keeps hstore) fun o => ?_
    exact Task.keeps_bind.2 (Task.counted_keeps (publish_keeps (Task.count_keeps rfl) fun h m => ⟨rfl, h⟩))
  · unfold CreateOrder.problem? at hf
    split at hf
    · cases hf
    · obtain rfl := Option.some.inj hf
      exact Phase.noConfusion

/-! ## Tables -/

/-- a changed table is written and announced -/
theorem saveTable_keeps {old t : Table} {status : TableStatus} (hid : t.id = i) (hversion : t.version = old.version) :
    (TableCommand.save status t).plan.Keeps w.protocol (Ends w) (.holding .table i (some old)) := by
  refine update_keeps (k := .table) Kind.noConfusion hid hversion (fun b => ?_)
    (fun _ => failureEnds_of_unwritten Phase.noConfusion) fun _ => Phase.noConfusion
  exact Task.keeps_bind.2 (publish_keeps rfl fun h m => ⟨rfl, h⟩)

theorem verb_keeps (c : MoveTable) (t : Table) (hph : ph.Open) :
    (c.apply t).plan.Keeps w.protocol (Made (k := .table) t ph) ph := by
  unfold MoveTable.apply
  cases c.status with
  | available => exact ⟨rfl, rfl, rfl⟩
  | occupied => exact made_ofOutcome (k := .table) .occupy fun _ ha => ha
  | reserved => exact clock_keeps hph fun now => made_ofOutcome (k := .table) (.reserve now) fun _ ha => ha
  | outOfService => exact made_ofOutcome (k := .table) .takeOutOfService fun _ ha => ha
  | cleaning => exact ⟨rfl, FailureKind.noConfusion⟩

theorem moveTable_keeps (c : MoveTable) : c.task.plan.Keeps w.protocol (Ends w) .arriving := by
  refine load_keeps (k := .table) (.inr rfl) Phase.noConfusion fun t ht => ?_
  refine Task.keeps_bind.2 (Task.counted_keeps ((verb_keeps c t open_holding).mono fun ph e he => ?_))
  cases e with
  | value t' =>
    obtain ⟨rfl, hid, hversion⟩ := he
    refine Task.keeps_bind.2 ((saveTable_keeps (hid.trans ht) hversion).mono fun ph r hr => ?_)
    cases r with
    | value r =>
      obtain rfl : ph = .written := hr
      exact Task.count_keeps rfl
    | _ => exact hr
  | failure f =>
    obtain ⟨rfl, hkind⟩ := he
    exact failureEnds_of_unwritten Phase.noConfusion hkind
  | fault f =>
    obtain rfl : ph = _ := he
    exact Phase.noConfusion
  | silence => exact he.elim

theorem setTable_keeps (c : SetTable) : c.task.plan.Keeps w.protocol (Ends w) .arriving := by
  refine load_keeps (k := .table) (.inr rfl) Phase.noConfusion fun t ht => ?_
  exact clock_keeps trivial fun now => saveTable_keeps ht rfl

/-! ## Commands -/

/-- **One fetch, one write, one announcement.** Every command on orders and tables keeps to the protocol, under all
settings and whatever the fetches give. -/
theorem task_keeps_floor (settings : Settings) {c : Command} (h : c.onFloor = true)
    (hplaces : ∀ o, c = .createOrder o → w.places o) :
    (c.task settings).plan.Keeps w.protocol (Ends w) w.protocol.first := by
  cases c with
  | createOrder c => exact giving_keeps (createOrder_keeps (hplaces c rfl) _)
  | addItem c => exact giving_keeps (Task.counted_keeps (addItem_keeps c))
  | removeItem c => exact giving_keeps (removeItem_keeps c)
  | setItemQuantity c => exact giving_keeps (setItemQuantity_keeps c)
  | moveOrder c => exact giving_keeps (moveOrder_keeps c)
  | advanceOrder c => exact giving_keeps (advanceOrder_keeps c)
  | moveTable c => exact giving_keeps (moveTable_keeps c)
  | setTable c => exact giving_keeps (setTable_keeps c)
  | _ => cases h

/-! ## Histories -/

/-- a quiet request, and what the menu says to it -/
def Quiet (w : Floor) : Answered → Prop
  | ⟨.get .menuItem i, x⟩ => x = .value (w.menu.get? i)
  | ⟨r, _⟩ => r.isQuiet = true

/-- what is asked after a write, and what is replied -/
def Settled (w : Floor) : Answered → Prop
  | ⟨.publish _, x⟩ => x = w.heard
  | ⟨.count _, _⟩ => True
  | _ => False

/-- a history up to the write: quiet but for one fetch, of `i` -/
def Prepared (w : Floor) (k : Kind) (i : Id) (found : Option k.Member) (h : List Answered) : Prop :=
  ∃ pre post, h = pre ++ ⟨.get k i, .value found⟩ :: post ∧ (∀ x ∈ pre, w.Quiet x) ∧ ∀ x ∈ post, w.Quiet x

/-- what the history of a command looks like in each phase -/
def Tells (w : Floor) : Phase → List Answered → Prop
  | .arriving, h => ∀ x ∈ h, w.Quiet x
  | .holding k i found, h => w.Prepared k i found h
  | .refused, _ => True
  | .written, h => ∃ k i found before write after, h = before ++ write :: after ∧ w.Prepared k i found before ∧
      w.Writes (.holding k i found) write.request ∧ ∀ x ∈ after, w.Settled x

theorem quiet_of_answers {r : Request} {x : r.Reply} (hr : r.isQuiet = true) (hx : w.protocol.answers r x) :
    w.Quiet ⟨r, x⟩ := by
  cases r with
  | get k i =>
    cases k with
    | menuItem => exact hx
    | _ => cases hr
  | _ => exact hr

theorem Quiet.isQuiet {x : Answered} (h : w.Quiet x) : x.request.isQuiet = true := by
  obtain ⟨r, x⟩ := x
  cases r with
  | get k i =>
    cases k with
    | menuItem => rfl
    | _ => exact h
  | _ => exact h

theorem Prepared.snoc {found : Option k.Member} {h : List Answered} {x : Answered} (hp : w.Prepared k i found h)
    (hx : w.Quiet x) : w.Prepared k i found (h ++ [x]) := by
  obtain ⟨pre, post, rfl, hpre, hpost⟩ := hp
  exact ⟨pre, post ++ [x], by simp, hpre, List.forall_mem_append.2 ⟨hpost, List.forall_mem_singleton.2 hx⟩⟩

/-- a history goes on as the protocol goes on -/
theorem tells_snoc {h : List Answered} {r : Request} {x : r.Reply} (ht : w.Tells ph h) (hasks : w.protocol.asks ph r)
    (hx : w.protocol.answers r x) : w.Tells (w.protocol.after ph r x) (h ++ [⟨r, x⟩]) := by
  cases ph with
  | arriving =>
    obtain hr | ⟨i, rfl | rfl⟩ := hasks
    · rw [(asks_quiet (show Phase.arriving.Open from trivial) hr).2]
      exact List.forall_mem_append.2 ⟨ht, List.forall_mem_singleton.2 (quiet_of_answers hr hx)⟩
    · obtain ⟨found, rfl, -⟩ := hx
      exact ⟨h, [], rfl, ht, List.forall_mem_nil _⟩
    · obtain ⟨found, rfl, -⟩ := hx
      exact ⟨h, [], rfl, ht, List.forall_mem_nil _⟩
  | holding k i found =>
    obtain hr | hw := hasks
    · rw [(asks_quiet open_holding hr).2]
      exact ht.snoc (quiet_of_answers hr hx)
    · -- the write is the last exchange so far
      have hwritten : w.Tells .written (h ++ [⟨r, x⟩]) :=
        ⟨k, i, found, h, ⟨r, x⟩, [], rfl, ht, hw, List.forall_mem_nil _⟩
      cases hw with
      | update hk hversion =>
        cases x with
        | value b => exact hwritten
        | _ => trivial
      | add hplaced havailable htable =>
        cases x with
        | value b => exact hwritten
        | _ => trivial
  | refused =>
    obtain ⟨m, rfl⟩ := hasks
    trivial
  | written =>
    obtain ⟨k, i, found, before, write, after, rfl, hprepared, hwrites, hafter⟩ := ht
    obtain ⟨e, rfl⟩ | ⟨m, rfl⟩ := hasks
    · refine ⟨k, i, found, before, write, after ++ [⟨.publish e, x⟩], by simp, hprepared, hwrites, ?_⟩
      exact List.forall_mem_append.2 ⟨hafter, List.forall_mem_singleton.2 hx⟩
    · refine ⟨k, i, found, before, write, after ++ [⟨.count m, x⟩], by simp, hprepared, hwrites, ?_⟩
      exact List.forall_mem_append.2 ⟨hafter, List.forall_mem_singleton.2 trivial⟩

end Floor

end Brigade
