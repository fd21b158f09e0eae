/-
Commands that have a service to themselves.

All eighteen commands keep to one protocol, `Solo.protocol`: a command prepares, then writes once, then announces its write
once, and counts whenever it likes. What it adds is told by `Creates`, what it changes by `Changes`: the result of an
operation on the aggregate that was stored before the command. `Ends` says in which phase a command ends how: with a value
after its announcement, with a failure of the channel after one that nobody heard, and otherwise while it still prepares.
- `task_keeps`: every command keeps to the protocol, under all settings, whatever is stored and however it is listed.

Nobody else writes, so a write is answered by the store from before the command, no write is stale, and there is nothing
to wait for.
-/
import Brigade.Proofs.GoalCommands
import Brigade.Proofs.Listing
import Brigade.Proofs.Protocol

namespace Brigade

/-- a new order has the identity, the number and the table that were asked for -/
theorem Order.create_eq_ok {i t : Id} {number : String} {date : Timestamp} {notes : Option String} {o : Order}
    (h : create i number t date notes = .ok o) : o.id = i ∧ o.number = number ∧ o.tableId = t := by
  unfold create at h
  split at h
  · cases h
  · obtain rfl := Outcome.ok.inj h
    exact ⟨rfl, rfl, rfl⟩

/-- a new period has the team and year that were asked for -/
theorem GoalPeriod.create_eq_ok {i : Id} {t y : Int32} {p : GoalPeriod} (h : create i t y = .ok p) :
    p = ⟨i, t, y, 1⟩ := by
  unfold create at h
  split at h
  · exact (Outcome.ok.inj h).symm
  · cases h

/-- looking up menu items ends with a value, in the phase in which it began, if fetching one of them does -/
theorem CreateOrder.lookUp_keeps {φ : Type} {P : Protocol φ} {ph : φ}
    (hget : ∀ i, (Task.get .menuItem i).plan.Keeps P (fun ph' e => ph' = ph ∧ ∃ m, e = .value m) ph)
    (ls : List LineRequest) : (lookUp ls).plan.Keeps P (fun ph' e => ph' = ph ∧ ∃ x, e = .value x) ph := by
  induction ls with
  | nil => exact ⟨rfl, _, rfl⟩
  | cons l ls ih =>
    refine Task.keeps_bind.2 ((hget l.menuItem).mono fun ph' e he => ?_)
    obtain ⟨rfl, m, rfl⟩ := he
    refine Task.keeps_bind.2 (Plan.Keeps.mono ih fun ph' e he => ?_)
    obtain ⟨rfl, x, rfl⟩ := he
    cases m <;> exact ⟨rfl, _, rfl⟩

/-! ## Trying again when no write is stale -/

/-- a task that never fails in a way that is worth a retry is tried once -/
theorem Retry.concurrent_keeps_once {α φ : Type} {P : Protocol φ} {ph : φ} {ends : φ → Ending α → Prop} {p : RetryPolicy}
    {i : Id} {t : Task α} (hasks : P.asks ph .isCancelled ∧ ∀ x, P.after ph .isCancelled x = ph)
    (ht : t.plan.Keeps P ends ph) (honce : ∀ ph f, ends ph (.failure f) → f.retryable = false)
    (hsilence : ∀ ph, ¬ends ph .silence) (hcancelled : ∀ m, ends ph (.failure (.cancelled m))) :
    (Retry.concurrent p i t).plan.Keeps P ends ph := by
  have htry : ∀ again, (Retry.tryOnce 0 (Retry.countRetry 1 t) again).Keeps P
      (fun ph e => (Retry.toTask i e).plan.Keeps P ends ph) ph := by
    intro again
    refine ⟨hasks.1, fun cancelled _ => ?_⟩
    rw [hasks.2 cancelled]
    cases cancelled with
    | true => exact hcancelled _
    | false =>
      refine Plan.keeps_bind.2 (Plan.Keeps.mono ht fun ph e he => ?_)
      cases e with
      | value a => exact he
      | fault f => exact he
      | silence => exact (hsilence ph he).elim
      | failure f =>
        simp only [honce ph f he, Bool.false_eq_true, if_false]
        exact he
  refine Plan.keeps_bind.2 ?_
  unfold Retry.run
  cases p.limit - 1 with
  | zero => exact htry _
  | succ more => exact htry _

/-! ## The protocol -/

/-- a command that has a service to itself -/
structure Solo where
  env : Surroundings
  listing : Listing
  settings : Settings
  command : Command
  /-- the service before the command -/
  before : Service

namespace Solo

variable {α β ε : Type}

/-- identities and clock readings that a command has drawn, in order -/
structure Drawn where
  ids : List Id
  times : List Timestamp

/-- where a command is -/
inductive Phase where
  | preparing (d : Drawn)
  | written (u : Write)
  | announced
  /-- nobody listened to the announcement -/
  | unheard

/-- the repository before the command -/
def repo (w : Solo) (k : Kind) : Repository k.Member := w.before.store.repo k

/-- what a command may add after it has drawn `d`; three commands add -/
def Creates (w : Solo) (d : Drawn) : (k : Kind) → k.Member → Prop
  | .order, o =>
    ∃ c now, w.command = .createOrder c ∧ d.times.head? = some now ∧
      Order.number o = Order.numberAt w.settings.orderNumberFront now ∧ Order.id o ∈ d.ids
  | .goalPeriod, p =>
    ∃ (c : AddGoalPeriod) (i : Id), w.command = .addGoalPeriod c ∧ i ∈ d.ids ∧ p = GoalPeriod.mk i c.teamId c.year 1
  | .goalSet, s =>
    ∃ (c : CreateGoalSet) (i : Id) (p : GoalPeriod), w.command = .createGoalSet c ∧ i ∈ d.ids ∧
      p ∈ w.before.store.goalPeriods.items ∧ p.isFor c.teamId c.year = true ∧
      s = GoalSet.mk i c.teamId p.id c.userId none [] 1
  | .table, _ | .menuItem, _ => False

/-- what a command may write in the place of a stored aggregate -/
def Changes (w : Solo) (k : Kind) (a : k.Member) : Prop :=
  ∃ old op, (w.repo k).get? (Aggregate.id a) = some old ∧ k.Granted op old a

/-- prepare, write once, announce the write once -/
def protocol (w : Solo) : Protocol Phase where
  first := .preparing ⟨[], []⟩
  asks
    | .preparing d, .add k a => w.Creates d k a
    | .preparing _, .update k a => w.Changes k a
    | .preparing _, .publish _ | .preparing _, .pause _ => False
    | .preparing _, _ => True
    | .written u, .publish e => u.Announces e
    | _, .count _ => True
    | _, _ => False
  answers
    | .get k i, x => x = .value ((w.repo k).get? i)
    | .list k, x => x = .value (w.listing.list k (w.repo k).items)
    | .add k a, x => x = (Service.answer w.env (.add k a) w.before).1
    | .update k a, x => x = (Service.answer w.env (.update k a) w.before).1
    | _, _ => True
  after ph
    | .freshId, i =>
      match ph with
      | .preparing d => .preparing ⟨d.ids ++ [i], d.times⟩
      | _ => ph
    | .clock, t =>
      match ph with
      | .preparing d => .preparing ⟨d.ids, d.times ++ [t]⟩
      | _ => ph
    | .add k _, x =>
      match x with
      | .value b => .written (.added k b)
      | _ => ph
    | .update k a, x =>
      match x, (w.repo k).get? (Aggregate.id a) with
      | .value b, some old => .written (.changed k old b)
      | _, _ => ph
    | .publish _, sent => if sent then .announced else .unheard
    | _, _ => ph

/-- in which phase a failure may end a command -/
def FailureEnds (ph : Phase) : Failure → Prop
  | .event _ => ph = .unheard
  | _ => ∃ d, ph = .preparing d

/-- in which phase a command ends how -/
def Ends (ph : Phase) : Ending α → Prop
  | .value _ => ph = .announced
  | .failure f => FailureEnds ph f
  | .fault _ => ∃ d, ph = .preparing d
  | .silence => False

variable {w : Solo} {ph : Phase} {d : Drawn} {k : Kind}

theorem failureEnds_of_preparing {f : Failure} (h : f.kind ≠ .event) : FailureEnds (.preparing d) f := by
  cases f with
  | event m => exact absurd rfl h
  | _ => exact ⟨d, rfl⟩

/-! ## Requests -/

section Requests

variable {ends : Phase → Ending β → Prop}

theorem get_keeps {i : Id} {cont : Option k.Member → Task β}
    (h : (cont ((w.repo k).get? i)).plan.Keeps w.protocol ends (.preparing d)) :
    (Task.get k i >>= cont).plan.Keeps w.protocol ends (.preparing d) := by
  refine Task.keeps_bind.2 ⟨trivial, fun x hx => ?_⟩
  obtain rfl : x = .value ((w.repo k).get? i) := hx
  exact h

/-- what is stored is fetched, or the command fails -/
theorem fetch_keeps {i : Id} {f : Failure} {cont : k.Member → Task β} (hmissing : ends (.preparing d) (.failure f))
    (h : ∀ a, (w.repo k).get? i = some a → (cont a).plan.Keeps w.protocol ends (.preparing d)) :
    ((Task.get k i >>= Task.orFail f) >>= cont).plan.Keeps w.protocol ends (.preparing d) :=
  Task.keeps_bind.2 (get_keeps (Task.keeps_orFail.2 ⟨fun _ => hmissing, h⟩))

theorem list_keeps {cont : List k.Member → Task β}
    (h : (cont (w.listing.list k (w.repo k).items)).plan.Keeps w.protocol ends (.preparing d)) :
    (Task.list k >>= cont).plan.Keeps w.protocol ends (.preparing d) := by
  refine Task.keeps_bind.2 ⟨trivial, fun x hx => ?_⟩
  obtain rfl : x = .value (w.listing.list k (w.repo k).items) := hx
  exact h

theorem freshId_keeps {cont : Id → Task β}
    (h : ∀ i, (cont i).plan.Keeps w.protocol ends (.preparing ⟨d.ids ++ [i], d.times⟩)) :
    (Task.freshId >>= cont).plan.Keeps w.protocol ends (.preparing d) :=
  Task.keeps_bind.2 ⟨trivial, fun i _ => h i⟩

theorem clock_keeps {cont : Timestamp → Task β}
    (h : ∀ t, (cont t).plan.Keeps w.protocol ends (.preparing ⟨d.ids, d.times ++ [t]⟩)) :
    (Task.clock >>= cont).plan.Keeps w.protocol ends (.preparing d) :=
  Task.keeps_bind.2 ⟨trivial, fun t _ => h t⟩

/-- adding stores the aggregate, or fails and leaves the command where it was -/
theorem add_keeps {a : k.Member} {ends : Phase → Ending k.Member → Prop} (hcreates : w.Creates d k a)
    (hvalue : ((w.repo k).add a).1 = .ok () → ends (.written (.added k a)) (.value a))
    (hfailure : ∀ f, ((w.repo k).add a).1 = .error f → ends (.preparing d) (.failure f)) :
    (Task.add k a).plan.Keeps w.protocol ends (.preparing d) := by
  refine ⟨hcreates, fun x hx => ?_⟩
  change x = (Service.answer w.env (.add k a) w.before).1 at hx
  simp only [Service.answer] at hx
  generalize hadd : (w.before.store.repo k).add a = y at hx
  obtain ⟨r, r'⟩ := y
  have hreply : ((w.repo k).add a).1 = r := congrArg Prod.fst hadd
  cases r with
  | ok u =>
    obtain rfl : x = .value a := hx
    exact hvalue hreply
  | error f =>
    obtain rfl : x = .failure f := hx
    exact hfailure f hreply

/-- an operation on the stored aggregate is written, unless its version leaves the word -/
theorem update_keeps {i : Id} (op : k.Op) {old a : k.Member} {cont : k.Member → Task β}
    (hget : (w.repo k).get? i = some old) (hop : k.Granted op old a)
    (hcont : ∀ b, Aggregate.id b = i → k.Granted op old (Aggregate.withVersion b (Aggregate.version old)) →
      (cont b).plan.Keeps w.protocol ends (.written (.changed k old b)))
    (hfault : ∀ f, (w.repo k).update a = .fault f → ends (.preparing d) (.fault f)) :
    (Task.update k a >>= cont).plan.Keeps w.protocol ends (.preparing d) := by
  obtain rfl : Aggregate.id old = i := Repository.id_of_get? hget
  rw [← hop.id_eq] at hget
  refine Task.keeps_bind.2 ⟨⟨old, op, hget, hop⟩, fun x hx => ?_⟩
  change x = (Service.answer w.env (.update k a) w.before).1 at hx
  cases hu : (w.repo k).update a with
  | ok p =>
    obtain ⟨b, r⟩ := p
    rw [Service.answer_update_of_ok hu] at hx
    subst hx
    have hphase : w.protocol.after (.preparing d) (.update k a) (.value b) = .written (.changed k old b) := by
      simp only [protocol, hget]
    obtain ⟨stored, v, -, -, -, rfl, -⟩ := Repository.update_eq_ok hu
    rw [hphase]
    refine hcont _ (by simp [hop.id_eq]) ?_
    rw [← hop.version_eq, k.withVersion_back a v]
    exact hop
  | refused f =>
    -- the stored aggregate has the identity and the version of what is written
    rcases Repository.update_eq_refused hu with ⟨hnone, -⟩ | ⟨stored, hstored, hv, -⟩
    · rw [hget] at hnone
      cases hnone
    · obtain rfl := Option.some.inj (hget.symm.trans hstored)
      exact absurd hop.version_eq.symm hv
  | fault f =>
    rw [Service.answer_update_of_fault hu] at hx
    subst hx
    exact hfault f hu

theorem publish_keeps {u : Write} {e : Event} {describe : String → String} {ends : Phase → Ending Unit → Prop}
    (he : u.Announces e) (hheard : ends .announced (.value ())) (hunheard : ∀ m, ends .unheard (.failure (.event m))) :
    (Task.publish e describe).plan.Keeps w.protocol ends (.written u) := by
  refine ⟨he, fun sent _ => ?_⟩
  cases sent with
  | true => exact hheard
  | false => exact hunheard _

end Requests

/-! ## Counting and results -/

instance : w.protocol.Counting := ⟨fun ph _ => by cases ph <;> exact ⟨trivial, rfl⟩⟩

theorem giving_keeps {f : α → β} {t : Task α} (h : t.plan.Keeps w.protocol Ends ph) :
    (t.giving f).plan.Keeps w.protocol Ends ph := by
  refine Task.keeps_bind.2 (h.mono fun ph e he => ?_)
  cases e <;> exact he

/-! ## What is made of a stored aggregate -/

/-- in which phase a command has made something of the stored `old`: the result of an operation, whose event is `e` -/
def Gives (old : k.Member) (made : α → k.Member) (e : α → k.Member → Event) (ph : Phase) : Ending α → Prop
  | .value x =>
    (∃ d, ph = .preparing d) ∧ ∃ op, k.Granted op old (made x) ∧ ∀ new, Event.ofOp? k op old new = some (e x new)
  | .failure f => f.kind ≠ .event ∧ f.retryable = false ∧ ∃ d, ph = .preparing d
  | .fault _ => ∃ d, ph = .preparing d
  | .silence => False

theorem gives_ofOutcome {refusal : ε → Refusal} {x : Outcome ε k.Member} {old : k.Member} {e : k.Member → Event}
    (op : k.Op) (hop : ∀ a, x = .ok a → k.Granted op old a) (he : ∀ new, Event.ofOp? k op old new = some (e new)) :
    (Task.ofOutcome refusal x).plan.Keeps w.protocol (Gives old id fun _ => e) (.preparing d) := by
  refine Task.keeps_ofOutcome.2 ⟨fun a ha => ?_, fun r _ => ?_, fun f _ => ⟨d, rfl⟩⟩
  · exact ⟨⟨d, rfl⟩, op, hop a ha, he⟩
  · exact ⟨FailureKind.noConfusion, rfl, d, rfl⟩

/-- what is made of the stored aggregate is written -/
theorem write_keeps {i : Id} {t : Task α} {old : k.Member} {made : α → k.Member} {e : α → k.Member → Event}
    {cont : α → k.Member → Task β} {ends : Phase → Ending β → Prop} (hget : (w.repo k).get? i = some old)
    (ht : t.plan.Keeps w.protocol (Gives old made e) (.preparing d))
    (hcont : ∀ x b u, Aggregate.id b = i → u.Announces (e x b) → (cont x b).plan.Keeps w.protocol ends (.written u))
    (hfailure : ∀ d f, f.kind ≠ .event → f.retryable = false → ends (.preparing d) (.failure f))
    (hfault : ∀ d f, ends (.preparing d) (.fault f)) :
    (t >>= fun x => Task.update k (made x) >>= cont x).plan.Keeps w.protocol ends (.preparing d) := by
  refine Task.keeps_bind.2 (ht.mono fun ph x hx => ?_)
  cases x with
  | value x =>
    obtain ⟨⟨d', rfl⟩, op, hop, he⟩ := hx
    exact update_keeps op hget hop (fun b hb hgranted => hcont x b _ hb ⟨op, hgranted, he b⟩) fun f _ => hfault d' f
  | failure f =>
    obtain ⟨hkind, hretry, d', rfl⟩ := hx
    exact hfailure d' f hkind hretry
  | fault f =>
    obtain ⟨d', rfl⟩ := hx
    exact hfault d' f
  | silence => exact hx.elim

/-- in which phase a task has written, and the event that tells of it; or it still prepares -/
def WriteEnds (e : α → Event) (ph : Phase) : Ending α → Prop
  | .value x => ∃ u, ph = .written u ∧ u.Announces (e x)
  | .failure f => f.kind ≠ .event ∧ ∃ d, ph = .preparing d
  | .fault _ => ∃ d, ph = .preparing d
  | .silence => False

theorem bind_written_keeps {t : Task α} {e : α → Event} {cont : α → Task β}
    (ht : t.plan.Keeps w.protocol (WriteEnds e) (.preparing d))
    (hcont : ∀ x u, u.Announces (e x) → (cont x).plan.Keeps w.protocol Ends (.written u)) :
    (t >>= cont).plan.Keeps w.protocol Ends (.preparing d) := by
  refine Task.keeps_bind.2 (ht.mono fun ph x hx => ?_)
  cases x with
  | value x =>
    obtain ⟨u, rfl, hu⟩ := hx
    exact hcont x u hu
  | failure f =>
    obtain ⟨hkind, d, rfl⟩ := hx
    exact failureEnds_of_preparing hkind
  | fault f => exact hx
  | silence => exact hx

/-! ## Goal sets -/

/-- the failure, if there is one, is not worth a retry -/
def Lasting : Ending α → Prop
  | .failure f => f.retryable = false
  | _ => True

/-- the transition makes of every set what an operation makes of it, and `event` tells of the stored result -/
def Transition (w : Solo) (transition : GoalSet → Task (GoalSet × α)) (event : GoalSet × α → Event) : Prop :=
  ∀ s d, (transition s).plan.Keeps w.protocol (Gives (k := .goalSet) s Prod.fst fun x new => event (new, x.2))
    (.preparing d)

theorem plain_transition {op : GoalSet.Op} {event : GoalSet × Unit → Event}
    (told : ∀ x, Event.ofGoalSetOp x.1 op = event x) : Transition w (GoalCommand.plain (·.apply op)) event := by
  intro s d
  refine Task.keeps_bind.2 (Plan.Keeps.mono (gives_ofOutcome (k := .goalSet) op (fun _ ha => ha) fun new =>
    congrArg some (told (new, ()))) fun ph x hx => ?_)
  cases x <;> exact hx

theorem addGoal_transition (c : AddGoal) (v : GoalValue) :
    Transition w (c.transition v) fun (s, i) => .goalAdded s.id i := by
  intro s d
  refine freshId_keeps fun i => ?_
  refine Task.ofOutcome_keeps (fun r => ⟨FailureKind.noConfusion, rfl, _, rfl⟩) (fun f => ⟨_, rfl⟩) fun t ht => ?_
  exact ⟨⟨_, rfl⟩, .addGoal i c.title c.type v c.percentage, ht, fun new => rfl⟩

theorem modify_keeps {p : RetryPolicy} {i : Id} {transition : GoalSet → Task (GoalSet × α)}
    {event : GoalSet × α → Event} (ht : Transition w transition event) :
    (GoalCommand.modify p i transition).plan.Keeps w.protocol (WriteEnds event) (.preparing d) := by
  have honce : (GoalCommand.modifyOnce i transition).plan.Keeps w.protocol
      (fun ph x => WriteEnds event ph x ∧ Lasting x) (.preparing d) := by
    refine fetch_keeps (k := .goalSet) ⟨⟨FailureKind.noConfusion, d, rfl⟩, rfl⟩ fun s hs => ?_
    exact write_keeps (k := .goalSet) hs (ht s d) (fun _ _ u _ hu => ⟨⟨u, rfl, hu⟩, trivial⟩)
      (fun d f hkind hretry => ⟨⟨hkind, d, rfl⟩, hretry⟩) fun d _ => ⟨⟨d, rfl⟩, trivial⟩
  have hlasting := Retry.concurrent_keeps_once (p := p) (i := i) ⟨trivial, fun _ => rfl⟩ honce (fun _ _ h => h.2)
    (fun _ h => h.1) fun _ => ⟨⟨FailureKind.noConfusion, d, rfl⟩, rfl⟩
  exact Plan.Keeps.mono hlasting fun _ _ h => h.1

/-- a changed set is announced, and the command ends -/
theorem change_keeps {p : RetryPolicy} {i : Id} {transition : GoalSet → Task (GoalSet × α)}
    {event : GoalSet × α → Event} {result : GoalSet × α → β} (ht : Transition w transition event) :
    (GoalCommand.change p i transition event result).plan.Keeps w.protocol Ends (.preparing d) :=
  bind_written_keeps (modify_keeps ht) fun _ _ hu => Task.keeps_bind.2 (publish_keeps hu rfl fun _ => rfl)

theorem changes_keep {p : RetryPolicy} {i : Id} {t : Task β} (h : w.command.Changes p i t) :
    t.plan.Keeps w.protocol Ends (.preparing d) := by
  cases h with
  | operation op asked told => exact change_keeps (plain_transition told)
  | addition a v asked => exact change_keeps (addGoal_transition a v)
  | outOfRange r => exact ⟨d, rfl⟩

/-- the eight commands that change a goal set -/
theorem goalSet_keeps {i : Id} (hset : w.command.goalSet? = some i) :
    (w.command.task w.settings).plan.Keeps w.protocol Ends (.preparing d) := by
  obtain ⟨n, γ, t, f, htask, hchanges⟩ := Command.task_of_goalSet hset w.settings
  rw [htask]
  refine giving_keeps (Task.counted_keeps (Task.checked_keeps (fun m => ⟨d, rfl⟩) fun _ => ?_))
  exact changes_keep hchanges

/-! ## Adding a period or a set -/

/-- the failures of adding, reworded or not, are none of the channel -/
theorem kind_of_add_error {a : k.Member} {f : Failure} (h : ((w.repo k).add a).1 = .error f) : f.kind ≠ .event := by
  generalize hx : (w.repo k).add a = x at h
  cases hx ▸ Repository.add_case (w.repo k) a with
  | keyTaken key hkey taken =>
    obtain rfl := Except.error.inj h
    exact FailureKind.noConfusion
  | idTaken free stored =>
    obtain rfl := Except.error.inj h
    exact FailureKind.noConfusion
  | stored free unused => cases h

/-- an aggregate is added and announced, and the command ends -/
theorem addAnnounced_keeps {a : k.Member} {reword : Failure → Failure} {e : k.Member → Event} {result : k.Member → β}
    (hcreates : w.Creates d k a) (he : Event.ofAdded? k a = some (e a))
    (hreword : ∀ f, f.kind ≠ .event → (reword f).kind ≠ .event) :
    (Task.mapFailure reword (Task.add k a) >>= fun b => GoalCommand.announce (e b) >>= fun _ =>
      pure (result b)).plan.Keeps w.protocol Ends (.preparing d) := by
  refine Task.keeps_bind.2 (Task.keeps_mapFailure.2 (add_keeps hcreates (fun _ => ?_) fun f hf => ?_))
  · exact Task.keeps_bind.2 (publish_keeps he rfl fun _ => rfl)
  · exact failureEnds_of_preparing (hreword f (kind_of_add_error hf))

theorem addGoalPeriod_keeps {c : AddGoalPeriod} (hc : w.command = .addGoalPeriod c) :
    c.body.plan.Keeps w.protocol Ends (.preparing d) := by
  refine Task.checked_keeps (fun m => ⟨_, rfl⟩) fun _ => ?_
  refine freshId_keeps fun i => ?_
  refine Task.ofOutcome_keeps (fun e => ⟨_, rfl⟩) (fun f => ⟨_, rfl⟩) fun p hp => ?_
  have hcreates : w.Creates ⟨d.ids ++ [i], d.times⟩ .goalPeriod p :=
    ⟨c, i, hc, by simp, GoalPeriod.create_eq_ok hp⟩
  refine addAnnounced_keeps (k := .goalPeriod) hcreates rfl fun f hf => ?_
  cases f <;> exact hf

theorem createGoalSet_keeps {c : CreateGoalSet} (hc : w.command = .createGoalSet c) :
    c.body.plan.Keeps w.protocol Ends (.preparing d) := by
  refine Task.checked_keeps (fun m => ⟨_, rfl⟩) fun _ => ?_
  refine list_keeps (Task.orFail_keeps ⟨d, rfl⟩ fun p hp => ?_)
  refine freshId_keeps fun i => ?_
  refine Task.ofOutcome_keeps (fun e => ⟨_, rfl⟩) (fun f => ⟨_, rfl⟩) fun s hs => ?_
  have hmem : p ∈ w.listing.list .goalPeriod w.before.store.goalPeriods.items := List.mem_of_find?_eq_some hp
  have hfor : p.isFor c.teamId c.year = true := by simpa using List.find?_some hp
  have hcreates : w.Creates ⟨d.ids ++ [i], d.times⟩ .goalSet s :=
    ⟨c, i, p, hc, by simp, Listing.mem_list.1 hmem, hfor, GoalSet.create_eq_ok hs⟩
  refine addAnnounced_keeps (k := .goalSet) hcreates rfl fun f hf => ?_
  cases f <;> exact hf

/-! ## Orders -/

/-- what an operation makes of an order is written and announced, and the command ends -/
theorem saveLines_keeps {i : Id} {o : Order} {result : Order → β} (op : Order.Op)
    (hget : (w.repo .order).get? i = some o)
    (he : ∀ new : Order, Event.ofOrderOp? o new op = some (.orderItemsChanged new.id)) :
    (Task.ofOutcome OrderCommand.refusal (o.apply op) >>= fun o => Task.update .order o >>= fun o =>
      OrderCommand.announceLines o >>= fun _ => pure (result o)).plan.Keeps w.protocol Ends (.preparing d) := by
  refine write_keeps (k := .order) hget (gives_ofOutcome op (fun _ ha => ha) he) (fun _ b u _ hu => ?_)
    (fun _ _ hkind _ => failureEnds_of_preparing hkind) fun d _ => ⟨d, rfl⟩
  exact Task.keeps_bind.2 (publish_keeps hu rfl fun _ => rfl)

theorem addItem_keeps (c : AddItem) : c.body.plan.Keeps w.protocol Ends (.preparing d) := by
  refine Task.checked_keeps (fun m => ⟨_, rfl⟩) fun _ => ?_
  refine get_keeps (Task.orFail_keeps ⟨d, rfl⟩ fun m _ => ?_)
  refine fetch_keeps (k := .order) ⟨d, rfl⟩ fun o ho => ?_
  refine freshId_keeps fun i => ?_
  exact saveLines_keeps (.addLine i m.id c.quantity m.price c.instructions) ho fun _ => rfl

theorem removeItem_keeps (c : RemoveItem) : c.task.plan.Keeps w.protocol Ends (.preparing d) := by
  refine fetch_keeps (k := .order) ⟨d, rfl⟩ fun o ho => ?_
  exact saveLines_keeps (.removeLine c.itemId) ho fun _ => rfl

theorem setItemQuantity_keeps (c : SetItemQuantity) : c.task.plan.Keeps w.protocol Ends (.preparing d) := by
  refine Task.checked_keeps (fun m => ⟨_, rfl⟩) fun _ => ?_
  refine fetch_keeps (k := .order) ⟨d, rfl⟩ fun o ho => ?_
  exact saveLines_keeps (.setQuantity c.itemId c.quantity) ho fun _ => rfl

theorem moveOrder_keeps (c : MoveOrder) : c.task.plan.Keeps w.protocol Ends (.preparing d) := by
  have hstore : c.store.plan.Keeps w.protocol
      (WriteEnds fun x => .orderStatusChanged c.orderId x.1.name x.2.status.name) (.preparing d) := by
    refine fetch_keeps (k := .order) ⟨FailureKind.noConfusion, d, rfl⟩ fun o ho => ?_
    refine Task.keeps_ite (fun _ => ?_) fun _ => ⟨FailureKind.noConfusion, d, rfl⟩
    have hmoved : (Task.ofOutcome OrderCommand.refusal (o.moveTo c.status)).plan.Keeps w.protocol
        (Gives (k := .order) o id fun _ (new : Order) => .orderStatusChanged new.id o.status.name new.status.name)
        (.preparing d) :=
      gives_ofOutcome (k := .order) (.moveTo c.status) (fun _ ha => ha) fun _ => rfl
    refine write_keeps ho hmoved (fun _ b u hb hu => ?_) (fun d f hkind _ => ⟨hkind, d, rfl⟩) fun d _ => ⟨d, rfl⟩
    have hid : b.id = c.orderId := hb
    rw [hid] at hu
    exact ⟨u, rfl, hu⟩
  refine bind_written_keeps (Task.counted_keeps hstore) fun x u hu => ?_
  exact Task.keeps_bind.2 (Task.counted_keeps (publish_keeps hu (Task.count_keeps rfl) fun _ => rfl))

theorem advanceOrder_keeps (c : AdvanceOrder) : c.task.plan.Keeps w.protocol Ends (.preparing d) := by
  refine fetch_keeps (k := .order) ⟨d, rfl⟩ fun o ho => ?_
  refine write_keeps (k := .order)
    (e := fun _ (new : Order) => .orderStatusChanged new.id o.status.name new.status.name) ho ?_ (fun _ b u _ hu => ?_)
    (fun _ _ hkind _ => failureEnds_of_preparing hkind) fun d _ => ⟨d, rfl⟩
  · unfold AdvanceOrder.apply
    split
    · exact gives_ofOutcome (k := .order) .startPreparation (fun _ ha => ha) fun _ => rfl
    · exact gives_ofOutcome (k := .order) .markReady (fun _ ha => ha) fun _ => rfl
    · exact gives_ofOutcome (k := .order) .serve (fun _ ha => ha) fun _ => rfl
    · exact gives_ofOutcome (k := .order) .cancel (fun _ ha => ha) fun _ => rfl
    · exact ⟨FailureKind.noConfusion, rfl, d, rfl⟩
  · exact Task.keeps_bind.2 (publish_keeps hu (Task.count_keeps rfl) fun _ => rfl)

/-! ## Placing an order -/

/-- fetching a menu item draws nothing and does not fail -/
theorem menuItem_keeps (i : Id) :
    (Task.get .menuItem i).plan.Keeps w.protocol (fun ph e => ph = .preparing d ∧ ∃ m, e = .value m) (.preparing d) := by
  refine ⟨trivial, fun x hx => ?_⟩
  obtain rfl : x = .value ((w.repo .menuItem).get? i) := hx
  exact ⟨rfl, _, rfl⟩

/-- in which phase lines have been put on the order `o`: identities are drawn, and those of the order stay -/
def LinesEnds (d : Drawn) (o : Order) (ph : Phase) : Ending Order → Prop
  | .value o' => (∃ ids, ph = .preparing ⟨d.ids ++ ids, d.times⟩) ∧ o'.id = o.id ∧ o'.number = o.number
  | .failure f => f.kind ≠ .event ∧ ∃ d, ph = .preparing d
  | .fault _ => ∃ d, ph = .preparing d
  | .silence => False

theorem addLines_keeps (ls : List (LineRequest × MenuItem)) (o : Order) (d : Drawn) :
    (CreateOrder.addLines o ls).plan.Keeps w.protocol (LinesEnds d o) (.preparing d) := by
  induction ls generalizing o d with
  | nil => exact ⟨⟨[], by simp⟩, rfl, rfl⟩
  | cons l ls ih =>
    refine freshId_keeps fun i => ?_
    refine Task.ofOutcome_keeps (fun r => ⟨FailureKind.noConfusion, _, rfl⟩) (fun f => ⟨_, rfl⟩) fun a ha => ?_
    have happly : o.apply (.addLine i l.2.id l.1.quantity l.2.price l.1.instructions) = .ok a := ha
    have hframe := Order.apply_frame happly
    refine Plan.Keeps.mono (ih a _) fun ph e he => ?_
    cases e with
    | value o' =>
      obtain ⟨⟨ids, rfl⟩, hid, hnumber⟩ := he
      refine ⟨⟨i :: ids, by simp⟩, hid.trans ?_, hnumber.trans ?_⟩
      · rw [hframe]
        rfl
      · rw [hframe]
        rfl
    | _ => exact he

theorem createOrder_keeps {c : CreateOrder} (hc : w.command = .createOrder c) :
    (c.task w.settings.orderNumberFront).plan.Keeps w.protocol Ends (.preparing ⟨[], []⟩) := by
  have hstore : (c.store w.settings.orderNumberFront).plan.Keeps w.protocol (WriteEnds fun o => .orderCreated o.id)
      (.preparing ⟨[], []⟩) := by
    refine get_keeps (Task.orFail_keeps ⟨FailureKind.noConfusion, _, rfl⟩ fun t _ => ?_)
    refine Task.keeps_ite (fun _ => ⟨FailureKind.noConfusion, _, rfl⟩) fun _ => ?_
    refine Task.keeps_bind.2 ((CreateOrder.lookUp_keeps menuItem_keeps c.lines).mono fun ph e he => ?_)
    obtain ⟨rfl, ⟨found, missing⟩, rfl⟩ := he
    refine Task.keeps_ite (fun _ => ⟨FailureKind.noConfusion, _, rfl⟩) fun _ => ?_
    refine clock_keeps fun now => freshId_keeps fun i => clock_keeps fun date => ?_
    refine Task.ofOutcome_keeps (fun r => ⟨FailureKind.noConfusion, _, rfl⟩) (fun f => ⟨_, rfl⟩) fun o ho => ?_
    obtain ⟨hid, hnumber, -⟩ := Order.create_eq_ok ho
    refine Task.keeps_bind.2 ((addLines_keeps _ o _).mono fun ph e he => ?_)
    cases e with
    | value o' =>
      obtain ⟨⟨ids, rfl⟩, hid', hnumber'⟩ := he
      refine add_keeps (k := .order) ⟨c, now, hc, rfl, hnumber'.trans hnumber, ?_⟩ (fun _ => ⟨_, rfl, rfl⟩) fun f hf =>
        ⟨kind_of_add_error hf, _, rfl⟩
      rw [hid', hid]
      simp
    | failure f => exact he
    | fault f => exact he
    | silence => exact he
  refine Task.keeps_bind.2 (Task.counted_keeps (Task.keeps_unless?.2 ⟨fun _ => ?_, fun f hf => ?_⟩))
  · refine bind_written_keeps (Task.counted_keeps hstore) fun o u hu => ?_
    exact Task.keeps_bind.2 (Task.counted_keeps (publish_keeps hu (Task.count_keeps rfl) fun _ => rfl))
  · unfold CreateOrder.problem? at hf
    split at hf
    · cases hf
    · obtain rfl := Option.some.inj hf
      exact ⟨_, rfl⟩

/-! ## Tables -/

theorem saveTable_keeps {i : Id} {old t : Table} {ends : Phase → Ending TableResult → Prop} (op : Table.Op)
    (hget : (w.repo .table).get? i = some old) (hop : old.apply op = .ok t) (hvalue : ∀ r, ends .announced (.value r))
    (hunheard : ∀ m, ends .unheard (.failure (.event m))) (hfault : ∀ f, ends (.preparing d) (.fault f)) :
    (TableCommand.save old.status t).plan.Keeps w.protocol ends (.preparing d) := by
  refine update_keeps (k := .table) op hget hop (fun b _ hgranted => ?_) fun f _ => hfault f
  exact Task.keeps_bind.2 (publish_keeps ⟨op, hgranted, rfl⟩ (hvalue _) hunheard)

/-- the event of a change of a table -/
def moved (t : Table) (new : Table) : Event := .tableStatusChanged new.id t.status.name new.status.name

theorem verb_keeps (c : MoveTable) (t : Table) :
    (c.apply t).plan.Keeps w.protocol (Gives (k := .table) t id fun _ => moved t) (.preparing d) := by
  unfold MoveTable.apply
  cases c.status with
  | available => exact ⟨⟨d, rfl⟩, .makeAvailable, rfl, fun _ => rfl⟩
  | occupied => exact gives_ofOutcome (k := .table) .occupy (fun _ ha => ha) fun _ => rfl
  | reserved =>
    exact clock_keeps fun now => gives_ofOutcome (k := .table) (.reserve now) (fun _ ha => ha) fun _ => rfl
  | outOfService => exact gives_ofOutcome (k := .table) .takeOutOfService (fun _ ha => ha) fun _ => rfl
  | cleaning => exact ⟨FailureKind.noConfusion, rfl, d, rfl⟩

theorem moveTable_keeps (c : MoveTable) : c.task.plan.Keeps w.protocol Ends (.preparing d) := by
  refine fetch_keeps (k := .table) ⟨d, rfl⟩ fun t ht => ?_
  refine Task.keeps_bind.2 (Task.counted_keeps ((verb_keeps c t).mono fun ph e he => ?_))
  cases e with
  | value t' =>
    obtain ⟨⟨d', rfl⟩, op, hop, -⟩ := he
    exact Task.keeps_bind.2
      (saveTable_keeps op ht hop (fun _ => Task.count_keeps rfl) (fun _ => rfl) fun _ => ⟨d', rfl⟩)
  | failure f =>
    obtain ⟨hkind, -, d', rfl⟩ := he
    exact failureEnds_of_preparing hkind
  | fault f => exact he
  | silence => exact he

theorem setTable_keeps (c : SetTable) : c.task.plan.Keeps w.protocol Ends (.preparing d) := by
  refine fetch_keeps (k := .table) ⟨d, rfl⟩ fun t ht => ?_
  refine clock_keeps fun now => ?_
  exact saveTable_keeps (.setStatus c.status now) ht rfl (fun _ => rfl) (fun _ => rfl) fun _ => ⟨_, rfl⟩

/-! ## Commands -/

/-- **One write, and then one event.** Every command keeps to the protocol, under all settings, whatever is stored and
however it is listed. -/
theorem task_keeps (w : Solo) : (w.command.task w.settings).plan.Keeps w.protocol Ends w.protocol.first := by
  cases hset : w.command.goalSet? with
  | some i => exact goalSet_keeps hset
  | none =>
    cases hc : w.command with
    | createOrder c => exact giving_keeps (createOrder_keeps hc)
    | addItem c => exact giving_keeps (Task.counted_keeps (addItem_keeps c))
    | removeItem c => exact giving_keeps (removeItem_keeps c)
    | setItemQuantity c => exact giving_keeps (setItemQuantity_keeps c)
    | moveOrder c => exact giving_keeps (moveOrder_keeps c)
    | advanceOrder c => exact giving_keeps (advanceOrder_keeps c)
    | moveTable c => exact giving_keeps (moveTable_keeps c)
    | setTable c => exact giving_keeps (setTable_keeps c)
    | addGoalPeriod c => exact giving_keeps (Task.counted_keeps (addGoalPeriod_keeps hc))
    | createGoalSet c => exact giving_keeps (Task.counted_keeps (createGoalSet_keeps hc))
    | _ =>
      rw [hc] at hset
      cases hset

end Solo

end Brigade
