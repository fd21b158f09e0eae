/-
Commands on orders and tables beside one another, and the same commands one after another.

What a client has landed on is what it had fetched: an update is granted to the copy that is stored only, and an order is
placed at any available table in the same way. So a client that is run by itself on the store that it has landed on, with
its draws given again, lands in the same way (`repeat_landing`), and goes on to the same end, since after its landing it
only announces and counts. By induction on the schedule, all who landed can be run one after another
(`repeated_interleaved`).
- `optimistic_locking`: which updates are granted to any clients, what is stored after them, and that commands on orders
  and tables are equal to those who landed, one after another in the order of their writes, if tables hold.
- `taken_in_the_meantime`: a table that is taken while an order for it is placed is why tables have to hold.
-/
import Brigade.Proofs.Additions
import Brigade.Proofs.FloorLog
import Brigade.Proofs.Replay

namespace Brigade

open Answered Sessions

/-! ## Repeating a landing -/

/-- an order that cannot be asked for is refused at once; otherwise the table is fetched first, and one that is available
is as good as another -/
theorem CreateOrder.plan_cases (c : CreateOrder) (settings : Settings) :
    (∃ m e, ((Command.createOrder c).task settings).plan = .ask (.count m) fun _ => .done e) ∨
      ∃ next, ((Command.createOrder c).task settings).plan = .ask (.get .table c.tableId) next ∧
        ∀ t t' : Table, t.isAvailable = true → t'.isAvailable = true →
          next (.value (some t)) = next (.value (some t')) := by
  cases hp : c.problem? with
  | some f =>
    left
    refine ⟨.orderCreationFailures f.kind, .failure f, ?_⟩
    simp only [Command.task, CreateOrder.task, hp]
    rfl
  | none =>
    right
    simp only [Command.task, CreateOrder.task, hp]
    refine ⟨_, rfl, fun t t' ht ht' => ?_⟩
    simp only [Plan.bind, Task.orFail, bind, Task.bind, Task.stop, ht, ht', Bool.not_true, Bool.false_eq_true, ↓reduceIte]

namespace Floor

variable {w : Floor} {r : Request} {s t : Service} {env env' : Surroundings} {k : Kind} {i : Id}
  {settings : Settings} {h pre post : List Answered} {q : Plan (Ending CommandResult)}

/-- an order is placed in the same way at any table that is available -/
theorem path_available {c : CreateOrder} {t t' : Table} (ht : t.isAvailable = true) (ht' : t'.isAvailable = true)
    (hpre : ∀ x ∈ pre, w.Quiet x)
    (path : ((Command.createOrder c).task settings).plan.Path (pre ++ ⟨.get .table c.tableId, .value (some t)⟩ :: post) q) :
    ((Command.createOrder c).task settings).plan.Path (pre ++ ⟨.get .table c.tableId, .value (some t')⟩ :: post) q := by
  obtain ⟨m, e, hplan⟩ | ⟨next, hplan, hsame⟩ := c.plan_cases settings
  · -- nothing was fetched
    rw [hplan] at path
    obtain _ | ⟨x, pre⟩ := pre
    · cases path
    · cases path with
      | ask rest => cases pre <;> cases rest
  · rw [hplan] at path ⊢
    obtain _ | ⟨x, pre⟩ := pre
    · cases path with
      | ask rest =>
        rw [hsame t t' ht ht'] at rest
        exact .ask rest
    · cases path with
      | ask rest => cases (hpre _ List.mem_cons_self).isQuiet

/-- surroundings that feed it make a service with the menu reply to quiet requests as before -/
theorem gives_of_quiet (hquiet : ∀ x ∈ h, w.Quiet x) (hmenu : s.store.menuItems = w.menu) (hfeed : env.Feed s h) :
    ∃ t, (Service.answer env).Gives s h t ∧ t.store = s.store := by
  induction h generalizing s with
  | nil => exact ⟨s, rfl, rfl⟩
  | cons x h ih =>
    obtain ⟨hx, hlater⟩ := List.forall_mem_cons.1 hquiet
    obtain ⟨r, x⟩ := x
    have hreply : (Service.answer env r s).1 = x := by
      cases r with
      | get k i =>
        cases k with
        | menuItem =>
          obtain rfl : x = .value (w.menu.get? i) := hx
          exact congrArg (fun m : Repository MenuItem => Ending.value (m.get? i)) hmenu
        | _ => cases hx
      | freshId => exact hfeed.1 0 x rfl
      | clock => exact hfeed.2 0 x rfl
      | count m => rfl
      | _ => cases hx
    subst hreply
    have hstore : (Service.answer env r s).2.store = s.store :=
      Service.store_answer (Request.isWrite_of_isQuiet hx.isQuiet)
    have hrest : env.Feed (Service.answer env r s).2 h :=
      Surroundings.Feed.right (h := [⟨r, _⟩]) hfeed (Service.passed_answer env r s).1
    obtain ⟨t, hgives, ht⟩ := ih hlater (hstore ▸ hmenu) hrest
    exact ⟨t, ⟨rfl, hgives⟩, ht.trans hstore⟩

/-- a command that has written and goes on changes nothing that the next one looks at -/
theorem run_of_written (env : Surroundings) {q : Plan (Ending CommandResult)} (hq : q.Keeps w.protocol (Ends w) .written)
    (hheard : s.channelOpen = w.heard) :
    (q.run (Service.answer env) s).2.store = s.store ∧ Service.Passed [] s (q.run (Service.answer env) s).2 := by
  have hkept : ∀ ph r t, (ph = Phase.written ∧ t.store = s.store ∧ Service.Passed [] s t) → w.protocol.asks ph r →
      w.protocol.answers r (Service.answer env r t).1 ∧
        w.protocol.after ph r (Service.answer env r t).1 = .written ∧
        (Service.answer env r t).2.store = s.store ∧ Service.Passed [] s (Service.answer env r t).2 := by
    rintro ph r t ⟨rfl, hstore, hpassed⟩ hasks
    -- neither an announcement nor a count draws anything
    have hnext := (Service.passed_answer env r t).1
    obtain ⟨e, rfl⟩ | ⟨m, rfl⟩ := hasks
    · exact ⟨(Service.answer_publish e).trans (hpassed.heard.trans hheard), rfl, (Service.store_answer rfl).trans hstore,
        hpassed.append ⟨hnext.idsDrawn, hnext.timesRead, hnext.heard⟩⟩
    · exact ⟨trivial, rfl, hstore, hpassed.append ⟨hnext.idsDrawn, hnext.timesRead, hnext.heard⟩⟩
  obtain ⟨ph, -, -, hstore, hpassed⟩ := hq.run hkept ⟨rfl, rfl, rfl, rfl, rfl⟩
  exact ⟨hstore, hpassed⟩

end Floor

namespace Service

variable {env env' : Surroundings} {settings : Settings} {commands : List Command} {before s t : Service}
  {log : List Exchange} {n : Nat}

/-- what was fetched has no part in the draws -/
theorem drawn_refetch {k : Kind} {i : Id} (found found' : Option k.Member) (pre post : List Answered) :
    drawnIds (pre ++ ⟨.get k i, .value found⟩ :: post) = drawnIds (pre ++ ⟨.get k i, .value found'⟩ :: post) ∧
      drawnTimes (pre ++ ⟨.get k i, .value found⟩ :: post) = drawnTimes (pre ++ ⟨.get k i, .value found'⟩ :: post) := by
  rw [drawnIds_append, drawnIds_append, drawnTimes_append, drawnTimes_append]
  exact ⟨rfl, rfl⟩

/-- the way of a client that lands is still one if it has fetched what is stored when it lands -/
theorem path_fetched_now {c : Command} {r : Request} {q : Plan (Ending CommandResult)} {k : Kind} {i : Id}
    {found : Option k.Member} {pre post : List Answered} (hdated : CopiesDated s log) (hc : commands[n]? = some c)
    (hw : (before.onFloor commands n).Writes (.holding k i found) r)
    (hlands : Exchange.lands ⟨n, r, (answer env r s).1⟩ = true)
    (hown : own n log = pre ++ ⟨.get k i, .value found⟩ :: post) (hpre : ∀ x ∈ pre, (before.onFloor commands n).Quiet x)
    (path : (c.task settings).plan.Path (own n log ++ [⟨r, (answer env r s).1⟩]) q)
    (htable : ∀ o, r = .add .order o → ∃ t, s.store.tables.get? o.tableId = some t ∧ t.isAvailable = true) :
    (c.task settings).plan.Path
      ((pre ++ ⟨.get k i, .value ((s.store.repo k).get? i)⟩ :: post) ++ [⟨r, (answer env r s).1⟩]) q := by
  rw [hown] at path
  cases hw with
  | update hk hversion =>
    rename_i a copy
    cases hu : (s.store.repo k).update a with
    | ok p =>
      -- an update is granted to the copy that is stored only
      obtain ⟨stored, v, hget, hcurrent, -⟩ := Repository.update_eq_ok hu
      have hread : ⟨.get k (Aggregate.id a), .value (some copy)⟩ ∈ own n log := by
        rw [hown]
        exact List.mem_append_right _ List.mem_cons_self
      obtain rfl : stored = copy := eq_copy hdated hread hget (hcurrent.trans hversion)
      rwa [hget]
    | refused f =>
      rw [answer_update_of_refused hu] at hlands
      cases hlands
    | fault f =>
      rw [answer_update_of_fault hu] at hlands
      cases hlands
  | add hplaced havailable hat =>
    rename_i order table o
    obtain ⟨table', hget, havailable'⟩ := htable o rfl
    rw [hat] at hget
    obtain rfl : c = .createOrder order := Option.some.inj (hc.symm.trans hplaced)
    rw [List.append_assoc, List.cons_append] at path ⊢
    have hnow : (s.store.repo .table).get? order.tableId = some table' := hget
    rw [hnow]
    exact Floor.path_available havailable havailable' hpre path

/-- **A landing can be repeated.** A client that is run by itself, on the store that it has landed on, with its draws given
again, comes to where it stands after its landing, and makes the same of the store. -/
theorem repeat_landing {c : Command} {r : Request} {q : Plan (Ending CommandResult)} (h : Busy commands before s log)
    (hc : commands[n]? = some c)
    (hasks : (before.onFloor commands n).protocol.asks (before.floorPhase commands n log) r)
    (hlands : Exchange.lands ⟨n, r, (answer env r s).1⟩ = true)
    (path : (c.task settings).plan.Path (own n log ++ [⟨r, (answer env r s).1⟩]) q)
    (htable : ∀ o, r = .add .order o → ∃ t, s.store.tables.get? o.tableId = some t ∧ t.isAvailable = true)
    (hstore : t.store = s.store) (hfeed : env'.Feed t (own n log ++ [⟨r, (answer env r s).1⟩])) :
    ∃ u, (c.task settings).plan.run (answer env') t = q.run (answer env') u ∧ u.store = (answer env r s).2.store ∧
      Passed (own n log ++ [⟨r, (answer env r s).1⟩]) t u ∧ u.events = t.events := by
  have hr : r.isWrite = true := Exchange.isWrite_of_lands hlands
  obtain ⟨-, k, i, found, ⟨pre, post, hown, hpre, hpost⟩, hw⟩ := h.prepared hasks hr
  have hpath : (c.task settings).plan.Path
      ((pre ++ ⟨.get k i, .value ((s.store.repo k).get? i)⟩ :: post) ++ [⟨r, (answer env r s).1⟩]) q :=
    path_fetched_now h.dated hc hw hlands hown hpre path htable
  rw [hown, List.append_assoc, List.cons_append] at hfeed
  obtain ⟨t₁, hgives₁, hstore₁⟩ :=
    Floor.gives_of_quiet hpre ((congrArg Store.menuItems hstore).trans h.menu) hfeed.left
  have hfetched : (answer env').Gives t₁ [⟨.get k i, .value ((s.store.repo k).get? i)⟩] t₁ := by
    rw [← hstore, ← hstore₁]
    exact World.gives_answer _
  have hrest : env'.Feed t₁ (post ++ [⟨r, (answer env r s).1⟩]) := hfeed.right (passed_of_gives hgives₁)
  obtain ⟨t₂, hgives₂, hstore₂⟩ := Floor.gives_of_quiet hpost
    ((congrArg Store.menuItems (hstore₁.trans hstore)).trans h.menu) hrest.left
  obtain ⟨hreply, hmade⟩ := answer_write env env' hr ((hstore₂.trans hstore₁).trans hstore).symm
  have hgives : (answer env').Gives t
      ((pre ++ ⟨.get k i, .value ((s.store.repo k).get? i)⟩ :: post) ++ [⟨r, (answer env r s).1⟩])
      (answer env' r t₂).2 := by
    rw [hreply]
    exact (hgives₁.append (hfetched.append hgives₂)).append (World.gives_answer r)
  refine ⟨(answer env' r t₂).2, World.run_of_gives hpath hgives, hmade.symm, ?_, ?_⟩
  · have hpassed := passed_of_gives hgives
    rw [List.append_assoc, List.cons_append] at hpassed
    obtain ⟨hids, htimes⟩ := drawn_refetch found ((s.store.repo k).get? i) pre (post ++ [⟨r, (answer env r s).1⟩])
    rw [hown, List.append_assoc, List.cons_append]
    exact ⟨hids ▸ hpassed.idsDrawn, htimes ▸ hpassed.timesRead, hpassed.heard⟩
  · have hnothing : announced [⟨r, (answer env r s).1⟩] = [] := by
      cases r <;> first | rfl | cases hr
    rw [events_of_gives hgives, announced_append, announced_of_prepared ⟨pre, post, rfl, hpre, hpost⟩, hnothing]
    exact List.append_nil _

/-! ## One after another -/

variable (env : Surroundings) (settings : Settings) (commands : List Command) (schedule : List Nat) (s : Service)

/-- the commands of these clients, one after another -/
def oneByOne (ns : List Nat) : Service := s.executeAll env settings (ns.filterMap (commands[·]?))

variable {env settings commands s}

theorem oneByOne_snoc {n : Nat} {c : Command} (ns : List Nat) (hc : commands[n]? = some c) :
    s.oneByOne env settings commands (ns ++ [n]) = ((s.oneByOne env settings commands ns).execute env settings c).2 := by
  simp [oneByOne, executeAll, List.filterMap_append, hc]

variable (env settings commands s)

/-- whenever an order is stored, its table is there and available -/
def TablesHold : Prop :=
  ∀ front n back o b, schedule = front ++ n :: back →
    (s.interleaved env settings commands (front ++ [n])).log =
      (s.interleaved env settings commands front).log ++ [⟨n, .add .order o, .value b⟩] →
    ∃ t, (s.interleaved env settings commands front).world.store.tables.get? o.tableId = some t ∧ t.isAvailable = true

variable {env settings commands schedule s}

/-- whether a client that is about to store an order finds its table available -/
def tableFree (run : Sessions (Ending CommandResult) Service) (n : Nat) : Bool :=
  match run.plans[n]? with
  | some (.ask (.add .order o) _) => (run.world.store.tables.get? o.tableId).any Table.isAvailable
  | _ => true

/-- that tables hold can be checked turn by turn -/
theorem tablesHold_of_free
    (h : ∀ j < schedule.length,
      tableFree (s.interleaved env settings commands (schedule.take j)) (schedule.getD j 0) = true) :
    s.TablesHold env settings commands schedule := by
  rintro front n back o b rfl hlog
  have hfree : tableFree (s.interleaved env settings commands front) n = true := by
    simpa using h front.length (by simp)
  rw [interleaved_snoc] at hlog
  obtain heq | ⟨r, next, hn, heq⟩ := turn_cases (answer env) (s.interleaved env settings commands front) n
  · rw [heq] at hlog
    simp at hlog
  · rw [heq] at hlog
    obtain ⟨-, rfl, -⟩ := Exchange.mk.inj (List.singleton_inj.1 (List.append_cancel_left hlog))
    simp only [tableFree, hn] at hfree
    exact (Option.any_eq_true _ _).1 hfree

/-- run one after another, those who landed leave what is stored, and each comes to where it stands -/
structure Repeated (env' : Surroundings) (settings : Settings) (commands : List Command) (s : Service)
    (run : Sessions (Ending CommandResult) Service) : Prop where
  store : (s.oneByOne env' settings commands (landed run.log)).store = run.world.store
  passed : Passed (ofLanded run.log) s (s.oneByOne env' settings commands (landed run.log))
  each : ∀ pre n post c q, landed run.log = pre ++ n :: post → commands[n]? = some c → run.plans[n]? = some q →
    ∃ t, (s.oneByOne env' settings commands pre).execute env' settings c = q.run (answer env') t ∧
      t.channelOpen = s.channelOpen ∧
      t.events = (s.oneByOne env' settings commands pre).events ++ announced (own n run.log)

variable {env' : Surroundings} {run : Sessions (Ending CommandResult) Service} {n : Nat} {r : Request}
  {next : r.Reply → Plan (Ending CommandResult)}

/-- an exchange that lands nothing leaves the clients repeated -/
theorem repeated_of_not_lands (h : Repeated env' settings commands s run) (hb : Busy commands s run.world run.log)
    (hasks : (s.onFloor commands n).protocol.asks (s.floorPhase commands n run.log) r)
    (hn : run.plans[n]? = some (.ask r next))
    (hl : ¬Exchange.lands ⟨n, r, (answer env r run.world).1⟩ = true) :
    Repeated env' settings commands s (run.turn (answer env) n) := by
  have hlanded : landed (run.turn (answer env) n).log = landed run.log := by
    rw [turn_of_ask hn, landed_snoc, if_neg hl, List.append_nil]
  have hwritten : n ∈ landed run.log → (s.onFloor commands n).protocol.asks .written r := by
    intro hin
    rwa [(hb.landed_iff n).1 hin] at hasks
  refine ⟨?_, ?_, ?_⟩
  · rw [hlanded, turn_of_ask hn, h.store]
    exact (store_of_not_lands (by simpa using hl)).symm
  · have hdrawn := drawn_ofLanded_snoc hl fun hin => Floor.drawn_of_written (hwritten hin) _
    rw [hlanded, turn_of_ask hn]
    refine ⟨?_, ?_, h.passed.heard⟩
    · rw [hdrawn.1]
      exact h.passed.idsDrawn
    · rw [hdrawn.2]
      exact h.passed.timesRead
  · intro pre m post c q hsplit hc hq
    rw [hlanded] at hsplit
    rw [turn_of_ask hn] at hq ⊢
    by_cases hmn : n = m
    · subst hmn
      obtain ⟨t, hrun, hheard, hevents⟩ := h.each pre n post c _ hsplit hc hn
      have hin : n ∈ landed run.log := by
        rw [hsplit]
        exact List.mem_append_right _ List.mem_cons_self
      obtain ⟨hlen, -⟩ := List.getElem?_eq_some_iff.1 hn
      obtain rfl := Option.some.inj ((List.getElem?_set_self hlen).symm.trans hq)
      have hreply : (answer env' r t).1 = (answer env r run.world).1 :=
        Floor.reply_of_written (hwritten hin) (hheard.trans hb.heard.symm)
      refine ⟨(answer env' r t).2, ?_, (channelOpen_answer r).trans hheard, ?_⟩
      · rw [hrun, Plan.run_ask, hreply]
      · rw [(passed_answer env' r t).2, hevents, List.append_assoc, hreply, own_snoc_self, announced_append]
    · obtain ⟨t, hrun, hheard, hevents⟩ := h.each pre m post c q hsplit hc ((List.getElem?_set_ne hmn).symm.trans hq)
      refine ⟨t, hrun, hheard, ?_⟩
      rw [own_snoc_of_ne hmn]
      exact hevents

/-- a landing is repeated after those before it -/
theorem repeated_of_lands {c : Command} (h : Repeated env' settings commands s run)
    (hb : Busy commands s run.world run.log) (hc : commands[n]? = some c)
    (hasks : (s.onFloor commands n).protocol.asks (s.floorPhase commands n run.log) r)
    (hn : run.plans[n]? = some (.ask r next))
    (hl : Exchange.lands ⟨n, r, (answer env r run.world).1⟩ = true)
    (path : (c.task settings).plan.Path (own n run.log ++ [⟨r, (answer env r run.world).1⟩])
      (next (answer env r run.world).1))
    (hnext : (next (answer env r run.world).1).Keeps (s.onFloor commands n).protocol (Floor.Ends (s.onFloor commands n))
      .written)
    (htable : ∀ o, r = .add .order o →
      ∃ t, run.world.store.tables.get? o.tableId = some t ∧ t.isAvailable = true)
    (hfeed : env'.Feed s (ofLanded (run.turn (answer env) n).log)) :
    Repeated env' settings commands s (run.turn (answer env) n) := by
  have hr : r.isWrite = true := Exchange.isWrite_of_lands hl
  obtain ⟨hnot, k, i, found, hprepared, -⟩ := hb.prepared hasks hr
  rw [turn_of_ask hn] at hfeed ⊢
  have hnew : ofLanded (run.log ++ [⟨n, r, (answer env r run.world).1⟩]) =
      ofLanded run.log ++ (own n run.log ++ [⟨r, (answer env r run.world).1⟩]) := by
    rw [ofLanded_snoc_of_lands hnot hl, own_snoc_self]
  have hlanded : landed (run.log ++ [⟨n, r, (answer env r run.world).1⟩]) = landed run.log ++ [n] := by
    rw [landed_snoc, if_pos hl]
  rw [hnew] at hfeed
  obtain ⟨t, hrun, hstore, hpassed, hevents⟩ :=
    repeat_landing hb hc hasks hl path htable h.store (hfeed.right h.passed)
  have hheard : t.channelOpen = s.channelOpen := hpassed.heard.trans h.passed.heard
  obtain ⟨hrest, hquiet⟩ := Floor.run_of_written env' hnext hheard
  have hexecute : (s.oneByOne env' settings commands (landed run.log)).execute env' settings c =
      (next (answer env r run.world).1).run (answer env') t := hrun
  refine ⟨?_, ?_, ?_⟩
  · change (s.oneByOne env' settings commands (landed (run.log ++ [_]))).store = (answer env r run.world).2.store
    rw [hlanded, oneByOne_snoc _ hc, hexecute, hrest, hstore]
  · change Passed (ofLanded (run.log ++ [_])) s (s.oneByOne env' settings commands (landed (run.log ++ [_])))
    rw [hnew, hlanded, oneByOne_snoc _ hc, hexecute]
    have := h.passed.append (hpassed.append hquiet)
    rwa [List.append_nil] at this
  · intro pre m post c' q hsplit hc' hq
    change landed (run.log ++ [_]) = _ at hsplit
    rw [hlanded] at hsplit
    change ∃ t, _ ∧ _ ∧ _ = _ ++ announced (own m (run.log ++ [_]))
    obtain ⟨rfl, rfl, rfl⟩ | ⟨post', rfl, hearlier⟩ := split_snoc hsplit
    · obtain rfl := Option.some.inj (hc.symm.trans hc')
      obtain ⟨hlen, -⟩ := List.getElem?_eq_some_iff.1 hn
      obtain rfl := Option.some.inj ((List.getElem?_set_self hlen).symm.trans hq)
      have hnothing : announced [⟨r, (answer env r run.world).1⟩] = [] := by
        cases r <;> first | rfl | cases hr
      refine ⟨t, hexecute, hheard, ?_⟩
      rw [own_snoc_self, announced_append, announced_of_prepared hprepared, hnothing, hevents]
      exact (List.append_nil _).symm
    · have hmn : n ≠ m := by
        rintro rfl
        rw [hearlier] at hnot
        exact hnot (List.mem_append_right _ List.mem_cons_self)
      rw [own_snoc_of_ne hmn]
      exact h.each pre m post' c' q hearlier hc' ((List.getElem?_set_ne hmn).symm.trans hq)

/-- where a client stands that has just landed -/
theorem stands_of_lands (hfloor : ∀ c ∈ commands, c.onFloor = true) {c : Command} (hc : commands[n]? = some c)
    (hrun : run = s.interleaved env settings commands schedule) (hn : run.plans[n]? = some (.ask r next))
    (hl : Exchange.lands ⟨n, r, (answer env r run.world).1⟩ = true) :
    (c.task settings).plan.Path (own n run.log ++ [⟨r, (answer env r run.world).1⟩])
        (next (answer env r run.world).1) ∧
      (next (answer env r run.world).1).Keeps (s.onFloor commands n).protocol (Floor.Ends (s.onFloor commands n))
        .written := by
  have hrun' : s.interleaved env settings commands (schedule ++ [n]) =
      ⟨run.plans.set n (next (answer env r run.world).1), (answer env r run.world).2,
        run.log ++ [⟨n, r, (answer env r run.world).1⟩]⟩ := by
    rw [interleaved_snoc, ← hrun, turn_of_ask hn]
  have hk := s.kept_floor env settings (schedule ++ [n]) hfloor
  obtain ⟨q, hq, path⟩ := s.path_interleaved env settings (schedule ++ [n]) hc
  rw [hrun'] at hk hq path
  obtain ⟨hlen, -⟩ := List.getElem?_eq_some_iff.1 hn
  obtain rfl := Option.some.inj ((List.getElem?_set_self hlen).symm.trans hq)
  have hwritten : s.floorPhase commands n (run.log ++ [⟨n, r, (answer env r run.world).1⟩]) = .written := by
    refine (hk.holds.landed_iff n).1 ?_
    rw [landed_snoc, if_pos hl]
    exact List.mem_append_right _ (List.mem_singleton_self n)
  rw [own_snoc_self] at path
  exact ⟨path, hwritten ▸ hk.keeps n _ hq⟩

/-- **Landings can be repeated one after another**, in surroundings that give the draws of those who landed again. -/
theorem repeated_interleaved (hfloor : ∀ c ∈ commands, c.onFloor = true)
    (htables : s.TablesHold env settings commands schedule)
    (hfeed : env'.Feed s (ofLanded (s.interleaved env settings commands schedule).log)) :
    Repeated env' settings commands s (s.interleaved env settings commands schedule) := by
  induction schedule using List.reverseRecOn with
  | nil =>
    refine ⟨rfl, ⟨rfl, rfl, rfl⟩, fun pre n post c q h => ?_⟩
    have hnil : ([] : List Nat) = pre ++ n :: post := h
    simp at hnil
  | append_singleton schedule n ih =>
    have hearlier : s.TablesHold env settings commands schedule := by
      rintro front m back o b rfl hlog
      exact htables front m (back ++ [n]) o b (by simp) hlog
    have hk := s.kept_floor env settings schedule hfloor
    rw [interleaved_snoc] at hfeed ⊢
    obtain heq | ⟨r, next, hn, heq⟩ := turn_cases (answer env) (s.interleaved env settings commands schedule) n
    · rw [heq] at hfeed ⊢
      exact ih hearlier hfeed
    · obtain ⟨c, hc⟩ := command_of_plan hn
      have hasks : (s.onFloor commands n).protocol.asks
          (s.floorPhase commands n (s.interleaved env settings commands schedule).log) r := (hk.keeps n _ hn).1
      by_cases hl : Exchange.lands ⟨n, r, (answer env r (s.interleaved env settings commands schedule).world).1⟩ = true
      · obtain ⟨path, hnext⟩ := stands_of_lands hfloor hc rfl hn hl
        have hold : env'.Feed s (ofLanded (s.interleaved env settings commands schedule).log) := by
          rw [heq, ofLanded_snoc_of_lands (hk.holds.prepared hasks (Exchange.isWrite_of_lands hl)).1 hl] at hfeed
          exact hfeed.left
        refine repeated_of_lands (ih hearlier hold) hk.holds hc hasks hn hl path hnext (fun o ho => ?_) hfeed
        subst ho
        cases hx : (answer env (.add .order o) (s.interleaved env settings commands schedule).world).1 with
        | value b =>
          refine htables schedule n [] o b rfl ?_
          rw [interleaved_snoc, heq, hx]
        | _ =>
          rw [hx] at hl
          cases hl
      · refine repeated_of_not_lands (ih hearlier ?_) hk.holds hasks hn hl
        have hdrawn := drawn_ofLanded_snoc hl fun hin => by
          rw [(hk.holds.landed_iff n).1 hin] at hasks
          exact Floor.drawn_of_written hasks _
        rw [heq] at hfeed
        exact ⟨hdrawn.1 ▸ hfeed.1, hdrawn.2 ▸ hfeed.2⟩

/-- the events of those who have landed and ended -/
theorem Repeated.events_eq (h : Repeated env' settings commands s (s.interleaved env settings commands schedule))
    (hended : ∀ n ∈ landed (s.interleaved env settings commands schedule).log,
      ∃ e, (s.interleaved env settings commands schedule).Ended n e) {ns : List Nat}
    (hns : ns <+: landed (s.interleaved env settings commands schedule).log) :
    (s.oneByOne env' settings commands ns).events =
      s.events ++ announced (ns.flatMap fun n => own n (s.interleaved env settings commands schedule).log) := by
  induction ns using List.reverseRecOn with
  | nil => exact (List.append_nil _).symm
  | append_singleton ns n ih =>
    obtain ⟨post, hsplit⟩ := hns
    rw [List.append_assoc, List.singleton_append] at hsplit
    obtain ⟨e, he⟩ := hended n (hsplit ▸ List.mem_append_right _ List.mem_cons_self)
    obtain ⟨c, hc⟩ := command_of_plan he
    obtain ⟨t, hrun, -, hevents⟩ := h.each ns n post c _ hsplit.symm hc he
    have hexecute : (s.oneByOne env' settings commands ns).execute env' settings c = (e, t) := hrun
    rw [oneByOne_snoc _ hc, hexecute, hevents, ih ⟨n :: post, hsplit⟩, List.append_assoc, ← announced_append,
      List.flatMap_append, List.flatMap_singleton]

/-! ## Equal to a run one after another -/

/-- how a run goes on with an update of a copy that its client has read: the update is granted exactly if nobody has
written since the copy was read; then what was sent is stored under the next version, and otherwise the write is stale and
changes nothing -/
def Decides {α : Type} (env : Surroundings) (run : Sessions α Service) : Prop :=
  ∀ pre since n k i c a next, run.log = pre ++ ⟨n, .get k i, .value (some c)⟩ :: since →
    run.plans[n]? = some (.ask (.update k a) next) → Aggregate.id a = i → Aggregate.version a = Aggregate.version c →
    (Aggregate.version c).toInt < Int32.maxValue.toInt →
    (writers k i since = [] → ∃ v : Int32, v.toInt = (Aggregate.version c).toInt + 1 ∧
      (run.turn (answer env) n).log = run.log ++ [⟨n, .update k a, .value (Aggregate.withVersion a v)⟩] ∧
      (run.turn (answer env) n).world = { run.world with
        store := run.world.store.setRepo k ((run.world.store.repo k).replace (Aggregate.withVersion a v)) } ∧
      ((run.turn (answer env) n).world.store.repo k).get? i = some (Aggregate.withVersion a v)) ∧
    (writers k i since ≠ [] →
      (run.turn (answer env) n).log = run.log ++ [⟨n, .update k a, .failure (.staleWrite i)⟩] ∧
        (run.turn (answer env) n).world = run.world)

/-- one after another, in the order of their writes and with their draws given again, those who landed leave the same
store, end in the same way, and announce the same events -/
structure SerialInOrder (env' : Surroundings) (settings : Settings) (commands : List Command) (s : Service)
    (run : Sessions (Ending CommandResult) Service) : Prop where
  draws : env'.Feed s (ofLanded run.log)
  store : (s.oneByOne env' settings commands (landed run.log)).store = run.world.store
  endings : ∀ pre n post c e, landed run.log = pre ++ n :: post → commands[n]? = some c → run.Ended n e →
    ((s.oneByOne env' settings commands pre).execute env' settings c).1 = e
  events : (∀ n ∈ landed run.log, ∃ e, run.Ended n e) →
    run.world.events.Perm (s.oneByOne env' settings commands (landed run.log)).events

theorem serialInOrder_interleaved (hfloor : ∀ c ∈ commands, c.onFloor = true)
    (htables : s.TablesHold env settings commands schedule) :
    ∃ env' : Surroundings, SerialInOrder env' settings commands s (s.interleaved env settings commands schedule) := by
  obtain ⟨env', hfeed⟩ := Surroundings.exists_feed env s (ofLanded (s.interleaved env settings commands schedule).log)
  have hrepeated := repeated_interleaved hfloor htables hfeed
  refine ⟨env', hfeed, hrepeated.store, fun pre n post c e hsplit hc hn => ?_, fun hended => ?_⟩
  · obtain ⟨t, hrun, -⟩ := hrepeated.each pre n post c _ hsplit hc hn
    exact congrArg Prod.fst hrun
  · rw [hrepeated.events_eq hended (List.prefix_refl _)]
    exact (s.kept_floor env settings schedule hfloor).holds.events

/-- **Optimistic locking.** Any number of clients read, change and update aggregates of any kind, interleaved in any order.
An update is granted exactly if nobody has written since the read. If all that a client writes is a change of what it has
read, then what is stored is what was there in the beginning, changed by the writers one after another, each change applied
to the result of the one before, and its version counts them. So commands on orders and tables are equal to the same
commands one after another, in the order of their writes, if the table of every order is available when the order is
stored: those who end with a value are among those who landed, each once. -/
theorem optimistic_locking (env : Surroundings) (s : Service) :
    (∀ (α : Type) (plans : List (Plan α)) (schedule : List Nat),
      let run := (Sessions.start plans s).interleave (answer env) schedule
      Decides env run ∧
      ∀ may, (∀ n (p : Plan α), plans[n]? = some p → p.Keeps (editing (may n)) (fun _ _ => True) []) →
        ∀ k i t, (s.store.repo k).get? i = some t →
          ∃ u, (run.world.store.repo k).get? i = some u ∧ Edited may k t (writers k i run.log) u ∧
            (Aggregate.version u).toInt = (Aggregate.version t).toInt + (writers k i run.log).length) ∧
    ∀ (settings : Settings) (commands : List Command) (schedule : List Nat),
      (∀ c ∈ commands, c.onFloor = true) → s.TablesHold env settings commands schedule →
      let run := s.interleaved env settings commands schedule
      (landed run.log).Nodup ∧
      (∀ n e, run.Ended n e →
        ((∃ r, e = .value r) → n ∈ landed run.log) ∧
        (n ∈ landed run.log → (∃ r, e = .value r) ∨ s.channelOpen = false ∧ ∃ m, e = .failure (.event m))) ∧
      ∃ env' : Surroundings, SerialInOrder env' settings commands s run := by
  refine ⟨fun α plans schedule => ⟨?_, ?_⟩, fun settings commands schedule hfloor htables => ⟨?_, ?_, ?_⟩⟩
  · intro pre since n k i c a next hread hnext hid hversion hroom
    have hsince : Since k i c since _ := copiesDated pre since n k i c hread
    exact ⟨fun h => turn_of_unwritten hsince h hnext hid hversion hroom,
      fun h => turn_of_written hsince h hnext hid hversion⟩
  · intro may hedit k i t ht
    obtain ⟨u, hu, hedited⟩ := edited_of_editing hedit k i t ht
    exact ⟨u, hu, hedited, hedited.version_eq⟩
  · exact (s.kept_floor env settings schedule hfloor).holds.nodup
  · have hk := s.kept_floor env settings schedule hfloor
    refine fun n e hn => ⟨?_, fun hin => ?_⟩
    · rintro ⟨r, rfl⟩
      exact (hk.holds.landed_iff n).2 (hk.keeps n _ hn)
    · have hends : Floor.Ends (s.onFloor commands n)
          (s.floorPhase commands n (s.interleaved env settings commands schedule).log) e := hk.keeps n _ hn
      rw [(hk.holds.landed_iff n).1 hin] at hends
      exact Floor.ends_of_written hends
  · exact serialInOrder_interleaved hfloor htables

/-- two free tables, and soup on the menu -/
def openingHour : Service :=
  { Service.start with
    store :=
      { Store.empty with
        tables := ⟨[⟨.ofNat 1, 1, 4, .available, none, 1⟩, ⟨.ofNat 2, 2, 4, .available, none, 1⟩], []⟩
        menuItems :=
          ⟨[⟨.ofNat 9, "Soup", "Mains", none, .ofInt32 7, true, 1⟩], []⟩ } }

/-- read a table, and write it with another status -/
def resetting (i : Id) (status : TableStatus) : Plan Unit :=
  .ask (.get .table i) fun
    | .value (some t) => .ask (.update .table { t with status := status }) fun _ => .done ()
    | _ => .done ()

/-- tables are changed, and only in their status -/
def Resets : (k : Kind) → k.Member → k.Member → Prop
  | .table, t, a => ∃ status, a = { t with status := status }
  | _, _, _ => False

theorem resetting_keeps (i : Id) (status : TableStatus) :
    (resetting i status).Keeps (editing Resets) (fun _ _ => True) [] := by
  refine ⟨trivial, fun x hx => ?_⟩
  cases x with
  | value found =>
    cases found with
    | none => trivial
    | some t =>
      obtain rfl : t.id = i := hx t rfl
      exact ⟨⟨t, List.mem_singleton_self _, rfl, status, rfl⟩, fun _ _ => trivial⟩
  | _ => trivial

/-- two who reset the first table, and one who resets the second -/
def resetters : List (Plan Unit) :=
  [resetting (.ofNat 1) .occupied, resetting (.ofNat 1) .outOfService, resetting (.ofNat 2) .occupied]

/-- all of them have read, and the first one has written -/
def threeResets : Sessions Unit Service :=
  (Sessions.start resetters openingHour).interleave (answer .standstill) [0, 1, 2, 0]

/-- a soup at the first table, and two who set that table -/
def evening : List Command :=
  [.createOrder ⟨.ofNat 1, [⟨.ofNat 9, 1, none⟩], none⟩, .setTable ⟨.ofNat 1, .occupied⟩,
    .setTable ⟨.ofNat 1, .outOfService⟩]

theorem optimistic_locking_evening :
    ((threeResets.turn (answer .standstill) 1).world = threeResets.world ∧
      (∃ v : Int32, v.toInt = 2 ∧ ((threeResets.turn (answer .standstill) 2).world.store.repo .table).get? (.ofNat 2) =
        some (Aggregate.withVersion (⟨.ofNat 2, 2, 4, .occupied, none, 1⟩ : Table) v)) ∧
      ∃ u : Table, threeResets.world.store.tables.get? (.ofNat 1) = some u ∧ u.version.toInt = 2) ∧
    let run := openingHour.interleaved .standstill .standard evening [0, 1, 2, 0, 0, 1, 2, 0, 0, 0, 0, 1, 2, 1, 0, 0]
    landed run.log = [0, 1] ∧ ∃ env', SerialInOrder env' .standard evening openingHour run := by
  obtain ⟨hclients, hcommands⟩ := optimistic_locking .standstill openingHour
  obtain ⟨hdecides, hedited⟩ := hclients Unit resetters [0, 1, 2, 0]
  refine ⟨⟨?_, ?_, ?_⟩, ?_, ?_⟩
  · -- the second client has read before the first one wrote
    refine ((hdecides [_] [_, _] 1 .table (.ofNat 1) _ _ _ rfl rfl rfl rfl (by decide)).2 ?_).2
    decide
  · obtain ⟨v, hv, -, -, hstored⟩ :=
      (hdecides [_, _] [_] 2 .table (.ofNat 2) _ _ _ rfl rfl rfl rfl (by decide)).1 (by decide)
    exact ⟨v, hv, hstored⟩
  · have hkeeps : ∀ (n : Nat) (p : Plan Unit), resetters[n]? = some p →
        p.Keeps (editing Resets) (fun _ _ => True) [] := by
      intro n p hp
      have hmem : p ∈ resetters := List.mem_of_getElem? hp
      simp only [resetters, List.mem_cons, List.not_mem_nil, or_false] at hmem
      obtain rfl | rfl | rfl := hmem <;> exact resetting_keeps _ _
    obtain ⟨u, hu, -, hversion⟩ := hedited (fun _ => Resets) hkeeps .table (.ofNat 1) _ rfl
    exact ⟨u, hu, hversion⟩
  · decide +kernel
  · refine (hcommands .standard evening [0, 1, 2, 0, 0, 1, 2, 0, 0, 0, 0, 1, 2, 1, 0, 0] (by decide) ?_).2.2
    exact tablesHold_of_free (by decide +kernel)

/-- whether a client has ended with a value -/
def hasValue (run : Sessions (Ending CommandResult) Service) (n : Nat) : Bool :=
  match run.plans[n]? with
  | some (.done (.value _)) => true
  | _ => false

theorem exists_of_hasValue {run : Sessions (Ending CommandResult) Service} {n : Nat} (h : hasValue run n = true) :
    ∃ r, run.Ended n (.value r) := by
  unfold hasValue at h
  split at h
  · exact ⟨_, ‹_›⟩
  · cases h

/-- **Taken in the meantime.** A table is taken after it has been checked for an order, and before the order is stored. Both
commands end with a value, but they are not equal to the two one after another, in the order of their writes: after the
first one, the other one is refused. -/
theorem taken_in_the_meantime :
    let run := openingHour.interleaved .standstill .standard evening [0, 1, 1, 1, 1, 0, 0, 0, 0, 0, 0, 0, 0]
    (∃ r, run.Ended 0 (.value r)) ∧ (∃ r, run.Ended 1 (.value r)) ∧ landed run.log = [1, 0] ∧
      ∀ env' : Surroundings,
        ((openingHour.oneByOne env' .standard evening [1]).execute env' .standard
            (.createOrder ⟨.ofNat 1, [⟨.ofNat 9, 1, none⟩], none⟩)).1 =
          .failure (.invalidOperation "Table 1 is not available for orders") ∧
        ¬SerialInOrder env' .standard evening openingHour run := by
  have hordered : ∃ r, (openingHour.interleaved .standstill .standard evening
      [0, 1, 1, 1, 1, 0, 0, 0, 0, 0, 0, 0, 0]).Ended 0 (.value r) := exists_of_hasValue (by decide +kernel)
  have hlanded : landed (openingHour.interleaved .standstill .standard evening
      [0, 1, 1, 1, 1, 0, 0, 0, 0, 0, 0, 0, 0]).log = [1, 0] := by decide +kernel
  have hmessage : "Table " ++ toString (1 : Int) ++ " is not available for orders" =
      "Table 1 is not available for orders" := by decide +kernel
  have hrefused : ∀ env' : Surroundings,
      ((openingHour.oneByOne env' .standard evening [1]).execute env' .standard
          (.createOrder ⟨.ofNat 1, [⟨.ofNat 9, 1, none⟩], none⟩)).1 =
        .failure (.invalidOperation "Table 1 is not available for orders") := by
    intro env'
    rw [← hmessage]
    rfl
  refine ⟨hordered, exists_of_hasValue (by decide +kernel), hlanded, fun env' => ⟨hrefused env', fun h => ?_⟩⟩
  obtain ⟨r, hr⟩ := hordered
  have hsame := h.endings [1] 0 [] _ _ hlanded rfl hr
  rw [hrefused env'] at hsame
  cases hsame

end Service

end Brigade
