/-
What is counted of commands on goals, whatever the world replies.

Everything is read off the record of what a command asked and was replied. A try at a change starts with its fetch of the
goal set, and it is stale if its fetch or its update met a stale write. `Stands` counts both in a record, along with what
was counted of retries and conflicts so far, and every request moves it in its own way (`Stands.snoc`); one try adds one
(`modifyOnce_keeps_stands`), trying again as many as are made (`attempts_keeps_stands`), and a command ends with its own
success or failure on top (`task_keeps_recorded`).
- `executions_counted`: what a run of commands adds to the counters, over any replies of the store, with an event channel
  that is open or closed, and with the cancel signal at any time.

The world is only asked to count what it is asked to count (`Tallies`). A service does, and so does one that is disturbed
in any way but by commands of other clients, which count for themselves.
-/
import Mathlib.Tactic
import Brigade.Rehearsal
import Brigade.Proofs.GoalCommands
import Brigade.Proofs.Tries

namespace Brigade

variable {α β σ : Type}

/-! ## What a record tells -/

/-- the metric that a request counts -/
def Request.metric? : Request → Option Metric
  | .count m => some m
  | _ => none

/-- how often a record counts a metric -/
def timesCounted (m : Metric) (log : List Answered) : Nat := log.countP fun x => x.request.metric? = some m

namespace Ending

/-- a result was given -/
def isValue : Ending α → Bool
  | value _ => true
  | _ => false

/-- the kind of the failure that was given -/
def kind? : Ending α → Option FailureKind
  | failure f => some f.kind
  | _ => none

/-- the failure is a stale write, the only one that is worth a retry -/
def isStale : Ending α → Bool
  | failure f => f.retryable
  | _ => false

theorem OfDomain.not_isStale {e : Ending α} (h : e.OfDomain) : e.isStale = false := by
  cases e with
  | failure f =>
    obtain ⟨r, rfl⟩ := h
    rfl
  | _ => rfl

end Ending

/-- a call on a goal set that met a stale write -/
def Answered.meetsStale : Answered → Bool
  | ⟨.get .goalSet _, x⟩ => x.isStale
  | ⟨.update .goalSet _, x⟩ => x.isStale
  | _ => false

/-- a metric for how a command ended -/
def Metric.isOutcome : Metric → Bool
  | .commandsSucceeded _ | .commandsFailed _ _ => true
  | _ => false

/-- so many tries, so many stale ones, so many retries and conflicts that were counted, and no outcome so far -/
structure Stands (log : List Answered) (tries stale retries conflicts : Nat) : Prop where
  tries : log.countP Answered.fetches = tries
  stale : log.countP Answered.meetsStale = stale
  retries : timesCounted .concurrencyRetries log = retries
  conflicts : timesCounted .concurrencyConflicts log = conflicts
  unended : ∀ m, m.isOutcome = true → timesCounted m log = 0

section Records

variable {log drawn : List Answered} {tries stale retries conflicts : Nat}

theorem timesCounted_snoc (m : Metric) (log : List Answered) (x : Answered) :
    timesCounted m (log ++ [x]) = timesCounted m log + if x.request.metric? = some m then 1 else 0 := by
  simp [timesCounted, List.countP_append, List.countP_cons]

theorem stands_nil : Stands [] 0 0 0 0 := ⟨rfl, rfl, rfl, rfl, fun _ _ => rfl⟩

/-- **One request.** -/
theorem Stands.snoc (h : Stands log tries stale retries conflicts) (x : Answered)
    (hx : ∀ m, x.request.metric? = some m → m.isOutcome = false) :
    Stands (log ++ [x]) (tries + x.fetches.toNat) (stale + x.meetsStale.toNat)
      (retries + if x.request.metric? = some .concurrencyRetries then 1 else 0)
      (conflicts + if x.request.metric? = some .concurrencyConflicts then 1 else 0) where
  tries := by
    rw [List.countP_append, h.tries]
    cases hx : x.fetches <;> simp [hx]
  stale := by
    rw [List.countP_append, h.stale]
    cases hx : x.meetsStale <;> simp [hx]
  retries := by rw [timesCounted_snoc, h.retries]
  conflicts := by rw [timesCounted_snoc, h.conflicts]
  unended := by
    intro m hm
    rw [timesCounted_snoc, h.unended m hm, if_neg fun heq => ?_]
    rw [hx m heq] at hm
    cases hm

/-- draws of identities and times move nothing -/
theorem Stands.draws (h : Stands log tries stale retries conflicts)
    (hdrawn : ∀ x ∈ drawn, x.request = .freshId ∨ x.request = .clock) :
    Stands (log ++ drawn) tries stale retries conflicts := by
  induction drawn generalizing log with
  | nil => rwa [List.append_nil]
  | cons x drawn ih =>
    obtain ⟨hx, hrest⟩ := List.forall_mem_cons.1 hdrawn
    rw [List.append_cons]
    refine ih ?_ hrest
    obtain ⟨r, reply⟩ := x
    obtain rfl | rfl : r = .freshId ∨ r = .clock := hx
    · exact h.snoc ⟨.freshId, reply⟩ nofun
    · exact h.snoc ⟨.clock, reply⟩ nofun

/-! ## One try -/

/-- any reply may come -/
abbrev anyReply : (r : Request) → r.Reply → Prop := fun _ _ => True

variable {p : RetryPolicy} {i : Id} {transition : GoalSet → Task (GoalSet × α)}

/-- a try fetches once, and is stale if it ends so -/
theorem modifyOnce_keeps_stands (ht : IsTransition transition) (h : Stands log tries stale retries conflicts) :
    (GoalCommand.modifyOnce i transition).plan.Keeps (.record anyReply)
      (fun after e => Stands after (tries + 1) (stale + e.isStale.toNat) retries conflicts) log := by
  refine Task.keeps_bind.2 (Task.keeps_bind.2 ⟨trivial, fun x _ => ?_⟩)
  have hfetched := h.snoc ⟨.get .goalSet i, x⟩ nofun
  cases x with
  | failure f => exact hfetched
  | fault f => exact hfetched
  | silence => exact hfetched
  | value found =>
    refine Task.keeps_orFail.2 ⟨fun _ => hfetched, ?_⟩
    rintro s rfl
    refine Task.keeps_bind.2 (Plan.keeps_of_paths fun drawn e path _ => ?_)
    have hdrawn := hfetched.draws ((ht s).draws path)
    have hend : e.OfDomain := (ht s).along path fun _ _ => trivial
    cases e with
    | value ta =>
      obtain ⟨t, a⟩ := ta
      refine Task.keeps_bind.2 ⟨trivial, fun x _ => ?_⟩
      have hupdated := hdrawn.snoc ⟨.update .goalSet t, x⟩ nofun
      cases x <;> exact hupdated
    | failure f =>
      change Stands _ (tries + 1) (stale + (Ending.failure f : Ending (GoalSet × α)).isStale.toNat) retries conflicts
      rw [hend.not_isStale]
      exact hdrawn
    | fault f => exact hdrawn
    | silence => exact hend.elim

/-! ## Trying again -/

/-- so much was tried by the end of trying: all tries that are allowed were stale if it gave up, and only then -/
def Spent (limit : Nat) (log : List Answered) : RetryEnd α → Prop
  | .exhausted _ _ => Stands log limit limit (limit - 1) 0
  | _ => ∃ tries stale, stale < limit ∧ Stands log tries stale (tries - 1) 0

variable {limit made more : Nat} {d : Duration}

/-- every try after the first one is counted before it is made -/
theorem countRetry_keeps_stands (ht : IsTransition transition) (h : Stands log made made (made - 1) 0) :
    (Retry.countRetry (made + 1) (GoalCommand.modifyOnce i transition)).plan.Keeps (.record anyReply)
      (fun after e => Stands after (made + 1) (made + e.isStale.toNat) made 0) log := by
  unfold Retry.countRetry
  split
  · rename_i hagain
    refine ⟨trivial, fun x _ => modifyOnce_keeps_stands ht ?_⟩
    have hcounted := h.snoc ⟨.count .concurrencyRetries, x⟩ fun m hm => by cases hm; rfl
    have hmade : made - 1 + 1 = made := Nat.sub_add_cancel (Nat.lt_of_succ_lt_succ hagain)
    rwa [← hmade] at hcounted ⊢
  · rename_i hfirst
    obtain rfl : made = 0 := by omega
    exact modifyOnce_keeps_stands ht h

/-- a try that is not the last one allowed, with what follows a stale write -/
theorem tryOnce_keeps_stands {t : Task α} {again : Failure → Plan (RetryEnd α)} (hmade : made < limit)
    (h : Stands log made made (made - 1) 0)
    (ht : ∀ log, Stands log made made (made - 1) 0 → t.plan.Keeps (.record anyReply)
      (fun after e => Stands after (made + 1) (made + e.isStale.toNat) made 0) log)
    (hagain : ∀ f after, Stands after (made + 1) (made + 1) made 0 →
      (again f).Keeps (.record anyReply) (Spent limit) after) :
    (Retry.tryOnce made t again).Keeps (.record anyReply) (Spent limit) log := by
  refine ⟨trivial, fun given _ => ?_⟩
  have hlooked := h.snoc ⟨.isCancelled, given⟩ nofun
  cases given with
  | true => exact ⟨made, made, hmade, hlooked⟩
  | false =>
    refine Plan.keeps_bind.2 ((ht _ hlooked).mono fun after e he => ?_)
    cases e with
    | value a => exact ⟨made + 1, made, hmade, he⟩
    | fault f => exact ⟨made + 1, made, hmade, he⟩
    | silence => exact ⟨made + 1, made, hmade, he⟩
    | failure f =>
      change Stands after (made + 1) (made + f.retryable.toNat) made 0 at he
      cases hf : f.retryable with
      | true =>
        rw [hf] at he
        simp only [hf, if_true]
        exact hagain f after he
      | false =>
        rw [hf] at he
        simp only [hf, Bool.false_eq_true, if_false]
        exact ⟨made + 1, made, hmade, he⟩

/-- **Trying again.** After so many stale tries the rest of trying gives up exactly if all that are allowed are stale. -/
theorem attempts_keeps_stands (ht : IsTransition transition) (hlimit : made + 1 + more = limit)
    (h : Stands log made made (made - 1) 0) :
    (Retry.attempts p (fun n => Retry.countRetry n (GoalCommand.modifyOnce i transition)) more made d).Keeps
      (.record anyReply) (Spent limit) log := by
  induction more generalizing made d log with
  | zero =>
    refine tryOnce_keeps_stands (by omega) h (fun log h => countRetry_keeps_stands ht h) fun f after hafter => ?_
    obtain rfl : made + 1 = limit := hlimit
    exact hafter
  | succ more ih =>
    refine tryOnce_keeps_stands (by omega) h (fun log h => countRetry_keeps_stands ht h) fun f after hafter => ?_
    have hrest : ∀ d after, Stands after (made + 1) (made + 1) made 0 →
        (Retry.attempts p (fun n => Retry.countRetry n (GoalCommand.modifyOnce i transition)) more (made + 1) d).Keeps
          (.record anyReply) (Spent limit) after :=
      fun d after hafter => ih (by omega) hafter
    unfold Retry.waiting
    split
    · exact hrest d after hafter
    · refine ⟨trivial, fun given _ => ?_⟩
      have hwaited := hafter.snoc ⟨.pause d, given⟩ nofun
      cases given with
      | true => exact ⟨made + 1, made + 1, by omega, hwaited⟩
      | false =>
        cases hnext : Retry.nextDelay p d with
        | ok d' => exact hrest d' _ hwaited
        | refused e => exact e.elim
        | fault f => exact ⟨made + 1, made + 1, by omega, hwaited⟩

/-- a conflict was counted exactly if all tries that are allowed were stale, and every try but the first as a retry -/
def Settled (p : RetryPolicy) (log : List Answered) : Prop :=
  ∃ tries stale, Stands log tries stale (tries - 1) (if stale = p.limit then 1 else 0)

theorem modify_keeps_settled (ht : IsTransition transition) (h : Stands log 0 0 0 0) :
    (GoalCommand.modify p i transition).plan.Keeps (.record anyReply) (fun after _ => Settled p after) log := by
  have hpos : 0 + 1 + (p.limit - 1) = p.limit := by
    have := Nat.le_max_left 1 p.maxAttempts
    unfold RetryPolicy.limit
    omega
  refine Plan.keeps_bind.2 ((attempts_keeps_stands (p := p) (d := p.initialDelay) ht hpos h).mono fun after r hr => ?_)
  have hshort : (∃ tries stale, stale < p.limit ∧ Stands after tries stale (tries - 1) 0) → Settled p after := by
    rintro ⟨tries, stale, hlt, hstands⟩
    refine ⟨tries, stale, ?_⟩
    rwa [if_neg hlt.ne]
  cases r with
  | exhausted n f =>
    refine ⟨trivial, fun x _ => ⟨p.limit, p.limit, ?_⟩⟩
    rw [if_pos rfl]
    exact Stands.snoc hr ⟨.count .concurrencyConflicts, x⟩ fun m hm => by cases hm; rfl
  | ok a => exact hshort hr
  | fatal f => exact hshort hr
  | cancelled n => exact hshort hr
  | fault f => exact hshort hr

/-! ## Commands -/

theorem settled_of_stands (h : Stands log 0 0 0 0) : Settled p log := by
  have hpos : 0 ≠ p.limit := Nat.ne_of_lt (Nat.le_max_left 1 p.maxAttempts)
  refine ⟨0, 0, ?_⟩
  rwa [if_neg hpos]

/-- what is no call on a goal set and counts nothing leaves it settled -/
theorem Settled.snoc (h : Settled p log) (x : Answered) (hx : x.request.metric? = none ∧ x.fetches = false ∧
    x.meetsStale = false) : Settled p (log ++ [x]) := by
  obtain ⟨tries, stale, hstands⟩ := h
  obtain ⟨hmetric, hfetches, hstale⟩ := hx
  have hnext := hstands.snoc x fun m hm => by rw [hmetric] at hm; cases hm
  rw [hmetric, hfetches, hstale] at hnext
  exact ⟨tries, stale, hnext⟩

/-- a task after another one, when both leave it settled -/
theorem bind_keeps_settled {t : Task α} {k : α → Task β}
    (ht : t.plan.Keeps (.record anyReply) (fun after _ => Settled p after) log)
    (hk : ∀ a after, Settled p after → (k a).plan.Keeps (.record anyReply) (fun after _ => Settled p after) after) :
    (t >>= k).plan.Keeps (.record anyReply) (fun after _ => Settled p after) log := by
  refine Task.keeps_bind.2 (ht.mono fun after e he => ?_)
  cases e with
  | value a => exact hk a after he
  | _ => exact he

theorem announce_keeps_settled (e : Event) (h : Settled p log) :
    (GoalCommand.announce e).plan.Keeps (.record anyReply) (fun after _ => Settled p after) log :=
  ⟨trivial, fun sent _ => h.snoc ⟨.publish e, sent⟩ ⟨rfl, rfl, rfl⟩⟩

theorem add_keeps_settled {k : Kind} (a : k.Member) (reword : Failure → Failure) (h : Settled p log) :
    (Task.mapFailure reword (Task.add k a)).plan.Keeps (.record anyReply) (fun after _ => Settled p after) log :=
  Task.keeps_mapFailure.2 ⟨trivial, fun x _ => h.snoc ⟨.add k a, x⟩ ⟨rfl, rfl, rfl⟩⟩

theorem freshId_keeps_settled (h : Settled p log) :
    Task.freshId.plan.Keeps (.record anyReply) (fun after _ => Settled p after) log :=
  ⟨trivial, fun x _ => h.snoc ⟨.freshId, x⟩ ⟨rfl, rfl, rfl⟩⟩

theorem ofOutcome_keeps_settled {ε : Type} {refusal : ε → Refusal} (x : Outcome ε α) (h : Settled p log) :
    (Task.ofOutcome refusal x).plan.Keeps (.record anyReply) (fun after _ => Settled p after) log :=
  Task.keeps_ofOutcome.2 ⟨fun _ _ => h, fun _ _ => h, fun _ _ => h⟩

/-- a change that is announced -/
theorem change_keeps_settled {event : GoalSet × α → Event} {result : GoalSet × α → β} (ht : IsTransition transition)
    (h : Stands log 0 0 0 0) :
    (GoalCommand.change p i transition event result).plan.Keeps (.record anyReply)
      (fun after _ => Settled p after) log :=
  bind_keeps_settled (modify_keeps_settled ht h) fun _ _ hafter =>
    bind_keeps_settled (announce_keeps_settled _ hafter) fun _ _ hafter => hafter

theorem changes_keep_settled {c : Command} {t : Task β} (hc : c.Changes p i t) (h : Stands log 0 0 0 0) :
    t.plan.Keeps (.record anyReply) (fun after _ => Settled p after) log := by
  cases hc with
  | operation op asked told => exact change_keeps_settled (isTransition_plain _) h
  | addition a v asked => exact change_keeps_settled (isTransition_addGoal a v) h
  | outOfRange r => exact settled_of_stands h

/-- after its checks a command goes on as if there were none -/
theorem checked_keeps_settled {complaints : List Complaint} {k : Unit → Task α} (h : Stands log 0 0 0 0)
    (hk : (k ()).plan.Keeps (.record anyReply) (fun after _ => Settled p after) log) :
    (Task.unless? (Validation.failure? complaints) >>= k).plan.Keeps (.record anyReply)
      (fun after _ => Settled p after) log :=
  Task.checked_keeps (fun _ => settled_of_stands h) fun _ => hk

theorem addGoalPeriod_keeps_settled (c : AddGoalPeriod) :
    c.body.plan.Keeps (.record anyReply) (fun after _ => Settled p after) [] := by
  refine checked_keeps_settled stands_nil ?_
  refine bind_keeps_settled (freshId_keeps_settled (settled_of_stands stands_nil)) fun _ _ h => ?_
  refine bind_keeps_settled (ofOutcome_keeps_settled _ h) fun _ _ h => ?_
  refine bind_keeps_settled (add_keeps_settled _ c.reword h) fun _ _ h => ?_
  exact bind_keeps_settled (announce_keeps_settled _ h) fun _ _ h => h

theorem createGoalSet_keeps_settled (c : CreateGoalSet) :
    c.body.plan.Keeps (.record anyReply) (fun after _ => Settled p after) [] := by
  refine checked_keeps_settled stands_nil ?_
  refine bind_keeps_settled (t := Task.list .goalPeriod) ⟨trivial, fun x _ => ?_⟩ fun periods _ h => ?_
  · exact (settled_of_stands stands_nil).snoc ⟨.list .goalPeriod, x⟩ ⟨rfl, rfl, rfl⟩
  refine bind_keeps_settled (Task.keeps_orFail.2 ⟨fun _ => h, fun _ _ => h⟩) fun _ _ h => ?_
  refine bind_keeps_settled (freshId_keeps_settled h) fun _ _ h => ?_
  refine bind_keeps_settled (ofOutcome_keeps_settled _ h) fun _ _ h => ?_
  refine bind_keeps_settled (add_keeps_settled _ c.reword h) fun _ _ h => ?_
  exact bind_keeps_settled (announce_keeps_settled _ h) fun _ _ h => h

/-! ## How commands are counted -/

/-- the record of a command that is counted under the name `n`, and its end -/
structure Recorded (n : GoalCommandName) (p : RetryPolicy) (log : List Answered) (e : Ending α) : Prop where
  retries : timesCounted .concurrencyRetries log = log.countP Answered.fetches - 1
  conflicts : timesCounted .concurrencyConflicts log = if log.countP Answered.meetsStale = p.limit then 1 else 0
  succeeded : ∀ m, timesCounted (.commandsSucceeded m) log = if m = n ∧ e.isValue then 1 else 0
  failed : ∀ m k, timesCounted (.commandsFailed m k) log = if m = n ∧ e.kind? = some k then 1 else 0

variable {n : GoalCommandName}

/-- a command that does not end counts nothing more -/
theorem Settled.recorded_of_endless {e : Ending α} (h : Settled p log) (hvalue : e.isValue = false)
    (hkind : e.kind? = none) : Recorded n p log e := by
  obtain ⟨tries, stale, hstands⟩ := h
  refine ⟨?_, ?_, fun m => ?_, fun m k => ?_⟩
  · rw [hstands.retries, hstands.tries]
  · rw [hstands.conflicts, hstands.stale]
  · rw [hstands.unended _ rfl, hvalue]
    simp
  · rw [hstands.unended _ rfl, hkind]
    simp

theorem Settled.recorded_of_value (h : Settled p log) (a : α) :
    Recorded n p (log ++ [⟨.count (.commandsSucceeded n), ()⟩]) (.value a) := by
  obtain ⟨tries, stale, hstands⟩ := h
  refine ⟨?_, ?_, fun m => ?_, fun m k => ?_⟩
  · rw [timesCounted_snoc, List.countP_append, hstands.retries, hstands.tries]
    rfl
  · rw [timesCounted_snoc, List.countP_append, hstands.conflicts, hstands.stale]
    rfl
  · rw [timesCounted_snoc, hstands.unended _ rfl]
    simp [Request.metric?, Ending.isValue, eq_comm]
  · rw [timesCounted_snoc, hstands.unended _ rfl]
    simp [Request.metric?, Ending.kind?]

theorem Settled.recorded_of_failure (h : Settled p log) (f : Failure) :
    Recorded n p (log ++ [⟨.count (.commandsFailed n f.kind), ()⟩]) (.failure f : Ending α) := by
  obtain ⟨tries, stale, hstands⟩ := h
  refine ⟨?_, ?_, fun m => ?_, fun m k => ?_⟩
  · rw [timesCounted_snoc, List.countP_append, hstands.retries, hstands.tries]
    rfl
  · rw [timesCounted_snoc, List.countP_append, hstands.conflicts, hstands.stale]
    rfl
  · rw [timesCounted_snoc, hstands.unended _ rfl]
    simp [Request.metric?, Ending.isValue]
  · rw [timesCounted_snoc, hstands.unended _ rfl]
    simp [Request.metric?, Ending.kind?, eq_comm]

theorem recorded_keeps_recorded {t : Task α} {f : α → CommandResult}
    (h : t.plan.Keeps (.record anyReply) (fun after _ => Settled p after) []) :
    ((GoalCommand.recorded n t).giving f).plan.Keeps (.record anyReply) (Recorded n p) [] := by
  refine Task.keeps_bind.2 (Task.keeps_counted.2 (h.mono fun after e he => ?_))
  cases e with
  | value a => exact ⟨trivial, fun _ _ => he.recorded_of_value (f a)⟩
  | failure g => exact ⟨trivial, fun _ _ => he.recorded_of_failure g⟩
  | fault g => exact he.recorded_of_endless rfl rfl
  | silence => exact he.recorded_of_endless rfl rfl

variable {settings : Settings} {c : Command}

/-- **One command.** -/
theorem task_keeps_recorded (h : c.goalName? = some n) :
    (c.task settings).plan.Keeps (.record anyReply) (Recorded n settings.retry) [] := by
  cases hset : c.goalSet? with
  | some i =>
    obtain ⟨γ, t, f, htask, hchanges⟩ := Command.task_of_goalName h settings
    rw [htask]
    exact recorded_keeps_recorded (checked_keeps_settled stands_nil (changes_keep_settled (hchanges i hset) stands_nil))
  | none =>
    cases c with
    | addGoalPeriod c =>
      obtain rfl := Option.some.inj h
      exact recorded_keeps_recorded (addGoalPeriod_keeps_settled c)
    | createGoalSet c =>
      obtain rfl := Option.some.inj h
      exact recorded_keeps_recorded (createGoalSet_keeps_settled c)
    | _ => first | exact absurd hset (Option.some_ne_none _) | cases h

end Records

/-! ## Worlds that count -/

/-- as long as `inv` holds, which it does for good, the counters move with what is counted and with nothing else -/
structure Tallies (w : World σ) (counters : σ → Counters) (inv : σ → Prop) : Prop where
  kept : ∀ r s, inv s → inv (w r s).2
  counts : ∀ m s, inv s → counters (w (.count m) s).2 = Counters.bump m (counters s)
  quiet : ∀ r s, inv s → r.metric? = none → counters (w r s).2 = counters s

variable {w : World σ} {counters : σ → Counters} {inv : σ → Prop}

theorem Counters.count_bump (m m' : Metric) (c : Counters) :
    count m' (bump m c) = count m' c + if m = m' then 1 else 0 := by
  split
  · rename_i h
    rw [← h, count_bump_self]
  · rename_i h
    rw [count_bump_of_ne h, Nat.add_zero]

/-- a counter grows in a run by what the record of the run counts -/
theorem Tallies.run (hw : Tallies w counters inv) (p : Plan α) {s : σ} (hs : inv s) :
    inv (p.run w s).2 ∧ ∀ m, Counters.count m (counters (p.run w s).2) =
      Counters.count m (counters s) + timesCounted m (p.transcript w s) := by
  induction p generalizing s with
  | done a => exact ⟨hs, fun m => rfl⟩
  | ask r next ih =>
    obtain ⟨hinv, hcount⟩ := ih (w r s).1 (hw.kept r s hs)
    refine ⟨hinv, fun m => (hcount m).trans ?_⟩
    have hlog : timesCounted m ((Plan.ask r next).transcript w s) =
        timesCounted m ((next (w r s).1).transcript w (w r s).2) + if r.metric? = some m then 1 else 0 := by
      simp [timesCounted, Plan.transcript, List.countP_cons]
    rw [hlog]
    cases r with
    | count m' =>
      rw [hw.counts m' s hs, Counters.count_bump]
      simp only [Request.metric?, Option.some.injEq]
      omega
    | _ =>
      rw [hw.quiet _ s hs rfl]
      rfl

/-! ## Runs of commands -/

/-- a command that is given, what it finds set, and what happens before it -/
structure Issued (σ : Type) where
  meanwhile : σ → σ
  settings : Settings
  command : Command

/-- what a command asked and was replied, and how it ended -/
structure Execution where
  command : Command
  policy : RetryPolicy
  log : List Answered
  ending : Ending CommandResult

namespace Issued

/-- the plan of the command -/
def plan (i : Issued σ) : Plan (Ending CommandResult) := (i.command.task i.settings).plan

def execution (w : World σ) (i : Issued σ) (s : σ) : Execution :=
  ⟨i.command, i.settings.retry, i.plan.transcript w (i.meanwhile s), (i.plan.run w (i.meanwhile s)).1⟩

/-- the world after the command -/
def after (w : World σ) (i : Issued σ) (s : σ) : σ := (i.plan.run w (i.meanwhile s)).2

/-- before the command anything may happen that leaves the counters alone -/
def Discreet (counters : σ → Counters) (inv : σ → Prop) (i : Issued σ) : Prop :=
  ∀ s, inv s → inv (i.meanwhile s) ∧ counters (i.meanwhile s) = counters s

/-- the commands run one after another, and what each of them did -/
def executions (w : World σ) : List (Issued σ) → σ → List Execution
  | [], _ => []
  | i :: is, s => i.execution w s :: executions w is (i.after w s)

/-- the world after all of them -/
def afterAll (w : World σ) (is : List (Issued σ)) (s : σ) : σ := is.foldl (fun s i => i.after w s) s

end Issued

namespace Execution

/-- the command gave a result, under the name `n` -/
def succeeded (n : GoalCommandName) (x : Execution) : Bool := x.command.goalName? = some n && x.ending.isValue

/-- the command failed with this kind of failure -/
def failedAs (n : GoalCommandName) (k : FailureKind) (x : Execution) : Bool :=
  x.command.goalName? = some n && x.ending.kind? = some k

/-- the command ended with a result or a failure -/
def returned (n : GoalCommandName) (x : Execution) : Bool :=
  x.command.goalName? = some n && (x.ending.isValue || x.ending.kind?.isSome)

/-- the tries that were made, each of which starts with a fetch of the goal set -/
def tries (x : Execution) : Nat := x.log.countP Answered.fetches

/-- all tries that are allowed met a stale write -/
def exhausted (x : Execution) : Bool := x.log.countP Answered.meetsStale = x.policy.limit

end Execution

variable {n : GoalCommandName}

theorem Issued.mem_executions {is : List (Issued σ)} {s : σ} {x : Execution} (h : x ∈ executions w is s) :
    ∃ i ∈ is, ∃ s, x = i.execution w s := by
  induction is generalizing s with
  | nil => cases h
  | cons i is ih =>
    rcases List.mem_cons.1 h with rfl | h
    · exact ⟨i, List.mem_cons_self, s, rfl⟩
    · obtain ⟨j, hj, hx⟩ := ih h
      exact ⟨j, List.mem_cons_of_mem i hj, hx⟩

/-- a counter grows in a run of commands by what their records count -/
theorem Tallies.runAll (hw : Tallies w counters inv) {is : List (Issued σ)}
    (hdiscreet : ∀ i ∈ is, i.Discreet counters inv) {s : σ} (hs : inv s) (m : Metric) :
    Counters.count m (counters (Issued.afterAll w is s)) =
      Counters.count m (counters s) + ((Issued.executions w is s).map fun x => timesCounted m x.log).sum := by
  induction is generalizing s with
  | nil => rfl
  | cons i is ih =>
    obtain ⟨hi, his⟩ := List.forall_mem_cons.1 hdiscreet
    obtain ⟨hinv, hsame⟩ := hi s hs
    obtain ⟨hafter, hcount⟩ := hw.run i.plan hinv
    have hrest : Counters.count m (counters (Issued.afterAll w is (i.after w s))) = _ := ih his hafter
    have hone : Counters.count m (counters (i.after w s)) = _ := hcount m
    rw [hsame] at hone
    change Counters.count m (counters (Issued.afterAll w is (i.after w s))) = _
    rw [hrest, hone, Nat.add_assoc]
    rfl

namespace Execution

variable {x : Execution}

/-- the execution is of a command that is counted under the name `n`, in some world -/
def Of (n : GoalCommandName) (x : Execution) : Prop :=
  x.command.goalName? = some n ∧ Recorded n x.policy x.log x.ending ∧
    (x.command.goalComplaints ≠ [] →
      x.log = [⟨.count (.commandsFailed n .validation), ()⟩] ∧
      x.ending = .failure (.validation (Validation.summary x.command.goalComplaints)))

theorem of_execution {i : Issued σ} (h : i.command.goalName? = some n) (s : σ) : Of n (i.execution w s) := by
  refine ⟨h, (task_keeps_recorded h).transcript fun _ _ => trivial, fun hcomplaints => ?_⟩
  have hplan : i.plan = _ := Command.task_of_complaining h hcomplaints _
  unfold Issued.execution
  rw [hplan]
  exact ⟨rfl, rfl⟩

theorem Of.succeeded_eq (h : x.Of n) (m : GoalCommandName) :
    timesCounted (.commandsSucceeded m) x.log = (x.succeeded m).toNat := by
  obtain ⟨hname, hrecorded, -⟩ := h
  rw [hrecorded.succeeded, succeeded, hname]
  by_cases hm : n = m
  · cases x.ending.isValue <;> simp [hm]
  · simp [hm, Ne.symm hm]

theorem Of.failedAs_eq (h : x.Of n) (m : GoalCommandName) (k : FailureKind) :
    timesCounted (.commandsFailed m k) x.log = (x.failedAs m k).toNat := by
  obtain ⟨hname, hrecorded, -⟩ := h
  rw [hrecorded.failed, failedAs, hname]
  by_cases hm : n = m
  · by_cases hk : x.ending.kind? = some k <;> simp [hm, hk]
  · simp [hm, Ne.symm hm]

end Execution

/-! ## The accounts -/

def FailureKind.all : List FailureKind :=
  [notFound, validation, invalidOperation, domain, staleWrite, alreadyExists, conflict, cancelled, event, internal]

/-- all that is counted of the ends of commands under one name -/
def Counters.outcomes (n : GoalCommandName) (c : Counters) : Nat :=
  count (.commandsSucceeded n) c + (FailureKind.all.map fun k => count (.commandsFailed n k) c).sum

theorem sum_indicators {γ : Type} (q : γ → Bool) (xs : List γ) : (xs.map fun x => (q x).toNat).sum = xs.countP q := by
  induction xs with
  | nil => rfl
  | cons x xs ih =>
    rw [List.map_cons, List.sum_cons, ih, List.countP_cons]
    cases q x <;> simp [Nat.add_comm]

/-- a failure has one kind -/
theorem sum_kinds (o : Option FailureKind) :
    (FailureKind.all.map fun k => (decide (o = some k)).toNat).sum = o.isSome.toNat := by
  cases o with
  | none => rfl
  | some k => cases k <;> rfl

/-- a command that returns has one end, and it is counted once -/
theorem Execution.returned_eq (n : GoalCommandName) (x : Execution) :
    (x.succeeded n).toNat + (FailureKind.all.map fun k => (x.failedAs n k).toNat).sum = (x.returned n).toNat := by
  unfold succeeded failedAs returned
  by_cases h : x.command.goalName? = some n
  · simp only [h, decide_true, Bool.true_and, sum_kinds]
    cases x.ending <;> rfl
  · simp only [h, decide_false, Bool.false_and]
    rfl

/-- sums over kinds and over executions can be taken in either order -/
theorem sum_failedAs (n : GoalCommandName) (ks : List FailureKind) (xs : List Execution) :
    (ks.map fun k => xs.countP (·.failedAs n k)).sum =
      (xs.map fun x => (ks.map fun k => (x.failedAs n k).toNat).sum).sum := by
  induction ks with
  | nil => simp
  | cons k ks ih =>
    rw [List.map_cons, List.sum_cons, ih, ← sum_indicators]
    simp only [List.map_cons, List.sum_cons, List.sum_map_add]

/-- **What is counted of commands on goals.** Whatever the store replies, whether or not anybody listens to events, and
whenever the cancel signal comes, a run of commands adds to the counters exactly this:
- under each name, one success for each command that gave a result, and one failure of its kind for each command that
  failed, so together one for each command that returned; a command that stopped in a fault, or still waits for a call
  that never comes back, counts as neither;
- one retry for each try that a command made after its first one;
- one conflict for each command all of whose tries that are allowed met a stale write.

A command that complains of its input fails for it, asks nothing of the store, and counts no retry and no conflict. -/
theorem executions_counted (hw : Tallies w counters inv) {is : List (Issued σ)}
    (hgoals : ∀ i ∈ is, i.command.goalName?.isSome) (hdiscreet : ∀ i ∈ is, i.Discreet counters inv) {s : σ}
    (hs : inv s) :
    let done := Issued.executions w is s
    let before := counters s
    let after := counters (Issued.afterAll w is s)
    (∀ n, Counters.count (.commandsSucceeded n) after =
        Counters.count (.commandsSucceeded n) before + done.countP (·.succeeded n)) ∧
    (∀ n k, Counters.count (.commandsFailed n k) after =
        Counters.count (.commandsFailed n k) before + done.countP (·.failedAs n k)) ∧
    (∀ n, after.outcomes n = before.outcomes n + done.countP (·.returned n)) ∧
    Counters.count .concurrencyRetries after =
      Counters.count .concurrencyRetries before + (done.map fun x => x.tries - 1).sum ∧
    Counters.count .concurrencyConflicts after =
      Counters.count .concurrencyConflicts before + done.countP (·.exhausted) ∧
    ∀ x ∈ done, x.command.goalComplaints ≠ [] →
      x.ending = .failure (.validation (Validation.summary x.command.goalComplaints)) ∧ work x.log = [] ∧
        timesCounted .concurrencyRetries x.log = 0 ∧ timesCounted .concurrencyConflicts x.log = 0 := by
  intro done before after
  have hof : ∀ x ∈ done, ∃ n, x.Of n := by
    intro x hx
    obtain ⟨i, hi, s', rfl⟩ := Issued.mem_executions hx
    obtain ⟨n, hn⟩ := Option.isSome_iff_exists.1 (hgoals i hi)
    exact ⟨n, Execution.of_execution hn s'⟩
  have hcount : ∀ m, Counters.count m after = Counters.count m before + (done.map fun x => timesCounted m x.log).sum :=
    hw.runAll hdiscreet hs
  have hsum : ∀ (m : Metric) (f : Execution → Nat), (∀ x n, x.Of n → timesCounted m x.log = f x) →
      Counters.count m after = Counters.count m before + (done.map f).sum := by
    intro m f hf
    rw [hcount, List.map_congr_left fun x hx => ?_]
    obtain ⟨n, hn⟩ := hof x hx
    exact hf x n hn
  have hsucceeded : ∀ n, Counters.count (.commandsSucceeded n) after =
      Counters.count (.commandsSucceeded n) before + done.countP (·.succeeded n) := by
    intro n
    rw [hsum _ _ fun x _ hx => hx.succeeded_eq n, sum_indicators]
  have hfailed : ∀ n k, Counters.count (.commandsFailed n k) after =
      Counters.count (.commandsFailed n k) before + done.countP (·.failedAs n k) := by
    intro n k
    rw [hsum _ _ fun x _ hx => hx.failedAs_eq n k, sum_indicators]
  refine ⟨hsucceeded, hfailed, fun n => ?_, hsum _ _ fun x _ hx => hx.2.1.retries, ?_, fun x hx hcomplaints => ?_⟩
  · have hreturned : done.countP (·.succeeded n) + (FailureKind.all.map fun k => done.countP (·.failedAs n k)).sum =
        done.countP (·.returned n) := by
      rw [sum_failedAs, ← sum_indicators, ← sum_indicators, ← List.sum_map_add]
      exact congrArg List.sum (List.map_congr_left fun x _ => x.returned_eq n)
    simp only [Counters.outcomes, hsucceeded, hfailed, List.sum_map_add, ← hreturned]
    omega
  · rw [hsum _ (fun x => x.exhausted.toNat) fun x _ hx => ?_, sum_indicators]
    rw [hx.2.1.conflicts, Execution.exhausted]
    split <;> simp_all
  · obtain ⟨n, -, -, hrefused⟩ := hof x hx
    obtain ⟨hlog, hending⟩ := hrefused hcomplaints
    refine ⟨hending, ?_, ?_, ?_⟩ <;> rw [hlog] <;> rfl

/-! ## A service counts, and a disturbed one too -/

namespace Service

theorem counters_wait (ms : Nat) (s : Service) : (s.wait ms).2.counters = s.counters := by
  unfold wait
  split
  · rfl
  · dsimp only
    split <;> rfl

theorem counters_answer (env : Surroundings) {r : Request} (h : r.metric? = none) (s : Service) :
    (answer env r s).2.counters = s.counters := by
  cases r with
  | count m => cases h
  | add k a =>
    simp only [answer]
    generalize (s.store.repo k).add a = x
    obtain ⟨r | r, r'⟩ := x <;> rfl
  | update k a =>
    simp only [answer]
    cases (s.store.repo k).update a <;> rfl
  | publish e =>
    simp only [answer]
    split <;> rfl
  | pause d => exact counters_wait _ s
  | _ => rfl

/-- a service counts what it is asked to count -/
theorem tallies (env : Surroundings) : Tallies (answer env) Service.counters fun _ => True where
  kept _ _ _ := trivial
  counts _ _ _ := rfl
  quiet _ s _ h := counters_answer env h s

end Service

namespace Rehearsal

variable {env : Surroundings} {others : Settings}

/-- no other client's command is going to run within a call -/
def Alone (r : Rehearsal) : Prop :=
  ∀ c, ∀ i ∈ (r.queues c).thereafter :: (r.queues c).upcoming, ∀ d, i.act ≠ .command d

theorem Alone.take {r : Rehearsal} (h : r.Alone) (c : Call) :
    (∀ d, (r.take c).1.act ≠ .command d) ∧ (r.take c).2.Alone ∧ (r.take c).2.service = r.service := by
  unfold Rehearsal.take Queue.next
  cases hq : (r.queues c).upcoming with
  | nil =>
    refine ⟨h c _ List.mem_cons_self, fun c' i hi => ?_, rfl⟩
    by_cases hc : c' = c
    · subst hc
      exact h c' i (by simpa [setQueue, hq] using hi)
    · exact h c' i (by simpa [setQueue, hc] using hi)
  | cons i is =>
    refine ⟨h c i (by simp [hq]), fun c' j hj => ?_, rfl⟩
    by_cases hc : c' = c
    · subst hc
      refine h c' j ?_
      simp only [setQueue, if_true, List.mem_cons] at hj
      simp only [hq, List.mem_cons]
      tauto
    · exact h c' j (by simpa [setQueue, hc] using hj)

theorem counters_bumped {k : Kind} {i : Id} {s t : Service} (h : bumped k i s = .ok t) : t.counters = s.counters := by
  unfold bumped at h
  cases hget : (s.store.repo k).get? i with
  | none =>
    simp only [hget, Except.ok.injEq] at h
    rw [h]
  | some a =>
    simp only [hget] at h
    cases hupdate : (s.store.repo k).update a with
    | ok p =>
      simp only [hupdate, Except.ok.injEq] at h
      rw [← h]
    | refused f =>
      simp only [hupdate, Except.ok.injEq] at h
      rw [h]
    | fault f =>
      simp only [hupdate] at h
      cases h

/-- what interferes with a call moves no counter, if the call moves none and no other client's command runs -/
theorem counters_interfere {i : Interference} (hact : ∀ d, i.act ≠ .command d) (k : Kind) (target : Option Id)
    {real : Service → Ending β × Service} (hreal : ∀ s, (real s).2.counters = s.counters) (s : Service) :
    (interfere env others i k target real s).2.counters = s.counters := by
  obtain ⟨⟨cut, t⟩, hdelay, ht⟩ : ∃ x : Bool × Service,
      (if i.delay = 0 then (false, s) else s.wait i.delay) = x ∧ x.2.counters = s.counters := by
    refine ⟨_, rfl, ?_⟩
    split
    · rfl
    · exact Service.counters_wait _ s
  obtain ⟨u, hsignal, hu⟩ : ∃ u : Service, (if i.cancels then t.cancel else t) = u ∧ u.counters = s.counters := by
    refine ⟨_, rfl, ?_⟩
    split
    · exact ht
    · exact ht
  rw [interfere, hdelay]
  dsimp only
  cases cut with
  | true => exact ht
  | false =>
    rw [if_neg Bool.false_ne_true, hsignal]
    cases hi : i.act with
    | proceed => exact (hreal u).trans hu
    | staleWrite => exact hu
    | rival =>
      cases target with
      | none => exact (hreal u).trans hu
      | some j =>
        dsimp only
        cases hb : bumped k j u with
        | ok v => exact (hreal v).trans ((counters_bumped hb).trans hu)
        | error f => exact hu
    | command d => exact absurd hi (hact d)
    | fail f => exact hu
    | hang =>
      dsimp only [hang]
      split <;> exact hu

/-- so it is with a call, and no other client is any nearer -/
theorem Alone.call {r : Rehearsal} (h : r.Alone) (c : Call) (target : Option Id)
    {real : Service → Ending β × Service} (hreal : ∀ s, (real s).2.counters = s.counters) :
    (call env others c target real r).2.Alone ∧
      (call env others c target real r).2.service.counters = r.service.counters := by
  obtain ⟨hact, halone, hsame⟩ := h.take c
  refine ⟨halone, ?_⟩
  change (interfere env others (r.take c).1 c.kind target real (r.take c).2.service).2.counters = _
  rw [counters_interfere hact c.kind target hreal, hsame]

/-- a disturbed service counts what it is asked to count, unless a command of another client runs within a call -/
theorem tallies (env : Surroundings) (others : Settings) :
    Tallies (answer env others) (·.service.counters) Alone where
  kept r s h := by
    cases r with
    | get k i => exact (h.call ⟨k, .get⟩ (some i) fun s => Service.counters_answer env rfl s).1
    | list k => exact (h.call ⟨k, .list⟩ none fun s => Service.counters_answer env rfl s).1
    | add k a => exact (h.call ⟨k, .add⟩ none fun s => Service.counters_answer env rfl s).1
    | update k a => exact (h.call ⟨k, .update⟩ (some (Aggregate.id a)) fun s => Service.counters_answer env rfl s).1
    | _ => exact h
  counts _ _ _ := rfl
  quiet r s h hr := by
    cases r with
    | get k i => exact (h.call ⟨k, .get⟩ (some i) fun s => Service.counters_answer env rfl s).2
    | list k => exact (h.call ⟨k, .list⟩ none fun s => Service.counters_answer env rfl s).2
    | add k a => exact (h.call ⟨k, .add⟩ none fun s => Service.counters_answer env rfl s).2
    | update k a => exact (h.call ⟨k, .update⟩ (some (Aggregate.id a)) fun s => Service.counters_answer env rfl s).2
    | count m => cases hr
    | _ => exact Service.counters_answer env hr s.service

/-- a queue without other clients' commands leaves the counters alone -/
theorem discreet_setQueue {c : Call} {q : Queue} (hq : ∀ i ∈ q.thereafter :: q.upcoming, ∀ d, i.act ≠ .command d)
    (settings : Settings) (command : Command) :
    Issued.Discreet (·.service.counters) Alone ⟨setQueue c q, settings, command⟩ := by
  refine fun r hr => ⟨fun c' i hi => ?_, rfl⟩
  change i ∈ (if c' = c then q else r.queues c').thereafter :: (if c' = c then q else r.queues c').upcoming at hi
  split at hi
  · exact hq i hi
  · exact hr c' i hi

/-- so many writes of goal sets are stale -/
def staleWrites (n : Nat) : Rehearsal → Rehearsal :=
  setQueue ⟨.goalSet, .update⟩ ⟨List.replicate n ⟨0, false, .staleWrite⟩, .none⟩

theorem discreet_staleWrites (n : Nat) (settings : Settings) (command : Command) :
    Issued.Discreet (·.service.counters) Alone ⟨staleWrites n, settings, command⟩ := by
  refine discreet_setQueue (fun i hi d => ?_) settings command
  rcases List.mem_cons.1 hi with rfl | hi
  · exact nofun
  · obtain rfl := List.eq_of_mem_replicate hi
    exact nofun

/-- a goal is added in the third try and its progress given up after the fourth; a weight of zero is complained of; then
nobody listens to events, and at last the cancel signal is given -/
def eventful : List (Issued Rehearsal) :=
  [⟨id, .standard, .addGoalPeriod ⟨1, 2030⟩⟩, ⟨id, .standard, .createGoalSet ⟨1, 5, 2030⟩⟩,
    ⟨staleWrites 2, .standard, .addGoal ⟨.ofNat 1, "Ship it", .team, 1, 2, 3, .number, 60⟩⟩,
    ⟨staleWrites 4, .standard, .submitProgress ⟨.ofNat 1, .ofNat 4, 80, none⟩⟩,
    ⟨id, .standard, .updateGoal ⟨.ofNat 1, .ofNat 4, "Ship it", .team, .number, 0⟩⟩,
    ⟨fun r => { r with service.channelOpen := false }, .standard, .submitProgress ⟨.ofNat 1, .ofNat 4, 80, none⟩⟩,
    ⟨fun r => { r with service := r.service.cancel }, .standard, .sendToApproval ⟨.ofNat 1⟩⟩]

/-- seven commands, seven ends; two retries for the goal and three for its progress -/
theorem executions_counted_eventful :
    let start := ofService .start
    let world := answer ⟨.ofNat, fun _ => .epoch⟩ .standard
    let after := (Issued.afterAll world eventful start).service.counters
    Counters.count (.commandsSucceeded .addGoal) after = 1 ∧
    Counters.count (.commandsFailed .updateGoalProgress .conflict) after = 1 ∧
    Counters.count (.commandsFailed .updateGoalProgress .event) after = 1 ∧
    after.outcomes .updateGoalProgress = 2 ∧ after.outcomes .sendGoalSetToApproval = 1 ∧
    Counters.count .concurrencyRetries after = 5 ∧ Counters.count .concurrencyConflicts after = 1 ∧
    ∃ x ∈ Issued.executions world eventful start, x.command.goalName? = some .updateGoal ∧ work x.log = [] := by
  intro start world after
  have halone : start.Alone := fun c i hi d => by
    obtain rfl : i = .none := by simpa [start, ofService, Queue.empty] using hi
    exact nofun
  have hdiscreet : ∀ i ∈ eventful, i.Discreet (·.service.counters) Alone := by
    simp only [eventful, List.forall_mem_cons]
    refine ⟨?_, ?_, discreet_staleWrites 2 _ _, discreet_staleWrites 4 _ _, ?_, ?_, ?_, List.forall_mem_nil _⟩
    all_goals exact fun r hr => ⟨hr, rfl⟩
  have hgoals : ∀ i ∈ eventful, i.command.goalName?.isSome := by decide
  obtain ⟨hsucceeded, hfailed, houtcomes, hretries, hconflicts, hrefused⟩ :=
    executions_counted (tallies ⟨.ofNat, fun _ => .epoch⟩ .standard) hgoals hdiscreet halone
  refine ⟨(hsucceeded _).trans (by decide +kernel), (hfailed _ _).trans (by decide +kernel),
    (hfailed _ _).trans (by decide +kernel), (houtcomes _).trans (by decide +kernel),
    (houtcomes _).trans (by decide +kernel), hretries.trans (by decide +kernel),
    hconflicts.trans (by decide +kernel), ?_⟩
  have hcomplaining : ∃ x ∈ Issued.executions (answer ⟨.ofNat, fun _ => .epoch⟩ .standard) eventful (ofService .start),
      x.command.goalName? = some .updateGoal ∧ x.command.goalComplaints ≠ [] := by decide
  obtain ⟨x, hx, hname, hcomplaints⟩ := hcomplaining
  exact ⟨x, hx, hname, (hrefused x hx hcomplaints).2.1⟩

end Rehearsal

end Brigade
