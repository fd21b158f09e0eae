/-
How trying again ends, whenever the cancel signal is given.

The world may reply anything to a try, and the signal may be given at any time: before a try, within one, or in a wait. The
world is only asked to be candid about the signal (`Candid`). `Trials.due` is the world when so many tries have been made,
with the waits after them, and `Trials.ending` is how the next try ends there.
- `concurrent_ends`: the end of trying a task again after stale writes, with the number of tries that were made.

A try that met a stale write, without a signal before it, takes trying to the next one (`attempts_of_stale`); so trying
comes to the first try of another kind, or to a signal, or to the last try that is allowed (`run_of_stale`).
-/
import Mathlib.Tactic
import Brigade.Rehearsal

namespace Brigade

/-- the end of a try that met a stale write -/
def Ending.Stale {α : Type} (e : Ending α) : Prop := ∃ j, e = .failure (.staleWrite j)

/-! ## Waits -/

/-- the wait after the first `n + 1` tries, if each wait before it has a next one; a wait of zero stays -/
def RetryPolicy.wait (p : RetryPolicy) : Nat → Outcome Empty Duration
  | 0 => .ok p.initialDelay
  | n + 1 => do
    let d ← p.wait n
    if d.isZero then .ok d else Retry.nextDelay p d

/-- no wait that can come up is at fault -/
def RetryPolicy.Paced (p : RetryPolicy) : Prop := ∀ n < p.limit, ∃ d, p.wait n = .ok d

theorem RetryPolicy.wait_of_isZero {p : RetryPolicy} (h : p.initialDelay.isZero = true) (n : Nat) :
    p.wait n = .ok p.initialDelay := by
  induction n with
  | zero => rfl
  | succ n ih => rw [wait, ih, Outcome.ok_bind, if_pos h]

/-- a policy without waits is never at fault -/
theorem RetryPolicy.paced_of_isZero {p : RetryPolicy} (h : p.initialDelay.isZero = true) : p.Paced := by
  intro n _
  exact ⟨_, wait_of_isZero h n⟩

theorem RetryPolicy.limit_pos (p : RetryPolicy) : 0 < p.limit := Nat.le_max_left 1 p.maxAttempts

namespace Retry

variable {α σ : Type}

/-! ## Worlds and tries -/

/-- a look at the signal tells whether it has been given, and changes nothing; a wait that the signal ended is over after
the signal was given -/
structure Candid (w : World σ) (given : σ → Bool) : Prop where
  look : ∀ s, w .isCancelled s = (given s, s)
  wait : ∀ d s, (w (.pause d) s).1 = true → given (w (.pause d) s).2 = true

/-- a wait of a service is ended by its signal only -/
theorem cancelled_wait {ms : Nat} {s : Service} (h : (s.wait ms).1 = true) : (s.wait ms).2.cancelled = true := by
  unfold Service.wait at h ⊢
  by_cases hgiven : s.cancelled = true
  · simp [hgiven]
  · simp only [if_neg hgiven] at h ⊢
    split
    · rfl
    · rename_i hnone
      simp [hnone] at h

/-- a service is candid about its own signal, and so is one that is disturbed -/
theorem candid_service (env : Surroundings) : Candid (Service.answer env) Service.cancelled :=
  ⟨fun _ => rfl, fun _ _ h => cancelled_wait h⟩

theorem candid_rehearsal (env : Surroundings) (others : Settings) :
    Candid (Rehearsal.answer env others) (·.service.cancelled) :=
  ⟨fun _ => rfl, fun _ _ h => cancelled_wait h⟩

/-- tries one after another: `work n` is the n-th -/
structure Trials (α σ : Type) where
  world : World σ
  policy : RetryPolicy
  work : Nat → Task α
  start : σ

namespace Trials

/-- the world after the wait that follows the first `n + 1` tries -/
def rested (r : Trials α σ) (n : Nat) (s : σ) : σ :=
  match r.policy.wait n with
  | .ok d => if d.isZero then s else (r.world (.pause d) s).2
  | .fault _ => s

/-- the world when `n` tries have been made, each with the wait after it -/
def due (r : Trials α σ) : Nat → σ
  | 0 => r.start
  | n + 1 => r.rested n ((r.work (n + 1)).plan.run r.world (r.due n)).2

/-- how the try after `n` tries ends -/
def ending (r : Trials α σ) (n : Nat) : Ending α := ((r.work (n + 1)).plan.run r.world (r.due n)).1

/-- the world right after that try -/
def left (r : Trials α σ) (n : Nat) : σ := ((r.work (n + 1)).plan.run r.world (r.due n)).2

/-- the first `n` tries start without a signal, and each meets a stale write -/
def AllStale (r : Trials α σ) (given : σ → Bool) (n : Nat) : Prop :=
  ∀ k < n, given (r.due k) = false ∧ (r.ending k).Stale

end Trials

/-! ## One try -/

variable {w : World σ} {given : σ → Bool} {r : Trials α σ} {made more n : Nat} {d : Duration}

/-- the end of trying, of a try that is not followed by another one -/
def settle (made : Nat) : Ending α → RetryEnd α
  | .value a => .ok a
  | .failure f => .fatal f
  | .fault f => .fault f
  | .silence => .cancelled (made + 1)

theorem tryOnce_of_given (hw : Candid w given) {s : σ} (h : given s = true) (t : Task α)
    (again : Failure → Plan (RetryEnd α)) : (tryOnce made t again).run w s = (.cancelled made, s) := by
  rw [tryOnce, Plan.run_ask, hw.look, h]
  rfl

theorem tryOnce_of_stale (hw : Candid w given) {s : σ} (h : given s = false) {t : Task α} {j : Id}
    (ht : (t.plan.run w s).1 = .failure (.staleWrite j)) (again : Failure → Plan (RetryEnd α)) :
    (tryOnce made t again).run w s = (again (.staleWrite j)).run w (t.plan.run w s).2 := by
  rw [tryOnce, Plan.run_ask, hw.look, h]
  refine (Plan.run_bind w _ _ s).trans ?_
  rw [ht]
  rfl

theorem tryOnce_of_settled (hw : Candid w given) {s : σ} (h : given s = false) {t : Task α}
    (ht : ¬(t.plan.run w s).1.Stale) (again : Failure → Plan (RetryEnd α)) :
    (tryOnce made t again).run w s = (settle made (t.plan.run w s).1, (t.plan.run w s).2) := by
  rw [tryOnce, Plan.run_ask, hw.look, h]
  refine (Plan.run_bind w _ _ s).trans ?_
  cases hend : (t.plan.run w s).1 with
  | failure f =>
    have hfatal : ¬f.retryable = true := by
      rw [Failure.retryable_iff_staleWrite]
      rintro ⟨j, rfl⟩
      exact ht ⟨j, hend⟩
    simp [hfatal, settle]
  | _ => rfl

/-! ## From one try to the next -/

/-- with a signal no try is made -/
theorem attempts_of_given (hw : Candid r.world given) (h : given (r.due n) = true) :
    (attempts r.policy r.work more n d).run r.world (r.due n) = (.cancelled n, r.due n) := by
  cases more with
  | zero => exact tryOnce_of_given hw h _ _
  | succ more => exact tryOnce_of_given hw h _ _

/-- a try that meets no stale write is the last one -/
theorem attempts_of_settled (hw : Candid r.world given) (h : given (r.due n) = false) (hn : ¬(r.ending n).Stale) :
    (attempts r.policy r.work more n d).run r.world (r.due n) = (settle n (r.ending n), r.left n) := by
  cases more with
  | zero => exact tryOnce_of_settled hw h hn _
  | succ more => exact tryOnce_of_settled hw h hn _

/-- the last try that is allowed is the last one in any case -/
theorem attempts_of_spent (hw : Candid r.world given) (h : given (r.due n) = false) (hn : (r.ending n).Stale) :
    ∃ f, (attempts r.policy r.work 0 n d).run r.world (r.due n) = (.exhausted (n + 1) f, r.left n) := by
  obtain ⟨j, hj⟩ := hn
  exact ⟨_, tryOnce_of_stale hw h hj _⟩

/-- **One try.** A try that meets a stale write, when more are allowed, leads to the next one, and a signal that ends the
wait between them is seen there. -/
theorem attempts_of_stale (hw : Candid r.world given) (hwait : r.policy.wait n = .ok d) {d' : Duration}
    (hnext : r.policy.wait (n + 1) = .ok d') (h : given (r.due n) = false) (hn : (r.ending n).Stale) :
    (attempts r.policy r.work (more + 1) n d).run r.world (r.due n) =
      (attempts r.policy r.work more (n + 1) d').run r.world (r.due (n + 1)) := by
  obtain ⟨j, hj⟩ := hn
  have htry : (attempts r.policy r.work (more + 1) n d).run r.world (r.due n) =
      (waiting r.policy (n + 1) d (attempts r.policy r.work more (n + 1))).run r.world (r.left n) :=
    tryOnce_of_stale hw h hj _
  have hdue : r.due (n + 1) = r.rested n (r.left n) := rfl
  rw [RetryPolicy.wait, hwait, Outcome.ok_bind] at hnext
  rw [htry, waiting]
  by_cases hzero : d.isZero = true
  · rw [if_pos hzero] at hnext ⊢
    obtain rfl := Outcome.ok.inj hnext
    have hrested : r.due (n + 1) = r.left n := by
      rw [hdue, Trials.rested, hwait]
      exact if_pos hzero
    rw [hrested]
  · rw [if_neg hzero] at hnext ⊢
    have hrested : r.due (n + 1) = (r.world (.pause d) (r.left n)).2 := by
      rw [hdue, Trials.rested, hwait]
      exact if_neg hzero
    rw [Plan.run_ask, ← hrested]
    cases hreply : (r.world (.pause d) (r.left n)).1 with
    | true =>
      have hgiven : given (r.due (n + 1)) = true := by
        rw [hrested]
        exact hw.wait d _ hreply
      exact (attempts_of_given hw hgiven).symm
    | false =>
      simp only [hnext]

/-- **Many tries.** As long as they are stale, trying is where it would be if it started after them. -/
theorem run_of_stale (hw : Candid r.world given) (hp : r.policy.Paced) (hn : n < r.policy.limit)
    (h : r.AllStale given n) :
    ∃ d, r.policy.wait n = .ok d ∧ (run r.policy r.work).run r.world r.start =
      (attempts r.policy r.work (r.policy.limit - 1 - n) n d).run r.world (r.due n) := by
  induction n with
  | zero => exact ⟨_, rfl, rfl⟩
  | succ n ih =>
    obtain ⟨hgiven, hstale⟩ := h n (Nat.lt_succ_self n)
    obtain ⟨d, hd, hrun⟩ := ih (Nat.lt_of_succ_lt hn) fun k hk => h k (Nat.lt_succ_of_lt hk)
    obtain ⟨d', hd'⟩ := hp (n + 1) hn
    have hmore : r.policy.limit - 1 - n = r.policy.limit - 1 - (n + 1) + 1 := by omega
    refine ⟨d', hd', ?_⟩
    rw [hrun, hmore]
    exact attempts_of_stale hw hd hd' hgiven hstale

/-! ## The end -/

/-- a signal before a try that is allowed ends trying there -/
theorem run_of_given (hw : Candid r.world given) (hp : r.policy.Paced) (hn : n < r.policy.limit)
    (h : r.AllStale given n) (hgiven : given (r.due n) = true) :
    (run r.policy r.work).run r.world r.start = (.cancelled n, r.due n) := by
  obtain ⟨d, -, hrun⟩ := run_of_stale hw hp hn h
  rw [hrun, attempts_of_given hw hgiven]

/-- so does a try that meets no stale write -/
theorem run_of_settled (hw : Candid r.world given) (hp : r.policy.Paced) (hn : n < r.policy.limit)
    (h : r.AllStale given n) (hgiven : given (r.due n) = false) (hfresh : ¬(r.ending n).Stale) :
    (run r.policy r.work).run r.world r.start = (settle n (r.ending n), r.left n) := by
  obtain ⟨d, -, hrun⟩ := run_of_stale hw hp hn h
  rw [hrun, attempts_of_settled hw hgiven hfresh]

/-- and otherwise the last try that is allowed -/
theorem run_of_spent (hw : Candid r.world given) (hp : r.policy.Paced) (h : r.AllStale given r.policy.limit) :
    ∃ f, (run r.policy r.work).run r.world r.start = (.exhausted r.policy.limit f, r.left (r.policy.limit - 1)) := by
  have hlast : r.policy.limit - 1 < r.policy.limit := Nat.sub_lt r.policy.limit_pos Nat.one_pos
  obtain ⟨hgiven, hstale⟩ := h _ hlast
  obtain ⟨d, -, hrun⟩ := run_of_stale hw hp hlast fun k hk => h k (hk.trans hlast)
  obtain ⟨f, hf⟩ := attempts_of_spent (d := d) hw hgiven hstale
  have hall : r.policy.limit - 1 + 1 = r.policy.limit := Nat.sub_add_cancel r.policy.limit_pos
  refine ⟨f, ?_⟩
  rw [hrun, Nat.sub_self, hf, hall]

/-- a task that is tried again ends as trying it ends -/
theorem run_concurrent {p : RetryPolicy} {i : Id} {t : Task α} {s : σ} :
    (concurrent p i t).plan.run w s =
      (toTask i ((run p fun n => countRetry n t).run w s).1).plan.run w ((run p fun n => countRetry n t).run w s).2 :=
  Plan.run_bind w _ _ s

/-- **How trying again ends.** If no wait is at fault, and there are no waits at all if the first one is zero, a task on `i`
that is tried again is tried at most as often as the policy allows, so its tries can be counted in a word.
If the signal has been given before a try that is allowed, and all tries before that one met a stale write, these are the
tries that were made and the end is cancellation. If a try meets anything but a stale write, and all tries before it met
one, then it is the last one and its end is the end, also if the signal was given within it. If all tries that are allowed
met a stale write, the end is the conflict, also if the signal was given within the last of them. -/
theorem concurrent_ends {w : World σ} {given : σ → Bool} (hw : Candid w given) (p : RetryPolicy) (i : Id) (t : Task α)
    (s : σ) :
    let tries : Trials α σ := ⟨w, p, fun n => countRetry n t, s⟩
    let counted := (run p tries.work).run w s
    let ended := (concurrent p i t).plan.run w s
    (p.maxAttempts < two32 → p.limit < two32) ∧
    (p.initialDelay.isZero = true → p.Paced) ∧
    (p.Paced →
      (∀ n < p.limit, tries.AllStale given n → given (tries.due n) = true →
        counted = (.cancelled n, tries.due n) ∧
        ended = (.failure (.cancelled ("Operation on " ++ i.text ++ " was cancelled")), tries.due n)) ∧
      (∀ n < p.limit, tries.AllStale given n → given (tries.due n) = false → ¬(tries.ending n).Stale →
        tries.ending n ≠ .silence → ended = (tries.ending n, tries.left n)) ∧
      (tries.AllStale given p.limit →
        (∃ f, counted = (.exhausted p.limit f, tries.left (p.limit - 1))) ∧
        ended = (.failure (.conflict conflictMessage),
          (w (.count .concurrencyConflicts) (tries.left (p.limit - 1))).2))) := by
  intro tries counted ended
  have hended : ended = (toTask i counted.1).plan.run w counted.2 := run_concurrent
  refine ⟨?_, RetryPolicy.paced_of_isZero, fun hp => ⟨?_, ?_, ?_⟩⟩
  · intro hmax
    exact max_lt (by decide) hmax
  · intro n hn hstale hgiven
    have hcounted : counted = (.cancelled n, tries.due n) := run_of_given hw hp hn hstale hgiven
    rw [hended, hcounted]
    exact ⟨rfl, rfl⟩
  · intro n hn hstale hgiven hfresh hsilence
    have hcounted : counted = (settle n (tries.ending n), tries.left n) := run_of_settled hw hp hn hstale hgiven hfresh
    rw [hended, hcounted]
    generalize tries.ending n = e at hsilence
    cases e with
    | silence => exact absurd rfl hsilence
    | _ => rfl
  · intro hstale
    obtain ⟨f, hcounted⟩ : ∃ f, counted = (.exhausted p.limit f, tries.left (p.limit - 1)) := run_of_spent hw hp hstale
    rw [hended, hcounted]
    exact ⟨⟨f, rfl⟩, rfl⟩

/-- three tries, with a wait of fifty milliseconds and then one of a hundred -/
def patient : RetryPolicy := ⟨3, .ofMillis 50, .ofMillis 1000, 2.0⟩

/-- a service whose first two fetches of a goal set meet a stale write, and whose signal comes after sixty milliseconds -/
def interrupted : Rehearsal :=
  (Rehearsal.ofService (Service.start.cancelAfter 60)).setQueue ⟨.goalSet, .get⟩
    ⟨[⟨0, false, .staleWrite⟩, ⟨0, false, .staleWrite⟩], .none⟩

/-- another one, whose signal comes within the second of these fetches -/
def interruptedWithin : Rehearsal :=
  (Rehearsal.ofService .start).setQueue ⟨.goalSet, .get⟩ ⟨[⟨0, false, .staleWrite⟩, ⟨0, true, .staleWrite⟩], .none⟩

def disturbed : World Rehearsal := Rehearsal.answer ⟨.ofNat, fun _ => .epoch⟩ .standard

/-- a fetch of a goal set -/
def fetch : Task (Option GoalSet) := Task.get .goalSet .nil

theorem paced_patient : patient.Paced := by
  intro n hn
  change n < 3 at hn
  interval_cases n
  · exact ⟨.ofMillis 50, rfl⟩
  · exact ⟨.ofMillis 100, by decide +kernel⟩
  · exact ⟨.ofMillis 200, by decide +kernel⟩

/-- the wait after the second try is cut short; a signal within the last of two tries changes nothing -/
theorem concurrent_ends_interrupted :
    ((concurrent patient .nil fetch).plan.run disturbed interrupted).1 =
      .failure (.cancelled ("Operation on " ++ Id.nil.text ++ " was cancelled")) ∧
    ((concurrent { RetryPolicy.standard with maxAttempts := 2 } .nil fetch).plan.run disturbed interruptedWithin).1 =
      .failure (.conflict conflictMessage) := by
  have hends (p : RetryPolicy) := concurrent_ends (w := disturbed) (candid_rehearsal _ _) p .nil fetch
  constructor
  · obtain ⟨hgiven, -, -⟩ := (hends patient interrupted).2.2 paced_patient
    refine congrArg Prod.fst (hgiven 2 (by decide) ?_ (by decide +kernel)).2
    intro k hk
    interval_cases k
    · exact ⟨rfl, .nil, rfl⟩
    · exact ⟨by decide +kernel, .nil, by decide +kernel⟩
  · obtain ⟨-, -, hspent⟩ := (hends { RetryPolicy.standard with maxAttempts := 2 } interruptedWithin).2.2
      (RetryPolicy.paced_of_isZero rfl)
    refine congrArg Prod.fst (hspent ?_).2
    intro k hk
    change k < 2 at hk
    interval_cases k
    · exact ⟨rfl, .nil, rfl⟩
    · exact ⟨rfl, .nil, rfl⟩

end Retry

end Brigade
