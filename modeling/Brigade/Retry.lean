/-
Trying again after a stale write.

A task is tried up to a number of times, at least once. Only a failure that is worth a retry leads to another try. The
cancel signal is looked at before every try, and it ends a wait between tries; a try that it cuts off counts as made.
Between tries there is a wait, which grows by a factor up to a limit; a wait of zero is left out and stays zero.

`Retry.run` tells how it ended. `Retry.concurrent` turns that into the ending of a task: giving up becomes a conflict and
cancellation a failure of its own, and both retries and giving up are counted.
-/
import Brigade.Plan

namespace Brigade

structure RetryPolicy where
  /-- all tries, the first one included; zero counts as one -/
  maxAttempts : Nat
  initialDelay : Duration
  maxDelay : Duration
  backoff : Float

/-- one try and three more, back to back -/
def RetryPolicy.standard : RetryPolicy := ⟨4, .zero, .ofMillis 1000, 2.0⟩

instance : Inhabited RetryPolicy := ⟨.standard⟩

/-- tries that may be made -/
def RetryPolicy.limit (p : RetryPolicy) : Nat := max 1 p.maxAttempts

/-- how trying ends -/
inductive RetryEnd (α : Type) where
  | ok (a : α)
  | exhausted (attempts : Nat) (last : Failure)
  | fatal (f : Failure)
  | cancelled (attempts : Nat)
  | fault (f : Fault)
deriving DecidableEq, Repr

namespace Retry

variable {α : Type}

/-- the lesser of two numbers of seconds -/
def lesser (a b : Float) : Float := if a < b then a else if a.isNaN then b else if b.isNaN then a else b

/-- the wait after a wait -/
def nextDelay (p : RetryPolicy) (d : Duration) : Outcome Empty Duration :=
  Duration.ofSeconds (lesser (d.toSeconds * p.backoff) p.maxDelay.toSeconds)

/-- wait, then go on with the next wait; a zero wait is left out -/
def waiting (p : RetryPolicy) (made : Nat) (d : Duration) (again : Duration → Plan (RetryEnd α)) : Plan (RetryEnd α) :=
  if d.isZero then again d
  else .ask (.pause d) fun
    | true => .done (.cancelled made)
    | false =>
      match nextDelay p d with
      | .ok d' => again d'
      | .fault f => .done (.fault f)

/-- the try after `made` tries, and `again` if it met a failure that is worth a retry -/
def tryOnce (made : Nat) (t : Task α) (again : Failure → Plan (RetryEnd α)) : Plan (RetryEnd α) :=
  .ask .isCancelled fun
    | true => .done (.cancelled made)
    | false => t.plan.bind fun
      | .value a => .done (.ok a)
      | .fault f => .done (.fault f)
      | .silence => .done (.cancelled (made + 1))
      | .failure f => if f.retryable then again f else .done (.fatal f)

/-- one try after `made` tries, with at most `more` tries to follow; `work n` is the n-th try -/
def attempts (p : RetryPolicy) (work : Nat → Task α) : (more made : Nat) → Duration → Plan (RetryEnd α)
  | 0, made, _ => tryOnce made (work (made + 1)) fun f => .done (.exhausted (made + 1) f)
  | more + 1, made, d =>
    tryOnce made (work (made + 1)) fun _ => waiting p (made + 1) d (attempts p work more (made + 1))

/-- try until there is an end -/
def run (p : RetryPolicy) (work : Nat → Task α) : Plan (RetryEnd α) := attempts p work (p.limit - 1) 0 p.initialDelay

/-! ## Retries of a change to one aggregate -/

/-- what is said when every try met a stale write -/
def conflictMessage : String := "Another user modified this goal set. Please reload and try again."

/-- every try after the first one is counted -/
def countRetry (n : Nat) (t : Task α) : Task α :=
  if 1 < n then .ofPlan (.ask (.count .concurrencyRetries) fun _ => t.plan) else t

/-- how the end of trying ends a task on the aggregate `i` -/
def toTask (i : Id) : RetryEnd α → Task α
  | .ok a => .stop (.value a)
  | .fatal f => .fail f
  | .exhausted _ _ => .ofPlan (.ask (.count .concurrencyConflicts) fun _ => .done (.failure (.conflict conflictMessage)))
  | .cancelled _ => .fail (.cancelled ("Operation on " ++ i.text ++ " was cancelled"))
  | .fault f => .stop (.fault f)

/-- a task on the aggregate `i`, tried again after stale writes -/
def concurrent (p : RetryPolicy) (i : Id) (t : Task α) : Task α :=
  .ofPlan ((run p fun n => countRetry n t).bind fun e => (toTask i e).plan)

end Retry

end Brigade
