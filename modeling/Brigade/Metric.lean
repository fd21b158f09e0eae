/-
Counters of what the service has done.

A metric is a name and the values of its labels. Counters only grow. The shown form of a metric has its labels in
braces, sorted by their names.
-/
import Brigade.Failure
import Brigade.Order.Status

namespace Brigade

/-- the goal commands, as they are counted -/
inductive GoalCommandName where
  | addGoalPeriod
  | createGoalSet
  | addGoal
  | updateGoal
  | updateGoalProgress
  | approveGoalProgress
  | rejectGoalProgress
  | sendGoalSetToApproval
  | approveGoalSet
  | rejectGoalSet
deriving DecidableEq, Repr, Inhabited

def GoalCommandName.text : GoalCommandName → String
  | .addGoalPeriod => "add_goal_period"
  | .createGoalSet => "create_goal_set"
  | .addGoal => "add_goal"
  | .updateGoal => "update_goal"
  | .updateGoalProgress => "update_goal_progress"
  | .approveGoalProgress => "approve_goal_progress"
  | .rejectGoalProgress => "reject_goal_progress"
  | .sendGoalSetToApproval => "send_goal_set_to_approval"
  | .approveGoalSet => "approve_goal_set"
  | .rejectGoalSet => "reject_goal_set"

inductive Metric where
  | commandsSucceeded (c : GoalCommandName)
  | commandsFailed (c : GoalCommandName) (k : FailureKind)
  | concurrencyRetries
  | concurrencyConflicts
  | orderCreations
  | orderCreationFailures (k : FailureKind)
  | orderItemsAdded
  | orderItemAddFailures
  | orderStatusUpdates
  | orderStatusUpdateFailures
  | orderAdvances (target : OrderStatus)
  | tableStatusUpdates
  | tableStatusUpdateFailures
deriving DecidableEq, Repr

namespace Metric

def name : Metric → String
  | commandsSucceeded _ => "commands_succeeded_total"
  | commandsFailed _ _ => "commands_failed_total"
  | concurrencyRetries => "concurrency_retries_total"
  | concurrencyConflicts => "concurrency_conflicts_total"
  | orderCreations => "order_creations_total"
  | orderCreationFailures _ => "order_creation_failures_total"
  | orderItemsAdded => "order_items_added_total"
  | orderItemAddFailures => "order_item_add_failures_total"
  | orderStatusUpdates => "order_status_updates_total"
  | orderStatusUpdateFailures => "order_status_update_failures_total"
  | orderAdvances _ => "order_advances_total"
  | tableStatusUpdates => "table_status_updates_total"
  | tableStatusUpdateFailures => "table_status_update_failures_total"

def help : Metric → String
  | commandsSucceeded _ => "Commands that completed successfully"
  | commandsFailed _ _ => "Commands that returned an error"
  | concurrencyRetries => "Attempts repeated after an optimistic-concurrency conflict"
  | concurrencyConflicts => "Commands that gave up after exhausting concurrency retries"
  | orderCreations => "Total number of orders created"
  | orderCreationFailures _ => "Total number of failed order creations"
  | orderItemsAdded => "Total number of items added to orders"
  | orderItemAddFailures => "Total number of failed item additions to orders"
  | orderStatusUpdates => "Total number of order status updates"
  | orderStatusUpdateFailures => "Total number of failed order status updates"
  | orderAdvances _ => "Orders moved through the kitchen lifecycle"
  | tableStatusUpdates => "Total number of table status updates"
  | tableStatusUpdateFailures => "Total number of rejected table status updates"

/-- names and values of the labels, sorted by name -/
def labels : Metric → List (String × String)
  | commandsSucceeded c => [("command", c.text)]
  | commandsFailed c k => [("command", c.text), ("error_type", k.name)]
  | orderCreationFailures k => [("error_type", k.name)]
  | orderAdvances s => [("target", s.name)]
  | _ => []

/-- name and labels -/
def text (m : Metric) : String :=
  match m.labels with
  | [] => m.name
  | ls => m.name ++ "\x7b" ++ ",".intercalate (ls.map fun l => l.1 ++ "=\"" ++ l.2 ++ "\"") ++ "\x7d"

/-- the two lines that describe a metric -/
def about (m : Metric) : List String :=
  ["# HELP " ++ m.name ++ " " ++ m.help, "# TYPE " ++ m.name ++ " counter"]

end Metric

/-- how often each metric has been counted; metrics that are not listed stand at zero -/
abbrev Counters : Type := List (Metric × Nat)

namespace Counters

def count (m : Metric) : Counters → Nat
  | [] => 0
  | (m', n) :: c => if m' = m then n else count m c

/-- count a metric once more -/
def bump (m : Metric) : Counters → Counters
  | [] => [(m, 1)]
  | (m', n) :: c => if m' = m then (m', n + 1) :: c else (m', n) :: bump m c

theorem count_bump_self (m : Metric) (c : Counters) : count m (bump m c) = count m c + 1 := by
  induction c with
  | nil => simp [bump, count]
  | cons p c ih =>
    by_cases h : p.1 = m
    · simp [bump, count, h]
    · simp [bump, count, h, ih]

theorem count_bump_of_ne {m m' : Metric} (h : m ≠ m') (c : Counters) : count m' (bump m c) = count m' c := by
  induction c with
  | nil => simp [bump, count, h]
  | cons p c ih =>
    by_cases hp : p.1 = m
    · simp [bump, count, hp, h]
    · by_cases hm : p.1 = m'
      · subst hm; simp [bump, count, hp]
      · simp [bump, count, hp, hm, ih]

end Counters

end Brigade
