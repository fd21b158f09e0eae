/-
A walk through both halves of the service.

A table and a dish are set up, an order is placed and served, and one goal of one user is reported, approved and closed.
Each of three stages ends with a line of the log (`place`, `serve`, `review`); the first stage that has no value ends
the walk, and the lines of the stages before it stand (`Walkthrough.run`).
-/
import Brigade.Log.Line
import Brigade.Service

namespace Brigade.Walkthrough

/-- where the lines of the walk come from -/
def target : String := "aggregate_workflows"

def line (message : String) (fields : List (String × LogValue)) : LogLine := ⟨.info, target, message, fields⟩

/-! ## The restaurant -/

def tableRefusals (es : List TableError) : Refusal := .ofMessages (es.map TableError.message)

def dishRefusals (es : List MenuItemError) : Refusal := .ofMessages (es.map MenuItemError.message)

/-- 6.50 -/
def soupPrice : Decimal := ⟨false, 650, 2, by decide, by decide⟩

/-- an order that was placed, and its table -/
structure Placed where
  tableId : Id
  order : CreateOrderResult

/-- two soups at a table for four -/
def place (s : Settings) : Task Placed := do
  let i ← Task.freshId
  let t ← Task.ofOutcome tableRefusals (Table.create i 1 4)
  let t ← Task.add .table t
  let i ← Task.freshId
  let soup ← Task.ofOutcome dishRefusals (MenuItem.create i "Tomato soup" "Starters" soupPrice none)
  let soup ← Task.add .menuItem soup
  let o ← CreateOrder.task ⟨t.id, [⟨soup.id, 2, none⟩], none⟩ s.orderNumberFront
  return ⟨t.id, o⟩

def placedLine (p : Placed) : LogLine :=
  line "Order placed" [("order_number", .text p.order.number), ("total", .text p.order.total.text)]

/-- take an order through statuses, one after another -/
def advance (orderId : Id) : List OrderStatus → Task Unit
  | [] => pure ()
  | s :: rest => do
    let _ ← AdvanceOrder.task ⟨orderId, s⟩
    advance orderId rest

/-- cook and serve; how many orders and free tables there are then -/
def serve (p : Placed) : Task (Nat × Nat) := do
  let _ ← MoveTable.task ⟨p.tableId, .occupied⟩
  advance p.order.id [.preparing, .ready, .served]
  let orders ← Task.list .order
  let tables ← Task.list .table
  return ((Query.kitchenOf orders).length, (Query.availableOf none tables).length)

def servedLine (counts : Nat × Nat) : LogLine :=
  line "Restaurant walkthrough finished" [("kitchen_orders", .count counts.1), ("free_tables", .count counts.2)]

/-! ## The goals -/

/-- one goal from its period to the approval of its set -/
def review (s : Settings) : Task GoalSetResult := do
  let _ ← AddGoalPeriod.task ⟨1, 2030⟩
  let set ← CreateGoalSet.task ⟨1, 1, 2030⟩
  let goal ← AddGoal.task ⟨set.id, "Customer satisfaction", .team, 60, 80, 95, .percentage, 100⟩ s.retry
  let _ ← SubmitProgress.task ⟨set.id, goal.goalId, 84, some "Survey results"⟩ s.retry
  let _ ← ReviewProgress.approve ⟨set.id, goal.goalId⟩ s.retry
  let _ ← SendToApproval.task ⟨set.id⟩ s.retry
  ReviewGoalSet.approve ⟨set.id, 2⟩ s.retry

def reviewedLine (r : GoalSetResult) : LogLine := line r.message [("goal_set_id", .text r.goalSetId.text)]

/-! ## The walk -/

/-- how a walk went -/
structure Walk where
  lines : List LogLine
  ending : Ending Unit
  service : Service

variable {α : Type}

/-- an ending without its value -/
def ended : Ending α → Ending Unit
  | .value _ => .value ()
  | .failure f => .failure f
  | .fault f => .fault f
  | .silence => .silence

/-- one stage: its line, then what follows it; without a value the walk ends there -/
def stage (env : Surroundings) (t : Task α) (log : α → LogLine) (next : α → Service → Walk) (s : Service) : Walk :=
  match t.plan.run (Service.answer env) s with
  | (.value a, s) =>
    let w := next a s
    { w with lines := log a :: w.lines }
  | (e, s) => ⟨[], ended e, s⟩

def run (env : Surroundings) (settings : Settings) : Service → Walk :=
  stage env (place settings) placedLine fun p =>
    stage env (serve p) servedLine fun _ =>
      stage env (review settings) reviewedLine fun _ s => ⟨[], .value (), s⟩

end Brigade.Walkthrough
