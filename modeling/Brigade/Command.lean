/-
All commands under one type: eighteen of them, each with its task and its result.
-/
import Brigade.Command.Goal
import Brigade.Command.Order
import Brigade.Command.Table

namespace Brigade

/-- what commands need besides their input -/
structure Settings where
  retry : RetryPolicy
  /-- what order numbers start with -/
  orderNumberFront : String

def Settings.standard : Settings := ⟨.standard, "ORD"⟩

instance : Inhabited Settings := ⟨.standard⟩

inductive Command where
  | createOrder (c : CreateOrder)
  | addItem (c : AddItem)
  | removeItem (c : RemoveItem)
  | setItemQuantity (c : SetItemQuantity)
  | moveOrder (c : MoveOrder)
  | advanceOrder (c : AdvanceOrder)
  | moveTable (c : MoveTable)
  | setTable (c : SetTable)
  | addGoalPeriod (c : AddGoalPeriod)
  | createGoalSet (c : CreateGoalSet)
  | addGoal (c : AddGoal)
  | updateGoal (c : UpdateGoal)
  | submitProgress (c : SubmitProgress)
  | approveProgress (c : ReviewProgress)
  | rejectProgress (c : ReviewProgress)
  | sendToApproval (c : SendToApproval)
  | approveGoalSet (c : ReviewGoalSet)
  | rejectGoalSet (c : ReviewGoalSet)
deriving DecidableEq, Repr

inductive CommandResult where
  | created (r : CreateOrderResult)
  | itemAdded (r : AddItemResult)
  | lines (r : LineResult)
  | moved (r : MoveOrderResult)
  | advanced (r : AdvanceOrderResult)
  | table (r : TableResult)
  | period (r : AddGoalPeriodResult)
  | goalSet (r : CreateGoalSetResult)
  | goal (r : GoalResult)
  | transition (r : GoalSetResult)
deriving DecidableEq, Repr

def CommandResult.toJson : CommandResult → Json
  | created r => r.toJson
  | itemAdded r => r.toJson
  | lines r => r.toJson
  | moved r => r.toJson
  | advanced r => r.toJson
  | table r => r.toJson
  | period r => r.toJson
  | goalSet r => r.toJson
  | goal r => r.toJson
  | transition r => r.toJson

/-- a task with its value under a constructor -/
def Task.giving {α β : Type} (f : α → β) (t : Task α) : Task β := do return f (← t)

namespace Command

/-- what a command does -/
def task (s : Settings) : Command → Task CommandResult
  | createOrder c => (c.task s.orderNumberFront).giving .created
  | addItem c => c.task.giving .itemAdded
  | removeItem c => c.task.giving .lines
  | setItemQuantity c => c.task.giving .lines
  | moveOrder c => c.task.giving .moved
  | advanceOrder c => c.task.giving .advanced
  | moveTable c => c.task.giving .table
  | setTable c => c.task.giving .table
  | addGoalPeriod c => c.task.giving .period
  | createGoalSet c => c.task.giving .goalSet
  | addGoal c => (c.task s.retry).giving .goal
  | updateGoal c => (c.task s.retry).giving .goal
  | submitProgress c => (c.task s.retry).giving .goal
  | approveProgress c => (c.approve s.retry).giving .goal
  | rejectProgress c => (c.reject s.retry).giving .goal
  | sendToApproval c => (c.task s.retry).giving .transition
  | approveGoalSet c => (c.approve s.retry).giving .transition
  | rejectGoalSet c => (c.reject s.retry).giving .transition

/-- a reader with its value under a constructor -/
def under {α : Type} (f : α → Command) (r : Reader α) : Reader Command := fun j => (r j).map f

/-- the reader of a command's input, by the command's name -/
def reader? (name : String) : Option (Reader Command) :=
  List.lookup name
    [("CreateOrder", under createOrder CreateOrder.read),
      ("AddItemToOrder", under addItem AddItem.read),
      ("RemoveItemFromOrder", under removeItem RemoveItem.read),
      ("UpdateOrderItemQuantity", under setItemQuantity SetItemQuantity.read),
      ("UpdateOrderStatus", under moveOrder MoveOrder.read),
      ("AdvanceOrder", under advanceOrder AdvanceOrder.read),
      ("UpdateTableStatus", under moveTable MoveTable.read),
      ("SetTableStatus", under setTable SetTable.read),
      ("AddGoalPeriod", under addGoalPeriod AddGoalPeriod.read),
      ("CreateGoalSet", under createGoalSet CreateGoalSet.read),
      ("AddGoal", under addGoal AddGoal.read),
      ("UpdateGoal", under updateGoal UpdateGoal.read),
      ("UpdateGoalProgress", under submitProgress SubmitProgress.read),
      ("ApproveGoalProgress", under approveProgress ReviewProgress.read),
      ("RejectGoalProgress", under rejectProgress ReviewProgress.read),
      ("SendGoalSetToApproval", under sendToApproval SendToApproval.read),
      ("ApproveGoalSet", under approveGoalSet ReviewGoalSet.read),
      ("RejectGoalSet", under rejectGoalSet ReviewGoalSet.read)]

end Command

end Brigade
