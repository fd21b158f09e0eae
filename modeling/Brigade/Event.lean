/-
Events: what is announced after a change has been stored.

An event that carries one identity is an object from its name to the identity; any other one is an object from its name
to a record.
-/
import Brigade.Json.Read

namespace Brigade

inductive Event where
  | orderCreated (orderId : Id)
  | orderItemsChanged (orderId : Id)
  | orderStatusChanged (orderId : Id) (old new : String)
  | tableStatusChanged (tableId : Id) (old new : String)
  | goalPeriodCreated (periodId : Id) (teamId year : Int32)
  | goalSetCreated (goalSetId : Id)
  | goalAdded (goalSetId goalId : Id)
  | goalUpdated (goalSetId goalId : Id)
  | goalProgressSubmitted (goalSetId goalId : Id)
  | goalProgressApproved (goalSetId goalId : Id)
  | goalProgressRejected (goalSetId goalId : Id)
  | goalSetSubmitted (goalSetId : Id)
  | goalSetApproved (goalSetId : Id) (approver : Int32)
  | goalSetRejected (goalSetId : Id) (approver : Int32)
deriving DecidableEq, Repr

namespace Event

/-- an object with one member -/
def tagged (name : String) (v : Json) : Json := .record [(name, v)]

def ofId (i : Id) : Json := .text i.text

/-- a goal within its set -/
def ofGoal (s g : Id) : Json := .record [("goal_set_id", ofId s), ("goal_id", ofId g)]

/-- a decision on a set -/
def ofDecision (s : Id) (u : Int32) : Json := .record [("goal_set_id", ofId s), ("approver_id", .word u)]

def toJson : Event → Json
  | orderCreated o => tagged "OrderCreated" (ofId o)
  | orderItemsChanged o => tagged "OrderItemsChanged" (ofId o)
  | orderStatusChanged o a b =>
    tagged "OrderStatusChanged" (.record [("order_id", ofId o), ("old_status", .text a), ("new_status", .text b)])
  | tableStatusChanged t a b =>
    tagged "TableStatusChanged" (.record [("table_id", ofId t), ("old_status", .text a), ("new_status", .text b)])
  | goalPeriodCreated p t y =>
    tagged "GoalPeriodCreated" (.record [("period_id", ofId p), ("team_id", .word t), ("year", .word y)])
  | goalSetCreated s => tagged "GoalSetCreated" (ofId s)
  | goalAdded s g => tagged "GoalAdded" (ofGoal s g)
  | goalUpdated s g => tagged "GoalUpdated" (ofGoal s g)
  | goalProgressSubmitted s g => tagged "GoalProgressSubmitted" (ofGoal s g)
  | goalProgressApproved s g => tagged "GoalProgressApproved" (ofGoal s g)
  | goalProgressRejected s g => tagged "GoalProgressRejected" (ofGoal s g)
  | goalSetSubmitted s => tagged "GoalSetSubmitted" (ofId s)
  | goalSetApproved s u => tagged "GoalSetApproved" (ofDecision s u)
  | goalSetRejected s u => tagged "GoalSetRejected" (ofDecision s u)

/-! ## Reading -/

/-- the reader of one identity -/
def fromId (f : Id → Event) : Reader.Content Event := .carrying fun j => (Reader.id j).map f

/-- the reader of an identity and two statuses -/
def fromChange (name : String) (f : Id → String → String → Event) : Reader.Content Event :=
  .carrying (Reader.record
    [Reader.field name Reader.id, Reader.field "old_status" Reader.string, Reader.field "new_status" Reader.string] false
    fun s => do
      let i ← s.required 0 name Reader.id
      let a ← s.required 1 "old_status" Reader.string
      let b ← s.required 2 "new_status" Reader.string
      return f i a b)

def fromPeriod : Reader.Content Event :=
  .carrying (Reader.record
    [Reader.field "period_id" Reader.id, Reader.field "team_id" Reader.int32, Reader.field "year" Reader.int32] false
    fun s => do
      let p ← s.required 0 "period_id" Reader.id
      let t ← s.required 1 "team_id" Reader.int32
      let y ← s.required 2 "year" Reader.int32
      return goalPeriodCreated p t y)

/-- the reader of a goal within its set -/
def fromGoal (f : Id → Id → Event) : Reader.Content Event :=
  .carrying (Reader.record [Reader.field "goal_set_id" Reader.id, Reader.field "goal_id" Reader.id] false fun s => do
    let a ← s.required 0 "goal_set_id" Reader.id
    let b ← s.required 1 "goal_id" Reader.id
    return f a b)

/-- the reader of a decision on a set -/
def fromDecision (f : Id → Int32 → Event) : Reader.Content Event :=
  .carrying (Reader.record [Reader.field "goal_set_id" Reader.id, Reader.field "approver_id" Reader.int32] false fun s => do
    let a ← s.required 0 "goal_set_id" Reader.id
    let u ← s.required 1 "approver_id" Reader.int32
    return f a u)

def read : Reader Event := Reader.variant
  [("OrderCreated", fromId orderCreated),
    ("OrderItemsChanged", fromId orderItemsChanged),
    ("OrderStatusChanged", fromChange "order_id" orderStatusChanged),
    ("TableStatusChanged", fromChange "table_id" tableStatusChanged),
    ("GoalPeriodCreated", fromPeriod),
    ("GoalSetCreated", fromId goalSetCreated),
    ("GoalAdded", fromGoal goalAdded),
    ("GoalUpdated", fromGoal goalUpdated),
    ("GoalProgressSubmitted", fromGoal goalProgressSubmitted),
    ("GoalProgressApproved", fromGoal goalProgressApproved),
    ("GoalProgressRejected", fromGoal goalProgressRejected),
    ("GoalSetSubmitted", fromId goalSetSubmitted),
    ("GoalSetApproved", fromDecision goalSetApproved),
    ("GoalSetRejected", fromDecision goalSetRejected)]

/-! ## The channel that events are announced on -/

/-- the most events that a channel can have room for -/
def maxRoom : Nat := 2305843009213693951

/-- the room of a channel that is asked to hold so many events; it is never without room for one -/
def channelRoom {ε : Type} (asked : Nat) : Outcome ε Nat :=
  if asked ≤ maxRoom then .ok (max 1 asked) else .fault .channelTooLarge

end Event

end Brigade
