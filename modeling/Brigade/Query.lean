/-
Queries: questions that change nothing.

What a list query answers is a filter of the stored aggregates in a fixed order: kitchen orders by date, tables by
number, goal sets by team and user. Entries with equal keys stay in the order in which the store lists them.
-/
import Brigade.Plan

namespace Brigade

/-- a goal whose progress needs a decision, with the set it is in -/
structure PendingGoal where
  goalSetId : Id
  teamId : Int32
  userId : Int32
  goal : Goal
deriving DecidableEq, Repr

def PendingGoal.toJson (p : PendingGoal) : Json :=
  .record [("goal_set_id", .text p.goalSetId.text), ("team_id", .word p.teamId), ("user_id", .word p.userId),
    ("goal", p.goal.toJson)]

/-- a number and the name it stands for -/
structure LookupItem where
  id : Nat
  name : String
deriving DecidableEq, Repr

def LookupItem.toJson (l : LookupItem) : Json := .record [("id", .nat l.id), ("name", .text l.name)]

inductive Query where
  | order (orderId : Id)
  | kitchenOrders
  | table (tableId : Id)
  | availableTables (minCapacity : Option Int32)
  | goalSet (teamId year userId : Int32)
  | goal (goalSetId goalId : Id)
  | pendingGoalSets (teamIds : List Int32)
  | pendingGoals (teamIds : List Int32)
  | goalTypes
  | goalValueTypes
deriving DecidableEq, Repr

inductive QueryResult where
  | order (o : Option Order)
  | orders (os : List Order)
  | table (t : Option Table)
  | tables (ts : List Table)
  | goalSet (s : Option GoalSet)
  | goalSets (ss : List GoalSet)
  | goal (g : Option Goal)
  | pendingGoals (ps : List PendingGoal)
  | items (ls : List LookupItem)
deriving DecidableEq, Repr

def QueryResult.toJson : QueryResult → Json
  | order o => .option Order.toJson o
  | orders os => .arr (os.map Order.toJson)
  | table t => .option Table.toJson t
  | tables ts => .arr (ts.map Table.toJson)
  | goalSet s => .option GoalSet.toJson s
  | goalSets ss => .arr (ss.map GoalSet.toJson)
  | goal g => .option Goal.toJson g
  | pendingGoals ps => .arr (ps.map PendingGoal.toJson)
  | items ls => .arr (ls.map LookupItem.toJson)

namespace Query

/-! ## What is selected -/

/-- orders the kitchen works on, oldest first -/
def kitchenOf (os : List Order) : List Order :=
  (os.filter (·.status.kitchenActive)).mergeSort fun a b => Timestamp.le a.date b.date

/-- free tables of at least a capacity, by number -/
def availableOf (minCapacity : Option Int32) (ts : List Table) : List Table :=
  (ts.filter fun t => t.isAvailable && (minCapacity.getD 0) ≤ t.capacity).mergeSort fun a b => a.number ≤ b.number

/-- the order of goal sets: by team, then by user -/
def ownerLe (a b : GoalSet) : Bool := a.teamId < b.teamId || (a.teamId == b.teamId && a.userId ≤ b.userId)

/-- sets of the teams that wait for a decision -/
def pendingSetsOf (teamIds : List Int32) (ss : List GoalSet) : List GoalSet :=
  (ss.filter fun s => s.isWaitingForApproval && teamIds.contains s.teamId).mergeSort ownerLe

/-- goals of one set whose progress waits for a decision -/
def pendingIn (s : GoalSet) : List PendingGoal :=
  (s.goals.filter Goal.isWaiting).map fun g => ⟨s.id, s.teamId, s.userId, g⟩

/-- goals of the teams' sets whose progress waits for a decision -/
def pendingGoalsOf (teamIds : List Int32) (ss : List GoalSet) : List PendingGoal :=
  ((ss.filter fun s => teamIds.contains s.teamId).mergeSort ownerLe).flatMap pendingIn

/-! ## Tasks -/

def task : Query → Task QueryResult
  | order i => do
    let o ← Task.get .order i
    return .order o
  | kitchenOrders => do
    let os ← Task.list .order
    return .orders (kitchenOf os)
  | table i => do
    let t ← Task.get .table i
    return .table t
  | availableTables c => do
    let ts ← Task.list .table
    return .tables (availableOf c ts)
  | goalSet t y u => do
    let ps ← Task.list .goalPeriod
    match ps.find? fun p => GoalPeriod.isFor p t y with
    | none => return .goalSet none
    | some p =>
      let ss ← Task.list .goalSet
      return .goalSet (ss.find? fun (s : GoalSet) => s.teamId == t && s.periodId == p.id && s.userId == u)
  | goal s g => do
    let s ← Task.get .goalSet s
    return .goal (s.bind fun (s : GoalSet) => s.goal? g)
  | pendingGoalSets ts =>
    if ts.isEmpty then pure (.goalSets []) else do
      let ss ← Task.list .goalSet
      return .goalSets (pendingSetsOf ts ss)
  | pendingGoals ts =>
    if ts.isEmpty then pure (.pendingGoals []) else do
      let ss ← Task.list .goalSet
      return .pendingGoals (pendingGoalsOf ts ss)
  | goalTypes => pure (.items (GoalType.all.map fun t => ⟨t.value, t.name⟩))
  | goalValueTypes => pure (.items (GoalValueType.all.map fun t => ⟨t.value, t.name⟩))

/-! ## Reading -/

/-- a query about one identity -/
def readId (name : String) (f : Id → Query) : Reader Query :=
  Reader.record [Reader.field name Reader.id] false fun s => do
    let i ← s.required 0 name Reader.id
    return f i

def readTeams (f : List Int32 → Query) : Reader Query :=
  Reader.record [Reader.field "team_ids" (Reader.list Reader.int32)] false fun s => do
    let ts ← s.required 0 "team_ids" (Reader.list Reader.int32)
    return f ts

def readAvailableTables : Reader Query :=
  Reader.record [Reader.field "min_capacity" (Reader.option Reader.int32)] false fun s => do
    let c ← s.optional 0 "min_capacity" Reader.int32
    return .availableTables c

def readGoalSet : Reader Query :=
  Reader.record
    [Reader.field "team_id" Reader.int32, Reader.field "year" Reader.int32, Reader.field "user_id" Reader.int32] false
    fun s => do
      let t ← s.required 0 "team_id" Reader.int32
      let y ← s.required 1 "year" Reader.int32
      let u ← s.required 2 "user_id" Reader.int32
      return .goalSet t y u

def readGoal : Reader Query :=
  Reader.record [Reader.field "goal_set_id" Reader.id, Reader.field "goal_id" Reader.id] false fun s => do
    let i ← s.required 0 "goal_set_id" Reader.id
    let g ← s.required 1 "goal_id" Reader.id
    return .goal i g

/-- the reader of a query's input, by the query's name; some queries have none -/
def reader? (name : String) : Option (Reader Query) :=
  List.lookup name
    [("GetOrder", readId "order_id" .order),
      ("GetKitchenOrders", fun _ => .ok .kitchenOrders),
      ("GetTable", readId "table_id" .table),
      ("GetAvailableTables", readAvailableTables),
      ("GetGoalSet", readGoalSet),
      ("GetGoal", readGoal),
      ("GetPendingApprovalGoalSets", readTeams .pendingGoalSets),
      ("GetPendingApprovalGoals", readTeams .pendingGoals),
      ("GetGoalTypeLookup", fun _ => .ok .goalTypes),
      ("GetGoalValueTypeLookup", fun _ => .ok .goalValueTypes)]

end Query

end Brigade
