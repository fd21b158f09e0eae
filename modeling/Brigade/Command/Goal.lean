/-
Commands on goal periods and goal sets.

A command on a stored goal set loads it, applies one transition and writes the result, and does all of it again after a
stale write (`GoalCommand.modify`); then it announces the change (`GoalCommand.change`). Every command is counted under
its name, a success or by the kind of its failure (`GoalCommand.recorded`). Input that a command refuses itself never
reaches the store.
-/
import Brigade.Retry
import Brigade.Validation

namespace Brigade

/-- a goal a command acted on -/
structure GoalResult where
  goalSetId : Id
  goalId : Id
  version : Int32
deriving DecidableEq, Repr

def GoalResult.toJson (r : GoalResult) : Json :=
  .record [("goal_set_id", .text r.goalSetId.text), ("goal_id", .text r.goalId.text), ("version", .word r.version)]

/-- a move of a whole set, with what is said about it -/
structure GoalSetResult where
  goalSetId : Id
  status : Option GoalSetStatus
  version : Int32
  message : String
deriving DecidableEq, Repr

def GoalSetResult.toJson (r : GoalSetResult) : Json :=
  .record [("goal_set_id", .text r.goalSetId.text), ("status", .option GoalSetStatus.toJson r.status),
    ("version", .word r.version), ("message", .text r.message)]

namespace GoalCommand

variable {α β : Type}

def refusal (e : GoalSetError) : Refusal := .one e.message

/-- the stored goal set -/
def load (i : Id) : Task GoalSet := do
  let s ← Task.get .goalSet i
  Task.orFail (.notFound "Goal set not found") s

/-- load, change and write once -/
def modifyOnce (i : Id) (transition : GoalSet → Task (GoalSet × α)) : Task (GoalSet × α) := do
  let s ← load i
  let (changed, a) ← transition s
  let stored ← Task.update .goalSet changed
  return (stored, a)

/-- load, change and write, again after a stale write: what is stored, and what the transition gave -/
def modify (p : RetryPolicy) (i : Id) (transition : GoalSet → Task (GoalSet × α)) : Task (GoalSet × α) :=
  Retry.concurrent p i (modifyOnce i transition)

/-- a transition that gives nothing but the set -/
def plain (f : GoalSet → Outcome GoalSetError GoalSet) (s : GoalSet) : Task (GoalSet × Unit) := do
  let s ← Task.ofOutcome refusal (f s)
  return (s, ())

def announce (e : Event) : Task Unit := Task.publish e ("Failed to send goal event: " ++ ·)

/-- how a command is counted -/
def recordMetrics (c : GoalCommandName) : Ending α → List Metric
  | .value _ => [.commandsSucceeded c]
  | .failure f => [.commandsFailed c f.kind]
  | _ => []

def recorded (c : GoalCommandName) (t : Task α) : Task α := Task.counted (recordMetrics c) t

/-- a change of a set, announced by `event`, with what is said about it -/
def change (p : RetryPolicy) (i : Id) (transition : GoalSet → Task (GoalSet × α)) (event : GoalSet × α → Event)
    (result : GoalSet × α → β) : Task β := do
  let x ← modify p i transition
  announce (event x)
  return result x

/-- a change of one goal, announced by `e` -/
def changeGoal (p : RetryPolicy) (setId goalId : Id) (f : GoalSet → Outcome GoalSetError GoalSet)
    (e : Id → Id → Event) : Task GoalResult :=
  change p setId (plain f) (fun (s, _) => e s.id goalId) fun (s, _) => ⟨s.id, goalId, s.version⟩

/-- a move of a set, announced by `e` -/
def moveSet (p : RetryPolicy) (setId : Id) (f : GoalSet → Outcome GoalSetError GoalSet) (e : Id → Event)
    (message : String) : Task GoalSetResult :=
  change p setId (plain f) (fun (s, _) => e s.id) fun (s, _) => ⟨s.id, s.status, s.version, message⟩

/-! ## Conditions on input -/

def teamComplaints (t : Int32) : List Complaint := Validation.check (1 ≤ t) "team_id" (some "Team id must be positive")

def userComplaints (u : Int32) : List Complaint := Validation.check (1 ≤ u) "user_id" (some "User id must be positive")

def titleComplaints (t : String) : List Complaint :=
  Validation.check (1 ≤ t.length && t.length ≤ 200) "title" (some "Title must be between 1 and 200 characters")

def percentageComplaints (p : Int32) : List Complaint :=
  Validation.check (1 ≤ p && p ≤ 100) "percentage" (some "Percentage must be between 1 and 100")

end GoalCommand

open GoalCommand

/-! ## Periods and sets -/

/-- open the period of a team and year -/
structure AddGoalPeriod where
  teamId : Int32
  year : Int32
deriving DecidableEq, Repr

structure AddGoalPeriodResult where
  id : Id
  teamId : Int32
  year : Int32
deriving DecidableEq, Repr

def AddGoalPeriodResult.toJson (r : AddGoalPeriodResult) : Json :=
  .record [("id", .text r.id.text), ("team_id", .word r.teamId), ("year", .word r.year)]

namespace AddGoalPeriod

def complaints (c : AddGoalPeriod) : List Complaint :=
  teamComplaints c.teamId ++
    Validation.check (2000 ≤ c.year && c.year ≤ 2100) "year" (some "Year must be between 2000 and 2100")

/-- the failure of a period that exists, in this command's words -/
def reword (c : AddGoalPeriod) : Failure → Failure
  | .alreadyExists _ =>
    .alreadyExists ("Goal period for team " ++ toString c.teamId.toInt ++ " and year " ++ toString c.year.toInt ++
      " already exists")
  | f => f

def refusals (es : List GoalPeriodError) : Refusal := .ofMessages (es.map GoalPeriodError.message)

def body (c : AddGoalPeriod) : Task AddGoalPeriodResult := do
  Task.unless? (Validation.failure? c.complaints)
  let i ← Task.freshId
  let p ← Task.ofOutcome refusals (GoalPeriod.create i c.teamId c.year)
  let p ← Task.mapFailure c.reword (Task.add .goalPeriod p)
  announce (.goalPeriodCreated p.id p.teamId p.year)
  return ⟨p.id, p.teamId, p.year⟩

def task (c : AddGoalPeriod) : Task AddGoalPeriodResult := recorded .addGoalPeriod c.body

def fields : List Reader.Field := [Reader.field "team_id" Reader.int32, Reader.field "year" Reader.int32]

def read : Reader AddGoalPeriod := Reader.record fields false fun s => do
  let t ← s.required 0 "team_id" Reader.int32
  let y ← s.required 1 "year" Reader.int32
  return ⟨t, y⟩

end AddGoalPeriod

/-- start an empty set for a user in the team's period of a year -/
structure CreateGoalSet where
  teamId : Int32
  userId : Int32
  year : Int32
deriving DecidableEq, Repr

structure CreateGoalSetResult where
  id : Id
  teamId : Int32
  periodId : Id
  userId : Int32
  version : Int32
deriving DecidableEq, Repr

def CreateGoalSetResult.toJson (r : CreateGoalSetResult) : Json :=
  .record [("id", .text r.id.text), ("team_id", .word r.teamId), ("period_id", .text r.periodId.text),
    ("user_id", .word r.userId), ("version", .word r.version)]

namespace CreateGoalSet

def complaints (c : CreateGoalSet) : List Complaint := teamComplaints c.teamId ++ userComplaints c.userId

/-- the failure of a set that exists, in this command's words -/
def reword (c : CreateGoalSet) : Failure → Failure
  | .alreadyExists _ =>
    .alreadyExists ("Goal set for user " ++ toString c.userId.toInt ++ " in team " ++ toString c.teamId.toInt ++
      " and year " ++ toString c.year.toInt ++ " already exists")
  | f => f

/-- the failure of a year without a period -/
def noPeriod (c : CreateGoalSet) : Failure :=
  .invalidOperation ("The goal period is not created for team " ++ toString c.teamId.toInt ++ " and year " ++
    toString c.year.toInt)

def refusals (es : List GoalSetError) : Refusal := .ofMessages (es.map GoalSetError.message)

def body (c : CreateGoalSet) : Task CreateGoalSetResult := do
  Task.unless? (Validation.failure? c.complaints)
  let periods ← Task.list .goalPeriod
  let p ← Task.orFail c.noPeriod (periods.find? fun p => GoalPeriod.isFor p c.teamId c.year)
  let i ← Task.freshId
  let s ← Task.ofOutcome refusals (GoalSet.create i c.teamId p.id c.userId)
  let s ← Task.mapFailure c.reword (Task.add .goalSet s)
  announce (.goalSetCreated s.id)
  return ⟨s.id, s.teamId, s.periodId, s.userId, s.version⟩

def task (c : CreateGoalSet) : Task CreateGoalSetResult := recorded .createGoalSet c.body

def fields : List Reader.Field :=
  [Reader.field "team_id" Reader.int32, Reader.field "user_id" Reader.int32, Reader.field "year" Reader.int32]

def read : Reader CreateGoalSet := Reader.record fields false fun s => do
  let t ← s.required 0 "team_id" Reader.int32
  let u ← s.required 1 "user_id" Reader.int32
  let y ← s.required 2 "year" Reader.int32
  return ⟨t, u, y⟩

end CreateGoalSet

/-! ## Goals -/

/-- add a goal to an editable set -/
structure AddGoal where
  goalSetId : Id
  title : String
  type : GoalType
  min : Int32
  mid : Int32
  max : Int32
  valueType : GoalValueType
  percentage : Int32
deriving DecidableEq, Repr

namespace AddGoal

def complaints (c : AddGoal) : List Complaint := titleComplaints c.title ++ percentageComplaints c.percentage

/-- the goal under a fresh identity, and that identity -/
def transition (c : AddGoal) (v : GoalValue) (s : GoalSet) : Task (GoalSet × Id) := do
  let i ← Task.freshId
  let s ← Task.ofOutcome refusal (s.addGoal i c.title c.type v c.percentage)
  return (s, i)

def body (c : AddGoal) (p : RetryPolicy) : Task GoalResult := do
  Task.unless? (Validation.failure? c.complaints)
  let v ← Task.ofOutcome (fun e => .one (GoalValueError.message e)) (GoalValue.create c.min c.mid c.max c.valueType)
  change p c.goalSetId (c.transition v) (fun (s, i) => .goalAdded s.id i) fun (s, i) => ⟨s.id, i, s.version⟩

def task (c : AddGoal) (p : RetryPolicy) : Task GoalResult := recorded .addGoal (c.body p)

def fields : List Reader.Field :=
  [Reader.field "goal_set_id" Reader.id, Reader.field "title" Reader.string, Reader.field "goal_type" GoalType.read,
    Reader.field "min_value" Reader.int32, Reader.field "mid_value" Reader.int32,
    Reader.field "max_value" Reader.int32, Reader.field "value_type" GoalValueType.read,
    Reader.field "percentage" Reader.int32]

def read : Reader AddGoal := Reader.record fields false fun s => do
  let i ← s.required 0 "goal_set_id" Reader.id
  let t ← s.required 1 "title" Reader.string
  let k ← s.required 2 "goal_type" GoalType.read
  let a ← s.required 3 "min_value" Reader.int32
  let b ← s.required 4 "mid_value" Reader.int32
  let c ← s.required 5 "max_value" Reader.int32
  let v ← s.required 6 "value_type" GoalValueType.read
  let p ← s.required 7 "percentage" Reader.int32
  return ⟨i, t, k, a, b, c, v, p⟩

end AddGoal

/-- give a goal another title, kind, value type and weight -/
structure UpdateGoal where
  goalSetId : Id
  goalId : Id
  title : String
  type : GoalType
  valueType : GoalValueType
  percentage : Int32
deriving DecidableEq, Repr

namespace UpdateGoal

def complaints (c : UpdateGoal) : List Complaint := titleComplaints c.title ++ percentageComplaints c.percentage

def body (c : UpdateGoal) (p : RetryPolicy) : Task GoalResult := do
  Task.unless? (Validation.failure? c.complaints)
  changeGoal p c.goalSetId c.goalId (fun s => s.updateGoal c.goalId c.title c.type c.valueType c.percentage) .goalUpdated

def task (c : UpdateGoal) (p : RetryPolicy) : Task GoalResult := recorded .updateGoal (c.body p)

def fields : List Reader.Field :=
  [Reader.field "goal_set_id" Reader.id, Reader.field "goal_id" Reader.id, Reader.field "title" Reader.string,
    Reader.field "goal_type" GoalType.read, Reader.field "value_type" GoalValueType.read,
    Reader.field "percentage" Reader.int32]

def read : Reader UpdateGoal := Reader.record fields false fun s => do
  let i ← s.required 0 "goal_set_id" Reader.id
  let g ← s.required 1 "goal_id" Reader.id
  let t ← s.required 2 "title" Reader.string
  let k ← s.required 3 "goal_type" GoalType.read
  let v ← s.required 4 "value_type" GoalValueType.read
  let p ← s.required 5 "percentage" Reader.int32
  return ⟨i, g, t, k, v, p⟩

end UpdateGoal

/-- record what has been reached; it waits for approval -/
structure SubmitProgress where
  goalSetId : Id
  goalId : Id
  actual : Int32
  comment : Option String
deriving DecidableEq, Repr

namespace SubmitProgress

def complaints (c : SubmitProgress) : List Complaint :=
  Validation.check (c.comment.all (·.length ≤ 1000)) "comment" (some "Comment cannot exceed 1000 characters")

def body (c : SubmitProgress) (p : RetryPolicy) : Task GoalResult := do
  Task.unless? (Validation.failure? c.complaints)
  changeGoal p c.goalSetId c.goalId (fun s => s.submitProgress c.goalId c.actual c.comment) .goalProgressSubmitted

def task (c : SubmitProgress) (p : RetryPolicy) : Task GoalResult := recorded .updateGoalProgress (c.body p)

def fields : List Reader.Field :=
  [Reader.field "goal_set_id" Reader.id, Reader.field "goal_id" Reader.id, Reader.field "actual_value" Reader.int32,
    Reader.field "comment" (Reader.option Reader.string)]

def read : Reader SubmitProgress := Reader.record fields false fun s => do
  let i ← s.required 0 "goal_set_id" Reader.id
  let g ← s.required 1 "goal_id" Reader.id
  let a ← s.required 2 "actual_value" Reader.int32
  let c ← s.optional 3 "comment" Reader.string
  return ⟨i, g, a, c⟩

end SubmitProgress

/-- decide on the progress of a goal -/
structure ReviewProgress where
  goalSetId : Id
  goalId : Id
deriving DecidableEq, Repr

namespace ReviewProgress

def approve (c : ReviewProgress) (p : RetryPolicy) : Task GoalResult :=
  recorded .approveGoalProgress
    (changeGoal p c.goalSetId c.goalId (fun s => s.approveProgress c.goalId) .goalProgressApproved)

def reject (c : ReviewProgress) (p : RetryPolicy) : Task GoalResult :=
  recorded .rejectGoalProgress
    (changeGoal p c.goalSetId c.goalId (fun s => s.rejectProgress c.goalId) .goalProgressRejected)

def fields : List Reader.Field := [Reader.field "goal_set_id" Reader.id, Reader.field "goal_id" Reader.id]

def read : Reader ReviewProgress := Reader.record fields false fun s => do
  let i ← s.required 0 "goal_set_id" Reader.id
  let g ← s.required 1 "goal_id" Reader.id
  return ⟨i, g⟩

end ReviewProgress

/-! ## Approval of a set -/

/-- hand a finished set in -/
structure SendToApproval where
  goalSetId : Id
deriving DecidableEq, Repr

namespace SendToApproval

def task (c : SendToApproval) (p : RetryPolicy) : Task GoalSetResult :=
  recorded .sendGoalSetToApproval
    (moveSet p c.goalSetId GoalSet.sendToApproval .goalSetSubmitted "Goal set is sent to approval")

def fields : List Reader.Field := [Reader.field "goal_set_id" Reader.id]

def read : Reader SendToApproval := Reader.record fields false fun s => do
  let i ← s.required 0 "goal_set_id" Reader.id
  return ⟨i⟩

end SendToApproval

/-- decide on a set that waits -/
structure ReviewGoalSet where
  goalSetId : Id
  userId : Int32
deriving DecidableEq, Repr

namespace ReviewGoalSet

def complaints (c : ReviewGoalSet) : List Complaint := userComplaints c.userId

def approveBody (c : ReviewGoalSet) (p : RetryPolicy) : Task GoalSetResult := do
  Task.unless? (Validation.failure? c.complaints)
  moveSet p c.goalSetId (fun s => s.approve c.userId) (fun i => .goalSetApproved i c.userId) "Goal set is approved"

def approve (c : ReviewGoalSet) (p : RetryPolicy) : Task GoalSetResult := recorded .approveGoalSet (c.approveBody p)

def rejectBody (c : ReviewGoalSet) (p : RetryPolicy) : Task GoalSetResult := do
  Task.unless? (Validation.failure? c.complaints)
  moveSet p c.goalSetId (fun s => s.reject c.userId) (fun i => .goalSetRejected i c.userId) "Goal set is rejected"

def reject (c : ReviewGoalSet) (p : RetryPolicy) : Task GoalSetResult := recorded .rejectGoalSet (c.rejectBody p)

def fields : List Reader.Field := [Reader.field "goal_set_id" Reader.id, Reader.field "user_id" Reader.int32]

def read : Reader ReviewGoalSet := Reader.record fields false fun s => do
  let i ← s.required 0 "goal_set_id" Reader.id
  let u ← s.required 1 "user_id" Reader.int32
  return ⟨i, u⟩

end ReviewGoalSet

end Brigade
