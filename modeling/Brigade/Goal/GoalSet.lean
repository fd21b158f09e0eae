/-
Goal sets: the goals of one user in one period of a team.

A new set has no status. Sent to approval it waits, and is then approved, or returned and editable again. Definitions
of goals change only while the set is editable; progress changes at any time. A set is sent only if every goal has
approved progress and the weights add up to exactly 100.

Sums of weights are exact 32-bit sums: one that leaves the word is a fault.
-/
import Brigade.Operation
import Brigade.Goal.Basic

namespace Brigade

/-- the status of a set that has been sent to approval at least once -/
inductive GoalSetStatus where
  /-- rejected, and editable again -/
  | returned
  | waitingForApproval
  | approved
deriving DecidableEq, Repr, Inhabited

namespace GoalSetStatus

def all : List GoalSetStatus := [returned, waitingForApproval, approved]

def name : GoalSetStatus → String
  | returned => "None"
  | waitingForApproval => "WaitingForApproval"
  | approved => "Approved"

def toJson (s : GoalSetStatus) : Json := .text s.name

def read : Reader GoalSetStatus := Reader.named (all.map fun s => (s.name, s))

end GoalSetStatus

/-- why a goal set refuses; a label names its status -/
inductive GoalSetError where
  | teamNotPositive
  | userNotPositive
  | closedToAdd (label : String)
  | closedToUpdate (label : String)
  | goalNotFound
  | weightTooLarge (total : Int32)
  | badRange (e : GoalValueError)
  | noProgress
  | progressNotApproved
  | weightNotHundred (total : Int32)
  | cannotApprove (label : String)
  | cannotReject (label : String)
deriving DecidableEq, Repr

def GoalSetError.message : GoalSetError → String
  | teamNotPositive => "Team id must be positive"
  | userNotPositive => "User id must be positive"
  | closedToAdd l => "Cannot add goals to a goal set with status: " ++ l
  | closedToUpdate l => "Cannot update goal in a goal set with status: " ++ l
  | goalNotFound => "Goal not found"
  | weightTooLarge t => "Total percentage of goals cannot exceed 100 (would be " ++ toString t.toInt ++ ")"
  | badRange e => e.message
  | noProgress => "No progress record found for this goal"
  | progressNotApproved => "Cannot send goal set to approval until every goal has approved progress"
  | weightNotHundred t => "The sum of all goal percentages must be 100, but is " ++ toString t.toInt
  | cannotApprove l => "Cannot approve goal set with status: " ++ l
  | cannotReject l => "Cannot reject goal set with status: " ++ l

structure GoalSet where
  id : Id
  teamId : Int32
  periodId : Id
  userId : Int32
  status : Option GoalSetStatus
  goals : List Goal
  version : Int32
deriving DecidableEq, Repr

namespace GoalSet

def problems (teamId userId : Int32) : List GoalSetError :=
  (if teamId ≤ 0 then [.teamNotPositive] else []) ++ (if userId ≤ 0 then [.userNotPositive] else [])

/-- a new set without goals; all problems are reported together -/
def create (id : Id) (teamId : Int32) (periodId : Id) (userId : Int32) : Outcome (List GoalSetError) GoalSet :=
  match problems teamId userId with
  | [] => .ok ⟨id, teamId, periodId, userId, none, [], 1⟩
  | es => .refused es

/-! ## Views -/

/-- the first goal with an identity -/
def goal? (s : GoalSet) (goalId : Id) : Option Goal := s.goals.find? (·.id == goalId)

/-- the sum of all weights, from the left -/
def totalPercentage {ε : Type} (s : GoalSet) : Outcome ε Int32 := Word.sumExact (s.goals.map (·.percentage))

def isEditable (s : GoalSet) : Bool :=
  match s.status with
  | some .waitingForApproval | some .approved => false
  | _ => true

def isWaitingForApproval (s : GoalSet) : Bool := s.status == some .waitingForApproval

/-- how messages name the status -/
def label (s : GoalSet) : String :=
  match s.status with
  | some st => st.name
  | none => "New"

/-! ## Operations -/

/-- the set with its first goal of an identity changed -/
def changeGoal (s : GoalSet) (goalId : Id) (f : Goal → Goal) : GoalSet :=
  { s with goals := updateFirst (·.id == goalId) f s.goals }

def addGoal (s : GoalSet) (goalId : Id) (title : String) (type : GoalType) (value : GoalValue) (percentage : Int32) :
    Outcome GoalSetError GoalSet :=
  if !s.isEditable then .refused (.closedToAdd s.label)
  else .ok { s with goals := s.goals ++ [⟨goalId, title, type, value, percentage, none⟩] }

/-- a new definition of a goal; its range is kept and checked under the new type, its progress is kept -/
def updateGoal (s : GoalSet) (goalId : Id) (title : String) (type : GoalType) (valueType : GoalValueType)
    (percentage : Int32) : Outcome GoalSetError GoalSet :=
  if !s.isEditable then .refused (.closedToUpdate s.label)
  else match s.goal? goalId with
    | none => .refused .goalNotFound
    | some g => do
      let total ← s.totalPercentage
      let others ← Word.subExact total g.percentage
      let newTotal ← Word.addExact others percentage
      if newTotal > 100 then .refused (.weightTooLarge newTotal)
      else
        let value ← (g.value.withType valueType).mapRefusal .badRange
        return s.changeGoal goalId fun g => { g with title := title, type := type, value := value, percentage := percentage }

/-- a fresh record in place of any earlier one -/
def submitProgress (s : GoalSet) (goalId : Id) (actual : Int32) (comment : Option String) :
    Outcome GoalSetError GoalSet :=
  match s.goal? goalId with
  | none => .refused .goalNotFound
  | some _ => .ok (s.changeGoal goalId fun g => { g with progress := some (.submitted actual comment) })

/-- decide on a record, whatever was decided before -/
def reviewProgress (s : GoalSet) (goalId : Id) (decision : ProgressStatus) : Outcome GoalSetError GoalSet :=
  match s.goal? goalId with
  | none => .refused .goalNotFound
  | some g =>
    match g.progress with
    | none => .refused .noProgress
    | some _ =>
      .ok (s.changeGoal goalId fun g => { g with progress := g.progress.map fun p => { p with status := decision } })

def approveProgress (s : GoalSet) (goalId : Id) : Outcome GoalSetError GoalSet := s.reviewProgress goalId .approved

def rejectProgress (s : GoalSet) (goalId : Id) : Outcome GoalSetError GoalSet := s.reviewProgress goalId .rejected

/-- allowed in every status -/
def sendToApproval (s : GoalSet) : Outcome GoalSetError GoalSet :=
  if !s.goals.all Goal.hasApprovedProgress then .refused .progressNotApproved
  else do
    let total ← s.totalPercentage
    if total ≠ 100 then .refused (.weightNotHundred total)
    else .ok { s with status := some .waitingForApproval }

/-- the set does not keep who approved it -/
def approve (s : GoalSet) (_userId : Int32) : Outcome GoalSetError GoalSet :=
  if !s.isWaitingForApproval then .refused (.cannotApprove s.label) else .ok { s with status := some .approved }

def reject (s : GoalSet) (_userId : Int32) : Outcome GoalSetError GoalSet :=
  if !s.isWaitingForApproval then .refused (.cannotReject s.label) else .ok { s with status := some .returned }

/-! ## Runs -/

/-- everything that can be asked of a goal set -/
inductive Op where
  | addGoal (goalId : Id) (title : String) (type : GoalType) (value : GoalValue) (percentage : Int32)
  | updateGoal (goalId : Id) (title : String) (type : GoalType) (valueType : GoalValueType) (percentage : Int32)
  | submitProgress (goalId : Id) (actual : Int32) (comment : Option String)
  | approveProgress (goalId : Id)
  | rejectProgress (goalId : Id)
  | sendToApproval
  | approve (userId : Int32)
  | reject (userId : Int32)
deriving DecidableEq, Repr

def apply (s : GoalSet) : Op → Outcome GoalSetError GoalSet
  | .addGoal i t k v p => s.addGoal i t k v p
  | .updateGoal i t k v p => s.updateGoal i t k v p
  | .submitProgress i a c => s.submitProgress i a c
  | .approveProgress i => s.approveProgress i
  | .rejectProgress i => s.rejectProgress i
  | .sendToApproval => s.sendToApproval
  | .approve u => s.approve u
  | .reject u => s.reject u

/-- one operation; refused, it changes nothing -/
def step (s : GoalSet) (op : Op) : Except Fault GoalSet := (s.apply op).settle s

def run (s : GoalSet) (ops : List Op) : Except Fault GoalSet := ops.foldlM step s

/-! ## JSON -/

def toJson (s : GoalSet) : Json :=
  .record [("id", .text s.id.text), ("team_id", .word s.teamId), ("period_id", .text s.periodId.text),
    ("user_id", .word s.userId), ("status", .option GoalSetStatus.toJson s.status),
    ("goals", .arr (s.goals.map Goal.toJson)), ("version", .word s.version)]

def fieldsWith (goal : Reader Goal) : List Reader.Field :=
  [Reader.field "id" Reader.id, Reader.field "team_id" Reader.int32, Reader.field "period_id" Reader.id,
    Reader.field "user_id" Reader.int32, Reader.field "status" (Reader.option GoalSetStatus.read),
    Reader.field "goals" (Reader.list goal), Reader.field "version" Reader.int32]

/-- a goal set, its goals read in a given way -/
def readWith (goal : Reader Goal) : Reader GoalSet := Reader.record (fieldsWith goal) false fun s => do
  let id ← s.required 0 "id" Reader.id
  let teamId ← s.required 1 "team_id" Reader.int32
  let periodId ← s.required 2 "period_id" Reader.id
  let userId ← s.required 3 "user_id" Reader.int32
  let status ← s.optional 4 "status" GoalSetStatus.read
  let goals ← s.required 5 "goals" (Reader.list goal)
  let version ← s.required 6 "version" Reader.int32
  return ⟨id, teamId, periodId, userId, status, goals, version⟩

def read : Reader GoalSet := readWith Goal.read

end GoalSet

end Brigade
