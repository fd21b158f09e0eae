/-
Goals and their progress.

A goal has a title, a range and a weight in per cent. Its progress is missing at first; a submitted record waits for
approval and is then approved or rejected.
-/
import Brigade.Goal.Value

namespace Brigade

inductive ProgressStatus where
  | waitingForApproval
  | approved
  | rejected
deriving DecidableEq, Repr, Inhabited

namespace ProgressStatus

def all : List ProgressStatus := [waitingForApproval, approved, rejected]

def name : ProgressStatus → String
  | waitingForApproval => "WaitingForApproval"
  | approved => "Approved"
  | rejected => "Rejected"

def toJson (s : ProgressStatus) : Json := .text s.name

def read : Reader ProgressStatus := Reader.named (all.map fun s => (s.name, s))

end ProgressStatus

/-- what has been reached, and what was decided about it -/
structure GoalProgress where
  actual : Int32
  comment : Option String
  status : ProgressStatus
deriving DecidableEq, Repr

namespace GoalProgress

def submitted (actual : Int32) (comment : Option String) : GoalProgress := ⟨actual, comment, .waitingForApproval⟩

def isApproved (p : GoalProgress) : Bool := p.status == .approved

def toJson (p : GoalProgress) : Json :=
  .record [("actual_value", .word p.actual), ("comment", .option .text p.comment), ("status", p.status.toJson)]

def fields : List Reader.Field :=
  [Reader.field "actual_value" Reader.int32, Reader.field "comment" (Reader.option Reader.string),
    Reader.field "status" ProgressStatus.read]

def read : Reader GoalProgress := Reader.record fields false fun s => do
  let actual ← s.required 0 "actual_value" Reader.int32
  let comment ← s.optional 1 "comment" Reader.string
  let status ← s.required 2 "status" ProgressStatus.read
  return ⟨actual, comment, status⟩

end GoalProgress

structure Goal where
  id : Id
  title : String
  type : GoalType
  value : GoalValue
  percentage : Int32
  progress : Option GoalProgress
deriving DecidableEq, Repr

namespace Goal

def hasApprovedProgress (g : Goal) : Bool := g.progress.any GoalProgress.isApproved

/-- its progress still needs a decision -/
def isWaiting (g : Goal) : Bool := g.progress.any (·.status == .waitingForApproval)

def toJson (g : Goal) : Json :=
  .record [("id", .text g.id.text), ("title", .text g.title), ("goal_type", g.type.toJson),
    ("goal_value", g.value.toJson), ("percentage", .word g.percentage),
    ("progress", .option GoalProgress.toJson g.progress)]

def fieldsWith (range : Reader GoalValue) : List Reader.Field :=
  [Reader.field "id" Reader.id, Reader.field "title" Reader.string, Reader.field "goal_type" GoalType.read,
    Reader.field "goal_value" range, Reader.field "percentage" Reader.int32,
    Reader.field "progress" (Reader.option GoalProgress.read)]

/-- a goal, its range read in a given way -/
def readWith (range : Reader GoalValue) : Reader Goal := Reader.record (fieldsWith range) false fun s => do
  let id ← s.required 0 "id" Reader.id
  let title ← s.required 1 "title" Reader.string
  let type ← s.required 2 "goal_type" GoalType.read
  let value ← s.required 3 "goal_value" range
  let percentage ← s.required 4 "percentage" Reader.int32
  let progress ← s.optional 5 "progress" GoalProgress.read
  return ⟨id, title, type, value, percentage, progress⟩

def read : Reader Goal := readWith GoalValue.read

end Goal

end Brigade
