/-
Goal periods: the years for which a team sets goals.
-/
import Brigade.Json.Read

namespace Brigade

inductive GoalPeriodError where
  | teamNotPositive
  | yearOutOfRange
deriving DecidableEq, Repr

def GoalPeriodError.message : GoalPeriodError → String
  | .teamNotPositive => "Team id must be positive"
  | .yearOutOfRange => "Year must be between 2000 and 2100"

structure GoalPeriod where
  id : Id
  teamId : Int32
  year : Int32
  version : Int32
deriving DecidableEq, Repr

namespace GoalPeriod

def minYear : Int32 := 2000
def maxYear : Int32 := 2100

def problems (teamId year : Int32) : List GoalPeriodError :=
  (if teamId ≤ 0 then [.teamNotPositive] else []) ++
    (if minYear ≤ year ∧ year ≤ maxYear then [] else [.yearOutOfRange])

/-- a new period; all problems are reported together -/
def create (id : Id) (teamId year : Int32) : Outcome (List GoalPeriodError) GoalPeriod :=
  match problems teamId year with
  | [] => .ok ⟨id, teamId, year, 1⟩
  | es => .refused es

/-- the period of this team and year -/
def isFor (p : GoalPeriod) (teamId year : Int32) : Bool := p.teamId == teamId && p.year == year

def toJson (p : GoalPeriod) : Json :=
  .record [("id", .text p.id.text), ("team_id", .word p.teamId), ("year", .word p.year), ("version", .word p.version)]

def fields : List Reader.Field :=
  [Reader.field "id" Reader.id, Reader.field "team_id" Reader.int32, Reader.field "year" Reader.int32,
    Reader.field "version" Reader.int32]

def read : Reader GoalPeriod := Reader.record fields false fun s => do
  let id ← s.required 0 "id" Reader.id
  let teamId ← s.required 1 "team_id" Reader.int32
  let year ← s.required 2 "year" Reader.int32
  let version ← s.required 3 "version" Reader.int32
  return ⟨id, teamId, year, version⟩

end GoalPeriod

end Brigade
