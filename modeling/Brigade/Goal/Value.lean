/-
What a goal measures: its kind, and a range of three points.

A range made by `GoalValue.create` is strictly increasing, and one in per cent lies within 1 to 100
(`GoalValue.Valid`). `create` reports the first condition that fails. A range read from JSON goes through `create`.
-/
import Brigade.Json.Read

namespace Brigade

inductive GoalType where
  | team
  | individual
deriving DecidableEq, Repr, Inhabited

namespace GoalType

def all : List GoalType := [team, individual]

def name : GoalType → String
  | team => "Team"
  | individual => "Individual"

/-- the number under which a kind is known outside -/
def value : GoalType → Nat
  | team => 1
  | individual => 2

def toJson (t : GoalType) : Json := .text t.name

def read : Reader GoalType := Reader.named (all.map fun t => (t.name, t))

end GoalType

inductive GoalValueType where
  | number
  | percentage
deriving DecidableEq, Repr, Inhabited

namespace GoalValueType

def all : List GoalValueType := [number, percentage]

def name : GoalValueType → String
  | number => "Number"
  | percentage => "Percentage"

/-- the number under which a kind is known outside -/
def value : GoalValueType → Nat
  | number => 1
  | percentage => 2

def toJson (t : GoalValueType) : Json := .text t.name

def read : Reader GoalValueType := Reader.named (all.map fun t => (t.name, t))

end GoalValueType

/-- why a range is refused -/
inductive GoalValueError where
  | minNotBelowMid
  | midNotBelowMax
  | outsidePercentage
deriving DecidableEq, Repr

def GoalValueError.message : GoalValueError → String
  | .minNotBelowMid => "Min value must be less than mid value"
  | .midNotBelowMax => "Mid value must be less than max value"
  | .outsidePercentage => "Values must be between 1 and 100 for percentage goal type"

/-- a range of three points -/
structure GoalValue where
  min : Int32
  mid : Int32
  max : Int32
  type : GoalValueType
deriving DecidableEq, Repr

namespace GoalValue

/-- what every range that is made satisfies -/
def Valid (v : GoalValue) : Prop :=
  v.min < v.mid ∧ v.mid < v.max ∧ (v.type = .percentage → 1 ≤ v.min ∧ v.max ≤ 100)

instance (v : GoalValue) : Decidable v.Valid := inferInstanceAs (Decidable (_ ∧ _))

/-- the range of these points, or the first condition that fails -/
def create (min mid max : Int32) (type : GoalValueType) : Outcome GoalValueError GoalValue :=
  if min ≥ mid then .refused .minNotBelowMid
  else if mid ≥ max then .refused .midNotBelowMax
  else if type = .percentage ∧ (min < 1 ∨ max > 100) then .refused .outsidePercentage
  else .ok ⟨min, mid, max, type⟩

/-- the same points under another type, checked again -/
def withType (v : GoalValue) (type : GoalValueType) : Outcome GoalValueError GoalValue :=
  create v.min v.mid v.max type

/-! ## JSON -/

def toJson (v : GoalValue) : Json :=
  .record [("min_value", .word v.min), ("mid_value", .word v.mid), ("max_value", .word v.max),
    ("value_type", v.type.toJson)]

def fields : List Reader.Field :=
  [Reader.field "min_value" Reader.int32, Reader.field "mid_value" Reader.int32,
    Reader.field "max_value" Reader.int32, Reader.field "value_type" GoalValueType.read]

/-- a range as it is stated, with no conditions -/
def stated : Reader GoalValue := Reader.record fields false fun s => do
  let min ← s.required 0 "min_value" Reader.int32
  let mid ← s.required 1 "mid_value" Reader.int32
  let max ← s.required 2 "max_value" Reader.int32
  let type ← s.required 3 "value_type" GoalValueType.read
  return ⟨min, mid, max, type⟩

def read : Reader GoalValue := fun j => do
  let v ← stated j
  Reader.ofOutcome GoalValueError.message (create v.min v.mid v.max v.type)

end GoalValue

end Brigade
