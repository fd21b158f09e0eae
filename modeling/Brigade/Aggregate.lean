/-
Aggregates: what is stored, loaded and versioned as one.

A natural key names what may exist only once: the period of a team and year, and the goal set of a user in a period.
Equal keys are equal texts (`NaturalKey.text`), and the repository compares the keys themselves.
-/
import Brigade.Goal.GoalSet
import Brigade.Goal.Period
import Brigade.MenuItem
import Brigade.Order.Basic
import Brigade.Table

namespace Brigade

/-- what may be stored only once -/
inductive NaturalKey where
  | period (teamId year : Int32)
  | goalSet (teamId : Int32) (periodId : Id) (userId : Int32)
deriving DecidableEq, Repr

/-- the key as messages show it -/
def NaturalKey.text : NaturalKey → String
  | period t y => "team " ++ toString t.toInt ++ " year " ++ toString y.toInt
  | goalSet t p u => "team " ++ toString t.toInt ++ " period " ++ p.text ++ " user " ++ toString u.toInt

/-- a type of aggregates -/
class Aggregate (α : Type) where
  /-- how messages call one -/
  name : String
  id : α → Id
  version : α → Int32
  withVersion : α → Int32 → α
  key : α → Option NaturalKey

instance : Aggregate Order where
  name := "Order"
  id := Order.id
  version := Order.version
  withVersion o v := { o with version := v }
  key _ := none

instance : Aggregate Table where
  name := "Table"
  id := Table.id
  version := Table.version
  withVersion t v := { t with version := v }
  key _ := none

instance : Aggregate MenuItem where
  name := "Menu item"
  id := MenuItem.id
  version := MenuItem.version
  withVersion m v := { m with version := v }
  key _ := none

instance : Aggregate GoalPeriod where
  name := "Goal period"
  id := GoalPeriod.id
  version := GoalPeriod.version
  withVersion p v := { p with version := v }
  key p := some (.period p.teamId p.year)

instance : Aggregate GoalSet where
  name := "Goal set"
  id := GoalSet.id
  version := GoalSet.version
  withVersion s v := { s with version := v }
  key s := some (.goalSet s.teamId s.periodId s.userId)

/-! ## Kinds -/

/-- the five kinds of aggregates -/
inductive Kind where
  | order
  | table
  | menuItem
  | goalPeriod
  | goalSet
deriving DecidableEq, Repr, Inhabited

/-- the aggregates of a kind -/
@[reducible] def Kind.Member : Kind → Type
  | order => Order
  | table => Table
  | menuItem => MenuItem
  | goalPeriod => GoalPeriod
  | goalSet => GoalSet

instance (k : Kind) : Aggregate k.Member :=
  match k with
  | .order => inferInstanceAs (Aggregate Order)
  | .table => inferInstanceAs (Aggregate Table)
  | .menuItem => inferInstanceAs (Aggregate MenuItem)
  | .goalPeriod => inferInstanceAs (Aggregate GoalPeriod)
  | .goalSet => inferInstanceAs (Aggregate GoalSet)

instance (k : Kind) : DecidableEq k.Member :=
  match k with
  | .order => inferInstanceAs (DecidableEq Order)
  | .table => inferInstanceAs (DecidableEq Table)
  | .menuItem => inferInstanceAs (DecidableEq MenuItem)
  | .goalPeriod => inferInstanceAs (DecidableEq GoalPeriod)
  | .goalSet => inferInstanceAs (DecidableEq GoalSet)

def Kind.toJson : (k : Kind) → k.Member → Json
  | order => Order.toJson
  | table => Table.toJson
  | menuItem => MenuItem.toJson
  | goalPeriod => GoalPeriod.toJson
  | goalSet => GoalSet.toJson

def Kind.read : (k : Kind) → Reader k.Member
  | order => Order.read
  | table => Table.read
  | menuItem => MenuItem.read
  | goalPeriod => GoalPeriod.read
  | goalSet => GoalSet.read

end Brigade
