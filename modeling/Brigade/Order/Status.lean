/-
The statuses of an order and the table of allowed moves.

Forward: pending, confirmed, preparing, ready, served, completed, one step at a time. To cancelled from anywhere but
completed, cancelled included.
-/
import Brigade.Json.Read

namespace Brigade

inductive OrderStatus where
  | pending
  | confirmed
  | preparing
  | ready
  | served
  | completed
  | cancelled
deriving DecidableEq, Repr, Inhabited

namespace OrderStatus

/-- all statuses, in the order of an order's life -/
def all : List OrderStatus := [pending, confirmed, preparing, ready, served, completed, cancelled]

theorem mem_all (s : OrderStatus) : s ∈ all := by cases s <;> decide

def name : OrderStatus → String
  | pending => "Pending"
  | confirmed => "Confirmed"
  | preparing => "Preparing"
  | ready => "Ready"
  | served => "Served"
  | completed => "Completed"
  | cancelled => "Cancelled"

/-- the table of allowed moves -/
def canMoveTo : OrderStatus → OrderStatus → Bool
  | pending, confirmed => true
  | confirmed, preparing => true
  | preparing, ready => true
  | ready, served => true
  | served, completed => true
  | s, cancelled => s != completed
  | _, _ => false

/-- the kitchen still has to work on it -/
def kitchenActive : OrderStatus → Bool
  | pending | confirmed | preparing | ready => true
  | _ => false

def toJson (s : OrderStatus) : Json := .text s.name

def read : Reader OrderStatus := Reader.named (all.map fun s => (s.name, s))

end OrderStatus

end Brigade
