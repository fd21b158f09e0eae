/-
One line of an order: a menu item, how many of it, and the price of one at the time of ordering.

A line made here has a positive quantity and a positive price (`OrderLine.make_eq_ok`). Reading a line from JSON checks
neither.
-/
import Brigade.Decimal.Basic
import Brigade.Json.Read
import Brigade.Order.Status

namespace Brigade

/-- why an order refuses -/
inductive OrderError where
  | blankNumber
  | quantityNotPositive
  | priceNotPositive
  | linesClosedToAdd (s : OrderStatus)
  | linesClosedToRemove (s : OrderStatus)
  | linesClosedToUpdate (s : OrderStatus)
  | noMove (old new : OrderStatus)
  | cannotPrepare (s : OrderStatus)
  | nothingToPrepare
  | cannotMarkReady (s : OrderStatus)
  | cannotServe (s : OrderStatus)
  | alreadyServed
deriving DecidableEq, Repr

def OrderError.message : OrderError → String
  | blankNumber => "Order number cannot be empty"
  | quantityNotPositive => "Quantity must be positive"
  | priceNotPositive => "Price must be positive"
  | linesClosedToAdd s => "Cannot add items to order with status: " ++ s.name
  | linesClosedToRemove s => "Cannot remove items from order with status: " ++ s.name
  | linesClosedToUpdate s => "Cannot update items in order with status: " ++ s.name
  | noMove old new => "Invalid status transition from " ++ old.name ++ " to " ++ new.name
  | cannotPrepare s => "Cannot start preparation for order with status: " ++ s.name
  | nothingToPrepare => "Cannot start preparation for order with no items"
  | cannotMarkReady s => "Cannot mark order as ready with status: " ++ s.name
  | cannotServe s => "Cannot serve order with status: " ++ s.name
  | alreadyServed => "Cannot cancel a served order"

/-- a line of an order -/
structure OrderLine where
  id : Id
  menuItem : Id
  quantity : Int32
  unitPrice : Decimal
  instructions : Option String
deriving DecidableEq, Repr

namespace OrderLine

/-- a line that may go on an order -/
def make (id menuItem : Id) (quantity : Int32) (unitPrice : Decimal) (instructions : Option String) :
    Outcome OrderError OrderLine :=
  if quantity ≤ 0 then .refused .quantityNotPositive
  else if unitPrice.coeff ≤ 0 then .refused .priceNotPositive
  else .ok ⟨id, menuItem, quantity, unitPrice, instructions⟩

theorem make_eq_ok {id menuItem : Id} {q : Int32} {p : Decimal} {s : Option String} {l : OrderLine}
    (h : make id menuItem q p s = .ok l) : 0 < q.toInt ∧ p.Positive ∧ l = ⟨id, menuItem, q, p, s⟩ := by
  unfold make at h
  split at h
  · cases h
  · rename_i hq
    split at h
    · cases h
    · rename_i hp
      refine ⟨?_, by unfold Decimal.Positive; omega, (Outcome.ok.inj h).symm⟩
      rw [Int32.le_iff_toInt_le] at hq
      exact Int.not_le.1 hq

/-- the price of the line -/
def total {ε : Type} (l : OrderLine) : Outcome ε Decimal := l.unitPrice.mul (Decimal.ofInt32 l.quantity)

/-! ## JSON -/

def toJson (l : OrderLine) : Json :=
  .record [("id", .text l.id.text), ("menu_item_id", .text l.menuItem.text), ("quantity", .word l.quantity),
    ("unit_price", .text l.unitPrice.text), ("special_instructions", .option .text l.instructions)]

def fields : List Reader.Field :=
  [Reader.field "id" Reader.id, Reader.field "menu_item_id" Reader.id, Reader.field "quantity" Reader.int32,
    Reader.field "unit_price" Reader.decimal, Reader.field "special_instructions" (Reader.option Reader.string)]

def read : Reader OrderLine := Reader.record fields false fun s => do
  let id ← s.required 0 "id" Reader.id
  let menuItem ← s.required 1 "menu_item_id" Reader.id
  let quantity ← s.required 2 "quantity" Reader.int32
  let unitPrice ← s.required 3 "unit_price" Reader.decimal
  let instructions ← s.optional 4 "special_instructions" Reader.string
  return ⟨id, menuItem, quantity, unitPrice, instructions⟩

end OrderLine

end Brigade
