/-
Commands on orders.

Each command checks its input, loads what it needs, changes one order, writes it and announces the change. Nothing is
written before every check has passed, and nothing is announced before it is written.
-/
import Brigade.Plan
import Brigade.Validation

namespace Brigade

/-- what stays the same from command to command -/
structure LineResult where
  orderId : Id
  lineCount : Nat
  total : Decimal
  version : Int32
deriving DecidableEq, Repr

namespace LineResult

def ofOrder (o : Order) : LineResult := ⟨o.id, o.lines.length, o.total, o.version⟩

def toJson (r : LineResult) : Json :=
  .record [("order_id", .text r.orderId.text), ("item_count", .nat r.lineCount), ("total", .text r.total.text),
    ("version", .word r.version)]

end LineResult

namespace OrderCommand

def refusal (e : OrderError) : Refusal := .one e.message

/-- the stored order -/
def load (i : Id) : Task Order := do
  let o ← Task.get .order i
  Task.orFail (.notFound ("Order " ++ i.text ++ " not found")) o

def announceLines (o : Order) : Task Unit :=
  Task.publish (.orderItemsChanged o.id) ("Failed to send event for order items: " ++ ·)

/-- the failure that names menu items which cannot be ordered -/
def unavailable (ids : List Id) : Failure :=
  .invalidOperation ("The following menu items are not available: " ++ ", ".intercalate (ids.map Id.text))

/-- count one metric for a value, another for a failure -/
def outcomeMetrics {α : Type} (good bad : Metric) : Ending α → List Metric
  | .value _ => [good]
  | .failure _ => [bad]
  | _ => []

/-- one metric for a failure, none else -/
def failureMetric {α : Type} (bad : Failure → Metric) : Ending α → List Metric
  | .failure f => [bad f]
  | _ => []

end OrderCommand

open OrderCommand

/-! ## Placing an order -/

/-- a line that is asked for -/
structure LineRequest where
  menuItem : Id
  quantity : Int32
  instructions : Option String
deriving DecidableEq, Repr

namespace LineRequest

def complaints (l : LineRequest) : List Complaint :=
  Validation.check (1 ≤ l.quantity) "quantity" (some "Quantity must be greater than 0") ++
    Validation.check (l.instructions.all (·.length ≤ 250)) "special_instructions"
      (some "Special instructions cannot exceed 250 characters")

def fields : List Reader.Field :=
  [Reader.field "menu_item_id" Reader.id, Reader.field "quantity" Reader.int32,
    Reader.field "special_instructions" (Reader.option Reader.string)]

def read : Reader LineRequest := Reader.record fields false fun s => do
  let m ← s.required 0 "menu_item_id" Reader.id
  let q ← s.required 1 "quantity" Reader.int32
  let t ← s.optional 2 "special_instructions" Reader.string
  return ⟨m, q, t⟩

end LineRequest

/-- place an order at a free table, at the menu's prices -/
structure CreateOrder where
  tableId : Id
  lines : List LineRequest
  notes : Option String
deriving DecidableEq, Repr

structure CreateOrderResult where
  id : Id
  number : String
  tableId : Id
  date : Timestamp
  status : OrderStatus
  total : Decimal
  version : Int32
deriving DecidableEq, Repr

def CreateOrderResult.toJson (r : CreateOrderResult) : Json :=
  .record [("id", .text r.id.text), ("order_number", .text r.number), ("table_id", .text r.tableId.text),
    ("order_date", .text r.date.text), ("status", r.status.toJson), ("total", .text r.total.text),
    ("version", .word r.version)]

namespace CreateOrder

def complaints (c : CreateOrder) : List Complaint :=
  Validation.check (!c.lines.isEmpty) "items" (some "At least one order item is required") ++
    Validation.check (c.notes.all (·.length ≤ 500)) "notes" (some "Notes cannot exceed 500 characters")

/-- the messages about the order itself, then those about each line -/
def messages (c : CreateOrder) : List String :=
  (Validation.failure? c.complaints).toList.flatMap Failure.messages ++
    c.lines.flatMap fun l => (Validation.failure? l.complaints).toList.flatMap Failure.messages

def problem? (c : CreateOrder) : Option Failure :=
  if c.messages.isEmpty then none else some (.validation ("; ".intercalate c.messages))

/-- look up every line's menu item: those that can be ordered, and the identities of the others -/
def lookUp : List LineRequest → Task (List MenuItem × List Id)
  | [] => pure ([], [])
  | l :: ls => do
    let m ← Task.get .menuItem l.menuItem
    let (found, missing) ← lookUp ls
    match m with
    | some m => return if m.available then (m :: found, missing) else (found, l.menuItem :: missing)
    | none => return (found, l.menuItem :: missing)

/-- add the lines at the menu's prices, each with a fresh identity -/
def addLines (o : Order) : List (LineRequest × MenuItem) → Task Order
  | [] => pure o
  | (l, m) :: rest => do
    let i ← Task.freshId
    let o ← Task.ofOutcome refusal (o.addLine i m.id l.quantity m.price l.instructions)
    addLines o rest

/-- check the table and the menu items, and store the order -/
def store (c : CreateOrder) (numberFront : String) : Task Order := do
  let table ← Task.get .table c.tableId
  let table ← Task.orFail (.notFound ("Table " ++ c.tableId.text ++ " not found")) table
  if !table.isAvailable then
    Task.fail (.invalidOperation ("Table " ++ toString table.number.toInt ++ " is not available for orders"))
  else
    let (found, missing) ← lookUp c.lines
    if !missing.isEmpty then Task.fail (unavailable missing)
    else
      let now ← Task.clock
      let i ← Task.freshId
      let date ← Task.clock
      let o ← Task.ofOutcome refusal (Order.create i (Order.numberAt numberFront now) c.tableId date c.notes)
      let o ← addLines o (c.lines.zip found)
      Task.add .order o

def task (c : CreateOrder) (numberFront : String) : Task CreateOrderResult := do
  Task.counted (failureMetric fun f => .orderCreationFailures f.kind) (Task.unless? c.problem?)
  let o ← Task.counted (failureMetric fun f => .orderCreationFailures f.kind) (c.store numberFront)
  Task.counted (failureMetric fun f => .orderCreationFailures f.kind)
    (Task.publish (.orderCreated o.id) ("Failed to send event for created order: " ++ ·))
  Task.count .orderCreations
  return ⟨o.id, o.number, o.tableId, o.date, o.status, o.total, o.version⟩

def fields : List Reader.Field :=
  [Reader.field "table_id" Reader.id, Reader.field "items" (Reader.list LineRequest.read),
    Reader.field "notes" (Reader.option Reader.string)]

def read : Reader CreateOrder := Reader.record fields false fun s => do
  let t ← s.required 0 "table_id" Reader.id
  let ls ← s.required 1 "items" (Reader.list LineRequest.read)
  let n ← s.optional 2 "notes" Reader.string
  return ⟨t, ls, n⟩

end CreateOrder

/-! ## Changing the lines -/

/-- add a line at the menu's price -/
structure AddItem where
  orderId : Id
  menuItem : Id
  quantity : Int32
  instructions : Option String
deriving DecidableEq, Repr

structure AddItemResult where
  id : Id
  orderId : Id
  menuItem : Id
  quantity : Int32
  unitPrice : Decimal
  orderTotal : Decimal
deriving DecidableEq, Repr

def AddItemResult.toJson (r : AddItemResult) : Json :=
  .record [("id", .text r.id.text), ("order_id", .text r.orderId.text), ("menu_item_id", .text r.menuItem.text),
    ("quantity", .word r.quantity), ("unit_price", .text r.unitPrice.text), ("order_total", .text r.orderTotal.text)]

namespace AddItem

def complaints (c : AddItem) : List Complaint :=
  Validation.check (1 ≤ c.quantity) "quantity" (some "Quantity must be at least 1") ++
    Validation.check (c.instructions.all (·.length ≤ 250)) "special_instructions"
      (some "Special instructions cannot exceed 250 characters")

def body (c : AddItem) : Task AddItemResult := do
  Task.unless? (Validation.failure? c.complaints)
  let m ← Task.get .menuItem c.menuItem
  let m ← Task.orFail (unavailable [c.menuItem]) (m.filter MenuItem.available)
  let o ← load c.orderId
  let i ← Task.freshId
  let o ← Task.ofOutcome refusal (o.addLine i m.id c.quantity m.price c.instructions)
  let o ← Task.update .order o
  announceLines o
  return ⟨i, o.id, m.id, c.quantity, m.price, o.total⟩

def task (c : AddItem) : Task AddItemResult :=
  Task.counted (outcomeMetrics .orderItemsAdded .orderItemAddFailures) c.body

def fields : List Reader.Field :=
  [Reader.field "order_id" Reader.id, Reader.field "menu_item_id" Reader.id, Reader.field "quantity" Reader.int32,
    Reader.field "special_instructions" (Reader.option Reader.string)]

def read : Reader AddItem := Reader.record fields false fun s => do
  let o ← s.required 0 "order_id" Reader.id
  let m ← s.required 1 "menu_item_id" Reader.id
  let q ← s.required 2 "quantity" Reader.int32
  let t ← s.optional 3 "special_instructions" Reader.string
  return ⟨o, m, q, t⟩

end AddItem

/-- take a line off an order; one that is not on it is already off -/
structure RemoveItem where
  orderId : Id
  itemId : Id
deriving DecidableEq, Repr

namespace RemoveItem

def task (c : RemoveItem) : Task LineResult := do
  let o ← load c.orderId
  let o ← Task.ofOutcome refusal (o.removeLine c.itemId)
  let o ← Task.update .order o
  announceLines o
  return .ofOrder o

def fields : List Reader.Field := [Reader.field "order_id" Reader.id, Reader.field "item_id" Reader.id]

def read : Reader RemoveItem := Reader.record fields false fun s => do
  let o ← s.required 0 "order_id" Reader.id
  let i ← s.required 1 "item_id" Reader.id
  return ⟨o, i⟩

end RemoveItem

/-- change how many of a line are wanted -/
structure SetItemQuantity where
  orderId : Id
  itemId : Id
  quantity : Int32
deriving DecidableEq, Repr

namespace SetItemQuantity

def complaints (c : SetItemQuantity) : List Complaint :=
  Validation.check (1 ≤ c.quantity) "quantity" (some "Quantity must be positive")

def task (c : SetItemQuantity) : Task LineResult := do
  Task.unless? (Validation.failure? c.complaints)
  let o ← load c.orderId
  let o ← Task.ofOutcome refusal (o.setQuantity c.itemId c.quantity)
  let o ← Task.update .order o
  announceLines o
  return .ofOrder o

def fields : List Reader.Field :=
  [Reader.field "order_id" Reader.id, Reader.field "item_id" Reader.id, Reader.field "quantity" Reader.int32]

def read : Reader SetItemQuantity := Reader.record fields false fun s => do
  let o ← s.required 0 "order_id" Reader.id
  let i ← s.required 1 "item_id" Reader.id
  let q ← s.required 2 "quantity" Reader.int32
  return ⟨o, i, q⟩

end SetItemQuantity

/-! ## Moving the status -/

/-- move an order along the table of moves, if its version is still the expected one -/
structure MoveOrder where
  orderId : Id
  status : OrderStatus
  version : Option Int32
deriving DecidableEq, Repr

structure MoveOrderResult where
  id : Id
  oldStatus : OrderStatus
  status : OrderStatus
  version : Int32
deriving DecidableEq, Repr

def MoveOrderResult.toJson (r : MoveOrderResult) : Json :=
  .record [("id", .text r.id.text), ("old_status", r.oldStatus.toJson), ("status", r.status.toJson),
    ("version", .word r.version)]

namespace MoveOrder

/-- the status before, and the order that is stored -/
def store (c : MoveOrder) : Task (OrderStatus × Order) := do
  let o ← load c.orderId
  if c.version.all (· == o.version) then
    let moved ← Task.ofOutcome refusal (o.moveTo c.status)
    let stored ← Task.update .order moved
    return (o.status, stored)
  else Task.fail (.staleWrite c.orderId)

def task (c : MoveOrder) : Task MoveOrderResult := do
  let (old, o) ← Task.counted (failureMetric fun _ => .orderStatusUpdateFailures) c.store
  Task.counted (failureMetric fun _ => .orderStatusUpdateFailures)
    (Task.publish (.orderStatusChanged c.orderId old.name o.status.name)
      ("Failed to send event for updated order: " ++ ·))
  Task.count .orderStatusUpdates
  return ⟨o.id, old, o.status, o.version⟩

def fields : List Reader.Field :=
  [Reader.field "order_id" Reader.id, Reader.field "new_status" OrderStatus.read,
    Reader.field "version" (Reader.option Reader.int32)]

def read : Reader MoveOrder := Reader.record fields false fun s => do
  let o ← s.required 0 "order_id" Reader.id
  let n ← s.required 1 "new_status" OrderStatus.read
  let v ← s.optional 2 "version" Reader.int32
  return ⟨o, n, v⟩

end MoveOrder

/-- drive an order through the kitchen, one verb for each target -/
structure AdvanceOrder where
  orderId : Id
  target : OrderStatus
deriving DecidableEq, Repr

structure AdvanceOrderResult where
  id : Id
  status : OrderStatus
  version : Int32
deriving DecidableEq, Repr

def AdvanceOrderResult.toJson (r : AdvanceOrderResult) : Json :=
  .record [("id", .text r.id.text), ("status", r.status.toJson), ("version", .word r.version)]

namespace AdvanceOrder

/-- the verb of the target; some targets have none -/
def apply (c : AdvanceOrder) (o : Order) : Task Order :=
  match c.target with
  | .preparing => Task.ofOutcome refusal o.startPreparation
  | .ready => Task.ofOutcome refusal o.markReady
  | .served => Task.ofOutcome refusal o.serve
  | .cancelled => Task.ofOutcome refusal o.cancel
  | s => Task.fail (.invalidOperation ("Cannot update order to status: " ++ s.name))

def task (c : AdvanceOrder) : Task AdvanceOrderResult := do
  let o ← load c.orderId
  let advanced ← c.apply o
  let stored ← Task.update .order advanced
  Task.publish (.orderStatusChanged stored.id o.status.name stored.status.name) id
  Task.count (.orderAdvances c.target)
  return ⟨stored.id, stored.status, stored.version⟩

def fields : List Reader.Field := [Reader.field "order_id" Reader.id, Reader.field "target" OrderStatus.read]

def read : Reader AdvanceOrder := Reader.record fields false fun s => do
  let o ← s.required 0 "order_id" Reader.id
  let t ← s.required 1 "target" OrderStatus.read
  return ⟨o, t⟩

end AdvanceOrder

end Brigade
