/-
Orders.

An order is `pending` when it is placed and its lines change only then. The stored total is recomputed after every
change of the lines (`setLines`), and only then. Two sets of verbs move the status: `moveTo` follows the table of
`OrderStatus.canMoveTo`, while `startPreparation`, `markReady`, `serve` and `cancel` each look at one status.

`Order.Op` names every operation, `step` applies one, and `run` applies a list; a refused operation leaves the order as
it was.
-/
import Brigade.Operation
import Brigade.Order.Line
import Brigade.Text.Basic

namespace Brigade

structure Order where
  id : Id
  number : String
  tableId : Id
  date : Timestamp
  status : OrderStatus
  lines : List OrderLine
  total : Decimal
  notes : Option String
  version : Int32
deriving DecidableEq, Repr

namespace Order

/-! ## Total -/

/-- add the prices of lines to a sum, from the left -/
def addLines {ε : Type} (acc : Decimal) : List OrderLine → Outcome ε Decimal
  | [] => .ok acc
  | l :: ls => do
    let price ← l.total
    let acc ← acc.add price
    addLines acc ls

/-- the sum of all lines -/
def totalOf {ε : Type} (ls : List OrderLine) : Outcome ε Decimal := addLines Decimal.zero ls

/-- the order with other lines and their total -/
def setLines {ε : Type} (o : Order) (ls : List OrderLine) : Outcome ε Order := do
  let total ← totalOf ls
  return { o with lines := ls, total := total }

/-! ## Operations -/

/-- an order number: the given text, a hyphen, and the time to the second -/
def numberAt (front : String) (now : Timestamp) : String := front ++ "-" ++ now.stamp

/-- a new order without lines -/
def create (id : Id) (number : String) (tableId : Id) (date : Timestamp) (notes : Option String) :
    Outcome OrderError Order :=
  if Text.allBlank number then .refused .blankNumber
  else .ok ⟨id, number, tableId, date, .pending, [], Decimal.zero, notes, 1⟩

def canBeModified (o : Order) : Bool := o.status == .pending

def addLine (o : Order) (lineId menuItem : Id) (quantity : Int32) (unitPrice : Decimal)
    (instructions : Option String) : Outcome OrderError Order :=
  if !o.canBeModified then .refused (.linesClosedToAdd o.status)
  else do
    let l ← OrderLine.make lineId menuItem quantity unitPrice instructions
    o.setLines (o.lines ++ [l])

/-- drop every line with the identity; an unknown one changes nothing -/
def removeLine (o : Order) (lineId : Id) : Outcome OrderError Order :=
  if !o.canBeModified then .refused (.linesClosedToRemove o.status)
  else
    let rest := o.lines.filter (·.id != lineId)
    if rest.length = o.lines.length then .ok { o with lines := rest } else o.setLines rest

/-- change the quantity of the first line with the identity; an unknown one changes nothing -/
def setQuantity (o : Order) (lineId : Id) (quantity : Int32) : Outcome OrderError Order :=
  if !o.canBeModified then .refused (.linesClosedToUpdate o.status)
  else if (o.lines.find? (·.id == lineId)).isNone then .ok o
  else if quantity ≤ 0 then .refused .quantityNotPositive
  else o.setLines (updateFirst (·.id == lineId) (fun l => { l with quantity := quantity }) o.lines)

def setNotes (o : Order) (notes : Option String) : Order := { o with notes := notes }

/-- a move along the table -/
def moveTo (o : Order) (s : OrderStatus) : Outcome OrderError Order :=
  if o.status.canMoveTo s then .ok { o with status := s } else .refused (.noMove o.status s)

def startPreparation (o : Order) : Outcome OrderError Order :=
  if o.status ≠ .pending then .refused (.cannotPrepare o.status)
  else if o.lines.isEmpty then .refused .nothingToPrepare
  else .ok { o with status := .preparing }

def markReady (o : Order) : Outcome OrderError Order :=
  if o.status ≠ .preparing then .refused (.cannotMarkReady o.status) else .ok { o with status := .ready }

def serve (o : Order) : Outcome OrderError Order :=
  if o.status ≠ .ready then .refused (.cannotServe o.status) else .ok { o with status := .served }

/-- allowed from every status but served -/
def cancel (o : Order) : Outcome OrderError Order :=
  if o.status = .served then .refused .alreadyServed else .ok { o with status := .cancelled }

/-! ## Runs -/

/-- everything that can be asked of an order -/
inductive Op where
  | addLine (lineId menuItem : Id) (quantity : Int32) (unitPrice : Decimal) (instructions : Option String)
  | removeLine (lineId : Id)
  | setQuantity (lineId : Id) (quantity : Int32)
  | setNotes (notes : Option String)
  | moveTo (s : OrderStatus)
  | startPreparation
  | markReady
  | serve
  | cancel
deriving DecidableEq, Repr

def apply (o : Order) : Op → Outcome OrderError Order
  | .addLine i m q p s => o.addLine i m q p s
  | .removeLine i => o.removeLine i
  | .setQuantity i q => o.setQuantity i q
  | .setNotes n => .ok (o.setNotes n)
  | .moveTo s => o.moveTo s
  | .startPreparation => o.startPreparation
  | .markReady => o.markReady
  | .serve => o.serve
  | .cancel => o.cancel

/-- one operation; refused, it changes nothing -/
def step (o : Order) (op : Op) : Except Fault Order := (o.apply op).settle o

/-- a list of operations -/
def run (o : Order) (ops : List Op) : Except Fault Order := ops.foldlM step o

/-! ## JSON -/

def toJson (o : Order) : Json :=
  .record [("id", .text o.id.text), ("order_number", .text o.number), ("table_id", .text o.tableId.text),
    ("order_date", .text o.date.text), ("status", o.status.toJson), ("items", .arr (o.lines.map OrderLine.toJson)),
    ("total", .text o.total.text), ("notes", .option .text o.notes), ("version", .word o.version)]

def fields : List Reader.Field :=
  [Reader.field "id" Reader.id, Reader.field "order_number" Reader.string, Reader.field "table_id" Reader.id,
    Reader.field "order_date" Reader.time, Reader.field "status" OrderStatus.read,
    Reader.field "items" (Reader.list OrderLine.read), Reader.field "total" Reader.decimal,
    Reader.field "notes" (Reader.option Reader.string), Reader.field "version" Reader.int32]

/-- an order as it was stored, before its lines are added up -/
def stored : Reader Order := Reader.record fields false fun s => do
  let id ← s.required 0 "id" Reader.id
  let number ← s.required 1 "order_number" Reader.string
  let tableId ← s.required 2 "table_id" Reader.id
  let date ← s.required 3 "order_date" Reader.time
  let status ← s.required 4 "status" OrderStatus.read
  let lines ← s.required 5 "items" (Reader.list OrderLine.read)
  let _ ← s.defaulted 6 "total" Reader.decimal Decimal.zero
  let notes ← s.optional 7 "notes" Reader.string
  let version ← s.required 8 "version" Reader.int32
  return ⟨id, number, tableId, date, status, lines, Decimal.zero, notes, version⟩

/-- an order; the total is not taken over but computed again -/
def read : Reader Order := fun j => do
  let o ← stored j
  Reader.ofOutcome OrderError.message (o.setLines o.lines)

end Order

end Brigade
