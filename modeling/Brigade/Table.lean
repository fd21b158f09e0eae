/-
Dining tables.

A table is reserved for a time, and has such a time exactly while it is reserved. Four verbs check the status first
(`reserve`, `occupy`, `takeOutOfService`; `makeAvailable` needs no check), and `setStatus` goes anywhere. What the
constructor demands, a stored table must also satisfy (`Table.ofParts`).
-/
import Brigade.Json.Read

namespace Brigade

inductive TableStatus where
  | available
  | occupied
  | reserved
  | cleaning
  | outOfService
deriving DecidableEq, Repr, Inhabited

namespace TableStatus

def all : List TableStatus := [available, occupied, reserved, cleaning, outOfService]

theorem mem_all (s : TableStatus) : s ∈ all := by cases s <;> decide

def name : TableStatus → String
  | available => "Available"
  | occupied => "Occupied"
  | reserved => "Reserved"
  | cleaning => "Cleaning"
  | outOfService => "OutOfService"

def toJson (s : TableStatus) : Json := .text s.name

def read : Reader TableStatus := Reader.named (all.map fun s => (s.name, s))

end TableStatus

/-- why a table refuses; `n` is its number -/
inductive TableError where
  | numberNotPositive
  | capacityNotPositive
  | cannotReserve (n : Int32) (s : TableStatus)
  | cannotOccupy (n : Int32) (s : TableStatus)
  | cannotRetireOccupied (n : Int32)
  | reservedWithoutTime (n : Int32)
  | timeWithoutReservation (n : Int32) (s : TableStatus)
deriving DecidableEq, Repr

namespace TableError

def numberText (n : Int32) : String := toString n.toInt

def message : TableError → String
  | numberNotPositive => "Table number must be positive"
  | capacityNotPositive => "Table capacity must be positive"
  | cannotReserve n s => "Cannot reserve table " ++ numberText n ++ ". Current status: " ++ s.name
  | cannotOccupy n s => "Cannot occupy table " ++ numberText n ++ ". Current status: " ++ s.name
  | cannotRetireOccupied n => "Cannot take occupied table " ++ numberText n ++ " out of service"
  | reservedWithoutTime n => "Reserved table " ++ numberText n ++ " has no reservation time"
  | timeWithoutReservation n s => "Table " ++ numberText n ++ " has a reservation time but is " ++ s.name

end TableError

structure Table where
  id : Id
  number : Int32
  capacity : Int32
  status : TableStatus
  reservedAt : Option Timestamp
  version : Int32
deriving DecidableEq, Repr

namespace Table

/-- what is wrong with a number and a capacity -/
def problems (number capacity : Int32) : List TableError :=
  (if number ≤ 0 then [.numberNotPositive] else []) ++ (if capacity ≤ 0 then [.capacityNotPositive] else [])

/-- a new table, available; all problems are reported together -/
def create (id : Id) (number capacity : Int32) : Outcome (List TableError) Table :=
  match problems number capacity with
  | [] => .ok ⟨id, number, capacity, .available, none, 1⟩
  | es => .refused es

def isAvailable (t : Table) : Bool := t.status == .available

/-! ## Operations -/

def reserve (t : Table) (time : Timestamp) : Outcome TableError Table :=
  if t.status ≠ .available then .refused (.cannotReserve t.number t.status)
  else .ok { t with status := .reserved, reservedAt := some time }

def occupy (t : Table) : Outcome TableError Table :=
  if t.status ≠ .available ∧ t.status ≠ .reserved then .refused (.cannotOccupy t.number t.status)
  else .ok { t with status := .occupied, reservedAt := none }

def makeAvailable (t : Table) : Table := { t with status := .available, reservedAt := none }

def takeOutOfService (t : Table) : Outcome TableError Table :=
  if t.status = .occupied then .refused (.cannotRetireOccupied t.number)
  else .ok { t with status := .outOfService, reservedAt := none }

/-- any status; `now` is the time of a reservation -/
def setStatus (t : Table) (s : TableStatus) (now : Timestamp) : Table :=
  { t with status := s, reservedAt := if s = .reserved then some now else none }

/-! ## Runs -/

/-- everything that can be asked of a table -/
inductive Op where
  | reserve (time : Timestamp)
  | occupy
  | makeAvailable
  | takeOutOfService
  | setStatus (s : TableStatus) (now : Timestamp)
deriving DecidableEq, Repr

def apply (t : Table) : Op → Outcome TableError Table
  | .reserve time => t.reserve time
  | .occupy => t.occupy
  | .makeAvailable => .ok t.makeAvailable
  | .takeOutOfService => t.takeOutOfService
  | .setStatus s now => .ok (t.setStatus s now)

/-- one operation; refused, it changes nothing -/
def step (t : Table) (op : Op) : Except Fault Table := (t.apply op).settle t

def run (t : Table) (ops : List Op) : Except Fault Table := ops.foldlM step t

/-! ## JSON -/

/-- a stored table, if the constructor would have made it and its time fits its status -/
def ofParts (t : Table) : Outcome (List TableError) Table := do
  let _ ← create t.id t.number t.capacity
  match t.status, t.reservedAt with
  | .reserved, none => .refused [.reservedWithoutTime t.number]
  | .reserved, some _ => .ok t
  | _, none => .ok t
  | s, some _ => .refused [.timeWithoutReservation t.number s]

def toJson (t : Table) : Json :=
  .record [("id", .text t.id.text), ("number", .word t.number), ("capacity", .word t.capacity),
    ("status", t.status.toJson), ("reserved_at", .option (fun a => .text a.text) t.reservedAt),
    ("version", .word t.version)]

def fields : List Reader.Field :=
  [Reader.field "id" Reader.id, Reader.field "number" Reader.int32, Reader.field "capacity" Reader.int32,
    Reader.field "status" TableStatus.read, Reader.field "reserved_at" (Reader.option Reader.time),
    Reader.field "version" Reader.int32]

/-- the parts of a stored table, before they are checked -/
def parts : Reader Table := Reader.record fields false fun s => do
  let id ← s.required 0 "id" Reader.id
  let number ← s.required 1 "number" Reader.int32
  let capacity ← s.required 2 "capacity" Reader.int32
  let status ← s.required 3 "status" TableStatus.read
  let reservedAt ← s.optional 4 "reserved_at" Reader.time
  let version ← s.required 5 "version" Reader.int32
  return ⟨id, number, capacity, status, reservedAt, version⟩

def read : Reader Table := fun j => do
  let t ← parts j
  Reader.ofOutcome (fun es => "; ".intercalate (es.map TableError.message)) t.ofParts

end Table

end Brigade
