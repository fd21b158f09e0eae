/-
Commands on tables.

`MoveTable` goes through the checked verbs of a table, `SetTable` sets any status. Both load the table, write the change
and announce it.
-/
import Brigade.Plan

namespace Brigade

structure TableResult where
  id : Id
  number : Int32
  oldStatus : TableStatus
  status : TableStatus
  reservedAt : Option Timestamp
  version : Int32
deriving DecidableEq, Repr

def TableResult.toJson (r : TableResult) : Json :=
  .record [("id", .text r.id.text), ("number", .word r.number), ("old_status", r.oldStatus.toJson),
    ("status", r.status.toJson), ("reserved_at", .option (fun a => .text a.text) r.reservedAt),
    ("version", .word r.version)]

namespace TableCommand

def refusal (e : TableError) : Refusal := .one e.message

/-- the stored table -/
def load (i : Id) : Task Table := do
  let t ← Task.get .table i
  Task.orFail (.notFound ("Table " ++ i.text ++ " not found")) t

/-- write a changed table and announce the change -/
def save (old : TableStatus) (t : Table) : Task TableResult := do
  let t ← Task.update .table t
  Task.publish (.tableStatusChanged t.id old.name t.status.name) ("Failed to send event for table status change: " ++ ·)
  return ⟨t.id, t.number, old, t.status, t.reservedAt, t.version⟩

def fields : List Reader.Field := [Reader.field "table_id" Reader.id, Reader.field "new_status" TableStatus.read]

end TableCommand

open TableCommand

/-- move a table by the verb of the status; cleaning has none -/
structure MoveTable where
  tableId : Id
  status : TableStatus
deriving DecidableEq, Repr

namespace MoveTable

def apply (c : MoveTable) (t : Table) : Task Table :=
  match c.status with
  | .available => pure t.makeAvailable
  | .occupied => Task.ofOutcome refusal t.occupy
  | .reserved => do
    let now ← Task.clock
    Task.ofOutcome refusal (t.reserve now)
  | .outOfService => Task.ofOutcome refusal t.takeOutOfService
  | .cleaning => Task.fail (.invalidOperation ("Cannot update table to status: " ++ c.status.name))

/-- a refused verb is counted -/
def refusedMetrics {α : Type} : Ending α → List Metric
  | .failure _ => [.tableStatusUpdateFailures]
  | _ => []

def task (c : MoveTable) : Task TableResult := do
  let t ← load c.tableId
  let moved ← Task.counted refusedMetrics (c.apply t)
  let r ← save t.status moved
  Task.count .tableStatusUpdates
  return r

def read : Reader MoveTable := Reader.record fields false fun s => do
  let t ← s.required 0 "table_id" Reader.id
  let n ← s.required 1 "new_status" TableStatus.read
  return ⟨t, n⟩

end MoveTable

/-- set any status of a table; a reservation is for now -/
structure SetTable where
  tableId : Id
  status : TableStatus
deriving DecidableEq, Repr

namespace SetTable

def task (c : SetTable) : Task TableResult := do
  let t ← load c.tableId
  let now ← Task.clock
  save t.status (t.setStatus c.status now)

def read : Reader SetTable := Reader.record fields false fun s => do
  let t ← s.required 0 "table_id" Reader.id
  let n ← s.required 1 "new_status" TableStatus.read
  return ⟨t, n⟩

end SetTable

end Brigade
