/-
Repositories: the stored aggregates of one type, and an index of their natural keys.

A write carries the version that was loaded. It succeeds only while that version is still the stored one, and stores the
next version; otherwise it is a stale write and nothing changes.

Adding has two steps that each happen at once: `claim` enters the key in the index, `insert` stores the aggregate. If the
identity is taken, `release` gives the key back. The index is written by adding only: an update leaves it alone, whatever
key the written aggregate has.

The store has one repository for each kind of aggregate.
-/
import Brigade.Aggregate
import Brigade.Failure

namespace Brigade

structure Repository (α : Type) where
  /-- in the order of their arrival -/
  items : List α
  keys : List (NaturalKey × Id)
deriving DecidableEq, Repr

namespace Repository

variable {α : Type}

def empty : Repository α := ⟨[], []⟩

instance : Inhabited (Repository α) := ⟨empty⟩

def size (r : Repository α) : Nat := r.items.length

variable [Aggregate α]

/-- the stored aggregate of an identity -/
def get? (r : Repository α) (i : Id) : Option α := r.items.find? (Aggregate.id · == i)

/-! ## Adding -/

/-- enter a key; fails if it is there already -/
def claim (r : Repository α) (k : NaturalKey) (i : Id) : Option (Repository α) :=
  if r.keys.any (·.1 == k) then none else some { r with keys := r.keys ++ [(k, i)] }

/-- take a key out again -/
def release (r : Repository α) (k : NaturalKey) : Repository α := { r with keys := r.keys.filter (·.1 != k) }

/-- store an aggregate; fails if its identity is taken -/
def insert (r : Repository α) (a : α) : Option (Repository α) :=
  if (r.get? (Aggregate.id a)).isSome then none else some { r with items := r.items ++ [a] }

/-- the failure of a key that is taken -/
def keyTaken (α : Type) [Aggregate α] (k : NaturalKey) : Failure :=
  .alreadyExists (Aggregate.name α ++ " with " ++ k.text ++ " already exists")

/-- the failure of an identity that is taken -/
def idTaken (α : Type) [Aggregate α] (i : Id) : Failure :=
  .invalidOperation (Aggregate.name α ++ " " ++ i.text ++ " already exists")

/-- the failure of an identity that is not stored -/
def idUnknown (α : Type) [Aggregate α] (i : Id) : Failure :=
  .notFound (Aggregate.name α ++ " " ++ i.text ++ " not found")

/-- the second step of adding: the repository afterwards, and whether the aggregate is in it -/
def finishAdd (r : Repository α) (a : α) : Except Failure Unit × Repository α :=
  match r.insert a with
  | some r' => (.ok (), r')
  | none =>
    (.error (idTaken α (Aggregate.id a)),
      match Aggregate.key a with
      | some k => r.release k
      | none => r)

/-- store a new aggregate -/
def add (r : Repository α) (a : α) : Except Failure Unit × Repository α :=
  match Aggregate.key a with
  | none => r.finishAdd a
  | some k =>
    match r.claim k (Aggregate.id a) with
    | none => (.error (keyTaken α k), r)
    | some r' => r'.finishAdd a

/-! ## Updating -/

/-- put an aggregate in the place of the stored one of its identity -/
def replace (r : Repository α) (a : α) : Repository α :=
  { r with items := updateFirst (Aggregate.id · == Aggregate.id a) (fun _ => a) r.items }

/-- write over the version that was loaded; the next version is what is stored -/
def update (r : Repository α) (a : α) : Outcome Failure (α × Repository α) :=
  match r.get? (Aggregate.id a) with
  | none => .refused (idUnknown α (Aggregate.id a))
  | some stored =>
    if Aggregate.version stored ≠ Aggregate.version a then .refused (.staleWrite (Aggregate.id a))
    else do
      let v ← Word.addExact (Aggregate.version stored) 1
      let next := Aggregate.withVersion a v
      return (next, r.replace next)

end Repository

/-! ## The store -/

structure Store where
  orders : Repository Order
  tables : Repository Table
  menuItems : Repository MenuItem
  goalPeriods : Repository GoalPeriod
  goalSets : Repository GoalSet
deriving DecidableEq

namespace Store

def empty : Store := ⟨.empty, .empty, .empty, .empty, .empty⟩

instance : Inhabited Store := ⟨empty⟩

/-- the repository of a kind -/
def repo (s : Store) : (k : Kind) → Repository k.Member
  | .order => s.orders
  | .table => s.tables
  | .menuItem => s.menuItems
  | .goalPeriod => s.goalPeriods
  | .goalSet => s.goalSets

/-- the store with another repository of a kind -/
def setRepo (s : Store) : (k : Kind) → Repository k.Member → Store
  | .order, r => { s with orders := r }
  | .table, r => { s with tables := r }
  | .menuItem, r => { s with menuItems := r }
  | .goalPeriod, r => { s with goalPeriods := r }
  | .goalSet, r => { s with goalSets := r }

@[simp] theorem repo_setRepo (s : Store) (k : Kind) (r : Repository k.Member) : (s.setRepo k r).repo k = r := by
  cases k <;> rfl

theorem repo_setRepo_of_ne (s : Store) {k k' : Kind} (h : k' ≠ k) (r : Repository k.Member) :
    (s.setRepo k r).repo k' = s.repo k' := by
  cases k <;> cases k' <;> first | rfl | exact absurd rfl h

end Store

end Brigade
