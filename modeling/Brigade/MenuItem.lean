/-
Items of the menu: a name, a category, a price, and whether the kitchen has it.

The constructor and a change of price demand a positive price; reading from JSON does not.
-/
import Brigade.Json.Read
import Brigade.Text.Basic

namespace Brigade

inductive MenuItemError where
  | blankName
  | priceNotPositive
deriving DecidableEq, Repr

def MenuItemError.message : MenuItemError → String
  | .blankName => "Menu item name cannot be empty"
  | .priceNotPositive => "Price must be positive"

structure MenuItem where
  id : Id
  name : String
  category : String
  description : Option String
  price : Decimal
  available : Bool
  version : Int32
deriving DecidableEq, Repr

namespace MenuItem

def problems (name : String) (price : Decimal) : List MenuItemError :=
  (if Text.allBlank name then [.blankName] else []) ++ (if price.coeff ≤ 0 then [.priceNotPositive] else [])

/-- a new item, available; all problems are reported together -/
def create (id : Id) (name category : String) (price : Decimal) (description : Option String) :
    Outcome (List MenuItemError) MenuItem :=
  match problems name price with
  | [] => .ok ⟨id, name, category, description, price, true, 1⟩
  | es => .refused es

/-! ## Operations -/

def makeAvailable (m : MenuItem) : MenuItem := { m with available := true }

def makeUnavailable (m : MenuItem) : MenuItem := { m with available := false }

def setPrice (m : MenuItem) (price : Decimal) : Outcome MenuItemError MenuItem :=
  if price.coeff ≤ 0 then .refused .priceNotPositive else .ok { m with price := price }

inductive Op where
  | makeAvailable
  | makeUnavailable
  | setPrice (price : Decimal)
deriving DecidableEq, Repr

def apply (m : MenuItem) : Op → Outcome MenuItemError MenuItem
  | .makeAvailable => .ok m.makeAvailable
  | .makeUnavailable => .ok m.makeUnavailable
  | .setPrice p => m.setPrice p

/-- one operation; refused, it changes nothing -/
def step (m : MenuItem) (op : Op) : Except Fault MenuItem := (m.apply op).settle m

def run (m : MenuItem) (ops : List Op) : Except Fault MenuItem := ops.foldlM step m

/-! ## JSON -/

def toJson (m : MenuItem) : Json :=
  .record [("id", .text m.id.text), ("name", .text m.name), ("category", .text m.category),
    ("description", .option .text m.description), ("price", .text m.price.text), ("is_available", .bool m.available),
    ("version", .word m.version)]

def fields : List Reader.Field :=
  [Reader.field "id" Reader.id, Reader.field "name" Reader.string, Reader.field "category" Reader.string,
    Reader.field "description" (Reader.option Reader.string), Reader.field "price" Reader.decimal,
    Reader.field "is_available" Reader.bool, Reader.field "version" Reader.int32]

def read : Reader MenuItem := Reader.record fields false fun s => do
  let id ← s.required 0 "id" Reader.id
  let name ← s.required 1 "name" Reader.string
  let category ← s.required 2 "category" Reader.string
  let description ← s.optional 3 "description" Reader.string
  let price ← s.required 4 "price" Reader.decimal
  let available ← s.required 5 "is_available" Reader.bool
  let version ← s.required 6 "version" Reader.int32
  return ⟨id, name, category, description, price, available, version⟩

end MenuItem

end Brigade
