/-
What a layer of the configuration says, and how it is read.

A setting is a value as a file or a variable gives it. It is read by what is asked for: a text may be a number, a number
may be a text, and either may be true or false (`toBool?`, `toNat64?`, `toText?`). Nothing reads a list or a table.

A layer is a list of keys with their settings. A key may lead into a setting by names and by positions in lists
(`Layer.keySteps`); what is in its way becomes a table or a list (`Setting.place`). Laying a layer on another puts its
settings in place of the other's, and the members of a table among the members of the table that is there.
-/
import Brigade.Operation
import Brigade.Config.Toml.Document
import Brigade.Double.Shortest
import Brigade.Text.Case

namespace Brigade

open Brigade.Text

/-- a value of a layer -/
inductive Setting where
  /-- a place of a list that has not been filled -/
  | nothing
  | bool (b : Bool)
  | int (i : Int)
  | real (d : Double)
  | text (s : String)
  | list (xs : List Setting)
  | table (ms : List (String × Setting))
deriving Repr, Inhabited

namespace Setting

/-! ## Equality -/

mutual
def same : Setting → Setting → Bool
  | nothing, nothing => true
  | bool a, bool b => a == b
  | int a, int b => a == b
  | real a, real b => a == b
  | text a, text b => a == b
  | list xs, list ys => sameAll xs ys
  | table ms, table ns => sameMembers ms ns
  | _, _ => false

def sameAll : List Setting → List Setting → Bool
  | [], [] => true
  | x :: xs, y :: ys => same x y && sameAll xs ys
  | _, _ => false

def sameMembers : List (String × Setting) → List (String × Setting) → Bool
  | [], [] => true
  | (k, x) :: ms, (l, y) :: ns => k == l && same x y && sameMembers ms ns
  | _, _ => false
end

mutual
theorem same_iff (a b : Setting) : same a b = true ↔ a = b := by
  match a with
  | list xs => cases b <;> simp [same, sameAll_iff xs]
  | table ms => cases b <;> simp [same, sameMembers_iff ms]
  | nothing | bool _ | int _ | real _ | text _ => cases b <;> simp [same]

theorem sameAll_iff (xs ys : List Setting) : sameAll xs ys = true ↔ xs = ys := by
  match xs, ys with
  | [], [] => simp [sameAll]
  | [], _ :: _ => simp [sameAll]
  | _ :: _, [] => simp [sameAll]
  | x :: xs, y :: ys => simp [sameAll, same_iff x, sameAll_iff xs]

theorem sameMembers_iff (ms ns : List (String × Setting)) : sameMembers ms ns = true ↔ ms = ns := by
  match ms, ns with
  | [], [] => simp [sameMembers]
  | [], _ :: _ => simp [sameMembers]
  | _ :: _, [] => simp [sameMembers]
  | (k, x) :: ms, (l, y) :: ns => simp [sameMembers, same_iff x, sameMembers_iff ms]
end

instance : DecidableEq Setting := fun a b => decidable_of_iff _ (same_iff a b)

/-! ## Settings of a file -/

mutual
def ofToml : Toml → Setting
  | .bool b => bool b
  | .int i => int i
  | .real d => real d
  | .text s => text s
  | .list xs => list (ofElements xs)
  | .table _ ms => table (ofMembers ms)
  | .tables ts => list (ofTables ts)

def ofElements : List Toml → List Setting
  | [] => []
  | x :: xs => ofToml x :: ofElements xs

def ofMembers : List (String × Toml) → List (String × Setting)
  | [] => []
  | (k, v) :: ms => (k, ofToml v) :: ofMembers ms

def ofTables : List (List (String × Toml)) → List Setting
  | [] => []
  | t :: ts => table (ofMembers t) :: ofTables ts
end

/-! ## Reading -/

/-- the digits of a number of 64 bits, perhaps after a plus -/
def readNat64? (s : String) : Option Nat :=
  let digits := match s.toList with
    | '+' :: r => r
    | cs => cs
  (readNat? digits).bind fun n => if n < two64 then some n else none

def toBool? : Setting → Option Bool
  | bool b => some b
  | int i => some (i != 0)
  | real d => some !d.isZero
  | text s =>
    let l := lowercase s
    if ["1", "true", "on", "yes"].contains l then some true
    else if ["0", "false", "off", "no"].contains l then some false
    else none
  | _ => none

/-- a natural of 64 bits; a number with places goes to the nearest one -/
def toNat64? : Setting → Option Nat
  | bool b => some (if b then 1 else 0)
  | int i => if 0 ≤ i then some i.toNat else none
  | real d => some d.toNat64
  | text s =>
    let l := lowercase s
    if ["true", "on", "yes"].contains l then some 1
    else if ["false", "off", "no"].contains l then some 0
    else readNat64? s
  | _ => none

/-- the lower half of a natural of 64 bits -/
def toNat32? (s : Setting) : Option Nat := s.toNat64?.map (· % two32)

def toText? : Setting → Option String
  | bool b => some (if b then "true" else "false")
  | int i => some (toString i)
  | real d => some d.plainText
  | text s => some s
  | _ => none

/-! ## Laying settings -/

/-- the members of a table; anything else has none -/
def members : Option Setting → List (String × Setting)
  | some (table ms) => ms
  | _ => []

/-- the elements of a list; anything else has none -/
def elements : Option Setting → List Setting
  | some (list xs) => xs
  | _ => []

/-- members with a setting of the given name -/
def set (name : String) (s : Setting) : List (String × Setting) → List (String × Setting)
  | [] => [(name, s)]
  | (n, t) :: ms => if n = name then (n, s) :: ms else (n, t) :: set name s ms

mutual
/-- a setting laid on what is there: the members of a table one by one, so that an empty one changes nothing -/
def laidOn : Setting → Option Setting → Setting
  | table [], below => below.getD (table [])
  | table (m :: ms), below => table (layMembers (m :: ms) (members below))
  | s, _ => s

def layMembers : List (String × Setting) → List (String × Setting) → List (String × Setting)
  | [], below => below
  | (k, s) :: ms, below => layMembers ms (set k (laidOn s (below.lookup k)) below)
end

/-- a step into a setting -/
inductive Step where
  | name (s : String)
  | position (i : Int)
deriving DecidableEq, Repr

/-- no list has so many elements -/
def tooLong : Nat := two63 / 96

/-- the place that a position means in a list of `n`; a negative one counts from the end -/
def placeOf {ε : Type} (i : Int) (n : Nat) : Outcome ε Nat :=
  if 0 ≤ i then if i.toNat < tooLong then .ok i.toNat else .fault .listTooLong
  else if i = -two63 then .fault .negationOutOfRange
  else if i.natAbs ≤ n then .ok (n - i.natAbs)
  else .fault .subtractionOutOfRange

/-- a list with another element at a place; the places before it are there -/
def setAt (n : Nat) (s : Setting) (xs : List Setting) : List Setting :=
  if n < xs.length then xs.set n s else xs ++ List.replicate (n - xs.length) nothing ++ [s]

/-- lay a setting on what the steps lead to; the element at a last position is replaced -/
def place {ε : Type} : List Step → Setting → Option Setting → Outcome ε Setting
  | [], s, below => .ok (s.laidOn below)
  | .name k :: steps, s, below => do
    let ms := members below
    let inner ← place steps s (ms.lookup k)
    return table (set k inner ms)
  | .position i :: steps, s, below => do
    let xs := elements below
    let n ← placeOf i xs.length
    let inner ← place steps s (if steps.isEmpty then none else xs[n]?)
    return list (setAt n inner xs)

end Setting

/-- keys and their settings -/
abbrev Layer : Type := List (String × Setting)

namespace Layer

/-! ## Keys -/

/-- what the name of a setting is made of -/
def inName (c : Char) : Bool := c.isAlphanum || c = ' ' || c = '_' || c = '-'

/-- a whole number of 64 bits and a closing bracket, blanks around the number -/
def position? (cs : List Char) : Option (Int × List Char) := do
  let isGap (c : Char) : Bool := c = ' ' || c = '\t'
  let (negative, r) := match cs.dropWhile isGap with
    | '-' :: r => (true, r)
    | r => (false, r)
  let n ← readNat? (r.takeWhile isDigit)
  let i : Int := if negative then -n else n
  match (r.dropWhile isDigit).dropWhile isGap with
  | ']' :: r => if -two63 ≤ i ∧ i < two63 then some (i, r) else none
  | _ => none

/-- steps into a setting: a name after a point or a position in brackets, any number of times -/
def moreSteps? : (fuel : Nat) → List Char → Option (List Setting.Step)
  | 0, _ => none
  | _ + 1, [] => some []
  | fuel + 1, '.' :: r =>
    let name := r.takeWhile inName
    if name.isEmpty then none
    else (moreSteps? fuel (r.dropWhile inName)).map (.name (String.ofList name) :: ·)
  | fuel + 1, '[' :: r => do
    let (i, r) ← position? r
    return .position i :: (← moreSteps? fuel r)
  | _, _ => none

/-- the steps of a key; a key of no known form is a name -/
def keySteps (key : String) : List Setting.Step :=
  let cs := key.toList
  let name := cs.takeWhile inName
  let rest := cs.dropWhile inName
  if name.isEmpty then [.name key]
  else match moreSteps? (rest.length + 1) rest with
    | some steps => .name (String.ofList name) :: steps
    | none => [.name key]

/-! ## Laying layers -/

/-- one more key with its setting -/
def insert {ε : Type} (l : Layer) (p : String × Setting) : Outcome ε Layer := do
  let s ← Setting.place (keySteps p.1) p.2 (some (.table l))
  return Setting.members (some s)

/-- the layer `top` laid on the layer `l` -/
def laidOn {ε : Type} (top l : Layer) : Outcome ε Layer := top.foldlM insert l

/-! ## Sources -/

def ofToml (ms : Toml.Members) : Layer := Setting.ofMembers ms

/-- double underscores as points -/
def dotted : List Char → List Char
  | '_' :: '_' :: r => '.' :: dotted r
  | c :: r => c :: dotted r
  | [] => []

/-- what the names of variables with settings start with -/
def variableMark : List Char := ['a', 'p', 'p', '_', '_']

/-- the key of a variable, none if it has nothing to say -/
def variableKey? (name : String) : Option String :=
  let cs := (lowercase name).toList
  if variableMark.isPrefixOf cs then some (String.ofList (dotted (cs.drop variableMark.length))) else none

def ofVariables (vs : List (String × String)) : Layer :=
  vs.filterMap fun v => (variableKey? v.1).map fun k => (k, .text v.2)

end Layer

end Brigade
