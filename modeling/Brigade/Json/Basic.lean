/-
JSON texts as trees.

A tree keeps what a reader must be able to tell apart: the digits of a number as written, the order of members, repeated
names, and the place where a text stops being JSON. Such a place is a `damaged` leaf, the last one of the tree in text
order, so a reader that works from left to right meets every earlier mistake first. A string whose escapes name half of
a surrogate pair has no text; it may stand where nothing looks at it.

A `sound` tree holds no damage.
-/

namespace Brigade

/-- a number as written: -12.50e3 is `⟨true, 12, ['5', '0'], some 3⟩` -/
structure Numeral where
  negative : Bool
  whole : Nat
  fraction : List Char
  exponent : Option Int
deriving DecidableEq, Repr

/-- the numeral of an integer -/
def Numeral.ofInt (i : Int) : Numeral := ⟨i < 0, i.natAbs, [], none⟩

/-- a JSON text -/
inductive Json where
  | null
  | bool (b : Bool)
  | num (n : Numeral)
  | str (s : Option String)
  | arr (xs : List Json)
  | obj (ms : List (Json × Json))
  | damaged
deriving Repr, Inhabited

namespace Json

/-- a string with a text -/
abbrev text (s : String) : Json := str (some s)

/-- an object with the given names -/
def record (ms : List (String × Json)) : Json := obj (ms.map fun m => (text m.1, m.2))

def int (i : Int) : Json := num (Numeral.ofInt i)

def nat (n : Nat) : Json := int n

def word (w : Int32) : Json := int w.toInt

/-- a value or null -/
def option {α : Type} (f : α → Json) : Option α → Json
  | some a => f a
  | none => null

mutual
/-- no damage anywhere -/
def sound : Json → Bool
  | damaged => false
  | arr xs => soundAll xs
  | obj ms => soundMembers ms
  | _ => true

def soundAll : List Json → Bool
  | [] => true
  | x :: xs => sound x && soundAll xs

def soundMembers : List (Json × Json) → Bool
  | [] => true
  | (n, v) :: ms => sound n && sound v && soundMembers ms
end

/-- the value of a member, the first of its name -/
def find? (name : String) : List (Json × Json) → Option Json
  | [] => none
  | (str (some n), v) :: ms => if n = name then some v else find? name ms
  | _ :: ms => find? name ms

/-- the value of a member of an object, null if there is none -/
def get (j : Json) (name : String) : Json :=
  match j with
  | obj ms => (find? name ms).getD null
  | _ => null

end Json

end Brigade
