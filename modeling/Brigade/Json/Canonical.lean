/-
The canonical form of a tree: members sorted by name, of members with one name the last one kept, and every double
written in its shortest text.
-/
import Brigade.Json.Number
import Brigade.Json.Print

namespace Brigade.Json

/-- the name of a member, empty if it has none -/
def memberName (m : Json × Json) : String :=
  match m.1 with
  | str (some s) => s
  | _ => ""

/-- put a member in its place among members sorted by name; an equal name is replaced -/
def insertMember (m : Json × Json) : List (Json × Json) → List (Json × Json)
  | [] => [m]
  | n :: ms =>
    if memberName m = memberName n then m :: ms
    else if memberName m < memberName n then m :: n :: ms
    else n :: insertMember m ms

/-- a numeral with a double's value in its shortest text -/
def canonicalNumeral (l : Numeral) : Numeral :=
  match l.value with
  | .whole i => Numeral.ofInt i
  | .double f => Numeral.ofDouble f
  | .tooLarge => l

mutual
def canonical : Json → Json
  | num l => num (canonicalNumeral l)
  | arr xs => arr (canonicalAll xs)
  | obj ms => obj (canonicalMembers [] ms)
  | j => j

def canonicalAll : List Json → List Json
  | [] => []
  | x :: xs => canonical x :: canonicalAll xs

def canonicalMembers (done : List (Json × Json)) : List (Json × Json) → List (Json × Json)
  | [] => done
  | (n, v) :: ms => canonicalMembers (insertMember (n, canonical v) done) ms
end

end Brigade.Json
