/-
Settings files: numbers, truth values and moments.

A number is whole, of 64 bits, in base ten, two, eight or sixteen; or it has a fraction or an exponent, and then it may
not be beyond all doubles. Single underscores may stand between digits. A moment is a day, a time of day, or both with
an offset perhaps; it is kept as its text with `T` between the two, no zeros at the end of a fraction, and `Z` for no
offset.
-/
import Brigade.Config.Toml
import Brigade.Config.Toml.Text

namespace Brigade.Toml

open Brigade.Text

/-! ## Numbers -/

/-- digits, with single underscores between them -/
def grouped (digit : Char → Bool) : List Char → Option (List Char)
  | [] => none
  | c :: r =>
    if !digit c then none
    else match r with
      | [] => some [c]
      | d :: r' => if d = '_' then (grouped digit r').map (c :: ·) else (grouped digit (d :: r')).map (c :: ·)

/-- a digit of a base up to sixteen -/
def isDigitOf (base : Nat) (c : Char) : Bool :=
  match hexValue? c with
  | some d => d < base
  | none => false

def numberOf (base : Nat) (ds : List Char) : Nat := ds.foldl (fun n c => n * base + (hexValue? c).getD 0) 0

/-- a whole number of 64 bits -/
def int64? (i : Int) : Option Toml := if -two63 ≤ i ∧ i < two63 then some (.int i) else none

/-- decimal digits that do not start with a needless zero -/
def wholeDigits? (cs : List Char) : Option (List Char) := do
  let ds ← grouped isDigit cs
  if ds.length = 1 ∨ ds.head? ≠ some '0' then some ds else none

/-- the number after `e` -/
def exponent? (cs : List Char) : Option Int :=
  match cs with
  | '+' :: r => (grouped isDigit r).map fun ds => (numberOf 10 ds : Int)
  | '-' :: r => (grouped isDigit r).map fun ds => -(numberOf 10 ds : Int)
  | r => (grouped isDigit r).map fun ds => (numberOf 10 ds : Int)

/-- a double that is not beyond all numbers -/
def finite? (d : Double) : Option Toml :=
  match d with
  | .finite _ _ => some (.real d)
  | _ => none

/-- a number in base ten, after its sign -/
def decimal? (negative : Bool) (cs : List Char) : Option Toml := do
  let isMark (c : Char) : Bool := c = 'e' || c = 'E'
  let base := cs.takeWhile fun c => !isMark c
  let power := cs.dropWhile fun c => !isMark c
  let ds ← wholeDigits? (base.takeWhile (· != '.'))
  let places ← match base.dropWhile (· != '.') with
    | [] => some []
    | _ :: r => grouped isDigit r
  let e ← match power with
    | [] => some 0
    | _ :: r => exponent? r
  if base.contains '.' || !power.isEmpty then
    finite? (Double.ofDecimal negative (numberOf 10 (ds ++ places)) (e - places.length))
  else int64? (if negative then -(numberOf 10 ds : Int) else numberOf 10 ds)

/-- a number in base two, eight or sixteen, after its sign and mark -/
def inBase? (base : Nat) (cs : List Char) : Option Toml := do
  let ds ← grouped (isDigitOf base) cs
  int64? (numberOf base ds)

/-- a number with a plus dropped -/
def number? (cs : List Char) : Option Toml :=
  match cs with
  | '0' :: 'x' :: r => inBase? 16 r
  | '0' :: 'o' :: r => inBase? 8 r
  | '0' :: 'b' :: r => inBase? 2 r
  | ['i', 'n', 'f'] => some (.real (.infinite false))
  | ['-', 'i', 'n', 'f'] => some (.real (.infinite true))
  | ['n', 'a', 'n'] => some (.real .notANumber)
  | ['-', 'n', 'a', 'n'] => some (.real .notANumber)
  | '-' :: r => decimal? true r
  | r => decimal? false r

/-- a value that is one word: true, false or a number -/
def word? (word : List Char) : Option Toml :=
  match word with
  | ['t', 'r', 'u', 'e'] => some (.bool true)
  | ['f', 'a', 'l', 's', 'e'] => some (.bool false)
  | '+' :: r => number? r
  | r => number? r

/-- what such a word is made of -/
def inScalar (c : Char) : Bool := inWord c || c = '+' || c = '.'

/-! ## Moments -/

/-- two digits of a number in a range, as they stand -/
def pair? (lo hi : Nat) (cs : List Char) : Option (List Char × List Char) :=
  match cs with
  | a :: b :: r =>
    let n := numberFrom 0 [a, b]
    if isDigit a ∧ isDigit b ∧ lo ≤ n ∧ n ≤ hi then some ([a, b], r) else none
  | _ => none

/-- two digits of a number in a range, after a mark -/
def pairAfter? (mark : Char) (lo hi : Nat) (cs : List Char) : Option (List Char × List Char) :=
  match cs with
  | c :: r => if c = mark then (pair? lo hi r).map fun p => (mark :: p.1, p.2) else none
  | [] => none

/-- year, month and day -/
def day? (cs : List Char) : Option (List Char × List Char) := do
  let (a, r) ← pair? 0 99 cs
  let (b, r) ← pair? 0 99 r
  let (m, r) ← pairAfter? '-' 1 12 r
  let (d, r) ← pairAfter? '-' 1 31 r
  some (a ++ b ++ m ++ d, r)

/-- a fraction of a second after its point, nine digits of it at most -/
def fraction? (cs : List Char) : Option (List Char × List Char) :=
  let ds := cs.takeWhile isDigit
  let kept := ((ds.take 9).reverse.dropWhile (· = '0')).reverse
  if ds.isEmpty then none
  else some (if kept.isEmpty then [] else '.' :: kept, cs.dropWhile isDigit)

/-- a time of day -/
def timeOfDay? (cs : List Char) : Option (List Char × List Char) := do
  let (h, r) ← pair? 0 24 cs
  let (m, r) ← pairAfter? ':' 0 59 r
  let (s, r) ← pairAfter? ':' 0 59 r
  match r with
  | '.' :: r => (fraction? r).map fun p => (h ++ m ++ s ++ p.1, p.2)
  | r => some (h ++ m ++ s, r)

/-- an offset of hours and minutes after its sign; no hours have no sign -/
def offsetAfter? (sign : Char) (cs : List Char) : Option (List Char × List Char) := do
  let (h, r) ← pair? 0 99 cs
  let (m, r) ← pairAfter? ':' 0 99 r
  some ((if h = ['0', '0'] then '+' else sign) :: h ++ m, r)

/-- an offset, perhaps none -/
def offset (cs : List Char) : List Char × List Char :=
  match cs with
  | [] => ([], [])
  | c :: r =>
    if c = 'Z' ∨ c = 'z' then (['Z'], r)
    else if c = '+' ∨ c = '-' then (offsetAfter? c r).getD ([], cs)
    else ([], cs)

/-- a moment, none if none comes next -/
def moment? (cs : List Char) : Option (List Char × List Char) :=
  match day? cs with
  | none => timeOfDay? cs
  | some (d, r) =>
    match r with
    | [] => some (d, [])
    | c :: rest =>
      match if c = 'T' ∨ c = 't' ∨ c = ' ' then timeOfDay? rest else none with
      | some (t, rest) => some (d ++ 'T' :: t ++ (offset rest).1, (offset rest).2)
      | none => some (d, r)

/-- a value that is no text, list or table -/
def scalar? (cs : List Char) : Option (Toml × List Char) :=
  match moment? cs with
  | some (m, r) => some (.text (String.ofList m), r)
  | none => (word? (cs.takeWhile inScalar)).map fun v => (v, cs.dropWhile inScalar)

end Brigade.Toml
