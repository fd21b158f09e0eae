/-
Decimals as text.

Written: an optional minus, the whole digits, and as many places as the scale says (`text`).

Read (`ofText?`): an optional sign, digits with at most one point, `_` anywhere after the first digit; else the same
followed by `e` and an exponent of at most 28. Surplus places are rounded half up in size: at 28 places, or where one
more digit would not fit, the next digit decides, and only digits and `_` may follow it. An exponent moves the point; a
scale that passes 28 by it loses places, again half up, and keeps its sign even as a zero. Whole digits that do not fit
are refused.
-/
import Brigade.Decimal.Basic
import Brigade.Text.Basic

namespace Brigade.Decimal

open Brigade.Text

/-! ## Writing -/

def text (d : Decimal) : String :=
  let sign := if d.negative then "-" else ""
  let ds := digits d.size
  if d.scale = 0 then sign ++ String.ofList ds
  else
    let full := List.replicate (d.scale + 1 - ds.length) '0' ++ ds
    let cut := full.length - d.scale
    sign ++ String.ofList (full.take cut) ++ "." ++ String.ofList (full.drop cut)

/-! ## Reading -/

/-- what may follow the digit that decides a rounding -/
def isSurplus (c : Char) : Bool := c == '_' || (digitValue? c).isSome

/-- what the character that decides a rounding counts -/
def decidingDigit? (c : Char) : Option Nat := if c = '_' then some 0 else digitValue? c

/-- the coefficient and scale after the next character has decided the rounding -/
def roundBy (n s : Nat) (c : Char) (surplus : List Char) : Option (Nat × Nat) := do
  let d ← decidingDigit? c
  if !surplus.all isSurplus then none
  else if d < 5 then some (n, s)
  else if n + 1 < two96 then some (n + 1, s)
  else if s = 0 then none
  else some ((n + 5) / 10, s - 1)

/-- a coefficient is long when all but its last digit come up to this -/
def longFrom : Nat := 1844674407370954906

/-- round at 28 places; after a long coefficient `_` is passed over, after a short one it decides -/
def roundAtEnd (n : Nat) : List Char → Option (Nat × Nat)
  | [] => some (n, 28)
  | c :: cs => if c = '_' ∧ longFrom ≤ n / 10 then roundAtEnd n cs else roundBy n 28 c cs

/-- read digits after the coefficient `n` at scale `s`; `point` and `seen`: a point, a digit has been read -/
def readDigits : List Char → (n s : Nat) → (point seen : Bool) → Option (Nat × Nat)
  | [], n, s, _, seen => if seen then some (n, s) else none
  | c :: cs, n, s, point, seen =>
    if point && 28 ≤ s then roundAtEnd n (c :: cs)
    else match digitValue? c with
      | some d =>
        if n * 10 + d < two96 then readDigits cs (n * 10 + d) (if point then s + 1 else s) point true
        else if point then roundBy n s c cs
        else none
      | none =>
        if c = '.' ∧ !point then readDigits cs n s true seen
        else if c = '_' ∧ seen then readDigits cs n s point seen
        else none

/-- a decimal without an exponent -/
def ofPlainText? (cs : List Char) : Option Decimal :=
  let (negative, body) := match cs with
    | '-' :: r => (true, r)
    | '+' :: r => (false, r)
    | r => (false, r)
  do
    let (n, s) ← readDigits body 0 0 false false
    ofParts? (if negative then -(n : Int) else n) s

/-- an exponent's digits: a 32-bit number with an optional plus -/
def readExponent? (cs : List Char) : Option Nat := do
  let n ← readNat? (match cs with
    | '+' :: r => r
    | r => r)
  if n < two32 then some n else none

/-- move the point `n` places to the right; past the last place the number becomes whole -/
def shiftUp? (d : Decimal) (n : Nat) : Option Decimal :=
  if n ≤ d.scale then ofParts? d.coeff (d.scale - n)
  else if n ≤ 28 then ofParts? (d.coeff * tenPow (n - d.scale)) 0
  else none

/-- move the point `n` places to the left; places past the last one are rounded away, the sign is kept -/
def shiftDown? (d : Decimal) (n : Nat) : Option Decimal :=
  if d.scale + n ≤ 28 then ofParts? d.coeff (d.scale + n)
  else if n ≤ 28 then (ofParts? (dropDigits .up d.coeff (d.scale + n - 28)) 28).map (withSign d.negative)
  else none

/-- a decimal with an exponent -/
def ofScientificText? (cs : List Char) : Option Decimal :=
  let isMark (c : Char) : Bool := c = 'e' || c = 'E'
  match cs.dropWhile fun c => !isMark c with
  | [] => none
  | _ :: exponent => do
    let d ← ofPlainText? (cs.takeWhile fun c => !isMark c)
    match exponent with
    | '-' :: r => d.shiftDown? (← readExponent? r)
    | r => d.shiftUp? (← readExponent? r)

/-- a decimal, with or without an exponent -/
def ofText? (s : String) : Option Decimal :=
  ofPlainText? s.toList <|> ofScientificText? s.toList

end Brigade.Decimal
