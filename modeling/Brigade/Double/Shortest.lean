/-
The shortest decimal that reads back as a given double, and its text.

A finite double is m · 2^q. The numbers that round to it form an interval around it, ends included when m is even.
`Binary.shortest` tries 1, 2, … 17 digits: the first decimal grid with a point in the interval wins, of two points the
nearer one, of two equally near the one of the tie rule. All of it is exact arithmetic on naturals.

Two styles: `scientificText` is positional from 10⁻⁵ to 10¹⁶ and has an exponent elsewhere, `positionalText` never has
one. A JSON text has the first, a tie going to the even number; a text shown to a reader has the second, a tie going up.
-/
import Brigade.Arithmetic
import Brigade.Double.Basic
import Brigade.Text.Basic

namespace Brigade

open Brigade.Text

/-- a decimal 0.d₁d₂… · 10^point, given by its digits -/
structure Decade where
  digits : Nat
  /-- the value is `digits` times ten to this power -/
  power : Int
deriving DecidableEq, Repr

namespace Binary

/-- the value as a quotient of naturals, in quarters of a unit of the mantissa -/
def quarter (b : Binary) (n : Nat) : Nat × Nat :=
  let q := b.exponent - 2
  if 0 ≤ q then (n * twoPow q.toNat, 1) else (n, twoPow (-q).toNat)

/-- least `j` with 10^j · num ≥ den, counting from `j` -/
def leadingZeros (num den : Nat) : (fuel j : Nat) → Nat
  | 0, j => j
  | fuel + 1, j => if den ≤ num * tenPow j then j else leadingZeros num den fuel (j + 1)

/-- the power of ten just above a positive value -/
def magnitude (num den : Nat) : Int :=
  if den ≤ num then ((Text.digits (num / den)).length : Int)
  else 1 - (leadingZeros num den 400 0 : Int)

/-- a grid point in the interval with `count` digits, if there is one -/
def onGrid (tie : Tie) (b : Binary) (count : Nat) : Option Decade :=
  let (num, den) := b.quarter (4 * b.mantissa)
  let power := magnitude num den - count
  -- in multiples of 10^power the value is up / down
  let up := if 0 ≤ power then num else num * tenPow (-power).toNat
  let down := if 0 ≤ power then den * tenPow power.toNat else den
  let t := up / down
  let inside (n : Nat) : Bool :=
    -- n · 10^power against (4m - below) / 4m and (4m + 2) / 4m of the value
    let below := if b.narrowBelow then 1 else 2
    let lo := up * (4 * b.mantissa - below)
    let hi := up * (4 * b.mantissa + 2)
    let x := n * down * (4 * b.mantissa)
    if b.mantissa % 2 = 0 then lo ≤ x && x ≤ hi else lo < x && x < hi
  if inside t && inside (t + 1) then some ⟨nearestQuotient tie up down, power⟩
  else if inside t then some ⟨t, power⟩
  else if inside (t + 1) then some ⟨t + 1, power⟩
  else none

end Binary

/-- the same decimal without zeros at the end of its digits -/
def Decade.trimmed (d : Decade) : (fuel : Nat) → Decade
  | 0 => d
  | fuel + 1 =>
    if d.digits ≠ 0 ∧ d.digits % 10 = 0 then Decade.trimmed ⟨d.digits / 10, d.power + 1⟩ fuel else d

/-- the shortest decimal that reads back as a positive double -/
def Binary.shortest (tie : Tie) (b : Binary) : Decade :=
  (((List.range 17).findSome? fun i => b.onGrid tie (i + 1)).getD ⟨0, 0⟩).trimmed 20

/-! ## Text -/

/-- digits with a point after the first `n` of them, zeros filled in -/
def placePoint (ds : List Char) (n : Int) : String :=
  if n ≤ 0 then "0." ++ String.ofList (List.replicate (-n).toNat '0' ++ ds)
  else if n.toNat < ds.length then String.ofList (ds.take n.toNat) ++ "." ++ String.ofList (ds.drop n.toNat)
  else String.ofList (ds ++ List.replicate (n.toNat - ds.length) '0')

/-- positional between 10⁻⁵ and 10¹⁶, whole numbers with `.0`; with an exponent elsewhere -/
def Decade.scientificText (d : Decade) : String :=
  let ds := Text.digits d.digits
  let point := (ds.length : Int) + d.power
  if 0 ≤ d.power ∧ point ≤ 16 then placePoint ds point ++ ".0"
  else if -5 < point ∧ point ≤ 16 then placePoint ds point
  else
    let mantissa := match ds with
      | [c] => String.ofList [c]
      | ds => placePoint ds 1
    mantissa ++ "e" ++ (if point < 1 then "-" else "") ++ String.ofList (Text.digits (point - 1).natAbs)

/-- digits and point only, no exponent -/
def Decade.positionalText (d : Decade) : String :=
  let ds := Text.digits d.digits
  placePoint ds ((ds.length : Int) + d.power)

namespace Double

/-- how a double is written -/
structure Style where
  tie : Tie
  write : Decade → String
  zero : String

/-- the text of a finite double in the given style; the rest have texts of their own -/
def textIn (style : Style) : Double → String
  | finite negative b =>
    (if negative then "-" else "") ++ (if b.mantissa = 0 then style.zero else style.write (b.shortest style.tie))
  | infinite negative => if negative then "-inf" else "inf"
  | notANumber => "NaN"

/-- the text of a double in a JSON text -/
def jsonText (d : Double) : String := d.textIn ⟨.toEven, Decade.scientificText, "0.0"⟩

/-- the text of a double shown to a reader -/
def plainText (d : Double) : String := d.textIn ⟨.up, Decade.positionalText, "0"⟩

end Double

end Brigade
