/-
Doubles taken apart.

A finite double is a sign and mantissa · 2^exponent; the others are the infinities and what is no number. Taken apart,
a double is exact: comparing, rounding and writing it is arithmetic on naturals.

`ofQuotient` goes from an exact quotient to the double next to it, of two equally near the one with an even mantissa.
`toNat64` goes to the nearest natural of 64 bits, halves up; what lies outside becomes the nearest end.
-/
import Brigade.Arithmetic

namespace Brigade

/-- the magnitude of a finite double: mantissa · 2^exponent -/
structure Binary where
  mantissa : Nat
  exponent : Int
  /-- the gap below is half the gap above -/
  narrowBelow : Bool
deriving DecidableEq, Repr

/-- mantissa · 2^exponent to the nearest natural, a half up -/
def Binary.toNat (b : Binary) : Nat :=
  if 0 ≤ b.exponent then b.mantissa * twoPow b.exponent.toNat
  else (2 * b.mantissa + twoPow (-b.exponent).toNat) / twoPow ((-b.exponent).toNat + 1)

/-- a double taken apart -/
inductive Double where
  | finite (negative : Bool) (b : Binary)
  | infinite (negative : Bool)
  | notANumber
deriving DecidableEq, Repr

namespace Double

def ofFloat (f : Float) : Double :=
  let bits : Nat := f.toBits.toNat
  let negative := bits / two63 == 1
  let e : Nat := bits / two52 % 2048
  let frac : Nat := bits % two52
  if e = 2047 then (if frac = 0 then .infinite negative else .notANumber)
  else if e = 0 then .finite negative ⟨frac, -1074, false⟩
  else .finite negative ⟨two52 + frac, (e : Int) - 1075, frac = 0 ∧ 1 < e⟩

/-! ## From a quotient -/

/-- the exponent of the smallest doubles -/
def leastExponent : Int := -1074

/-- the exponent of the largest doubles -/
def greatestExponent : Int := 971

/-- num / den in units of 2^q, as a quotient -/
def inUnits (num den : Nat) (q : Int) : Nat × Nat :=
  if 0 ≤ q then (num, den * twoPow q.toNat) else (num * twoPow (-q).toNat, den)

/-- the exponent that gives num / den a mantissa of 53 bits, or the least one -/
def exponentFor (num den : Nat) : Int :=
  let q : Int := (num.log2 : Int) - den.log2 - 52
  let (n, d) := inUnits num den q
  max leastExponent (if n < d * two52 then q - 1 else q)

/-- the double next to num / den -/
def ofQuotient (negative : Bool) (num den : Nat) : Double :=
  if num = 0 then finite negative ⟨0, leastExponent, false⟩
  else
    let q := exponentFor num den
    let (n, d) := inUnits num den q
    let m := nearestQuotient .toEven n d
    let b : Binary := if m = two53 then ⟨two52, q + 1, true⟩ else ⟨m, q, m = two52 ∧ leastExponent < q⟩
    if greatestExponent < b.exponent then infinite negative else finite negative b

/-- the double next to n · 10^e; far outside the range of doubles no power is computed -/
def ofDecimal (negative : Bool) (n : Nat) (e : Int) : Double :=
  if n = 0 ∨ e < -400 - n.log2 then finite negative ⟨0, leastExponent, false⟩
  else if 309 < e then infinite negative
  else if 0 ≤ e then ofQuotient negative (n * tenPow e.toNat) 1
  else ofQuotient negative n (tenPow (-e).toNat)

/-! ## To a natural -/

def isZero : Double → Bool
  | finite _ b => b.mantissa == 0
  | _ => false

/-- the nearest natural of 64 bits -/
def toNat64 : Double → Nat
  | finite true _ => 0
  | finite false b => min b.toNat (two64 - 1)
  | infinite negative => if negative then 0 else two64 - 1
  | notANumber => 0

end Double

end Brigade
