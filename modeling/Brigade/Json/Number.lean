/-
What a numeral stands for.

Whole numbers of 64 bits (unsigned, or signed below zero) stand for themselves. Every other numeral stands for a
double: its first digits, as many as 64 bits hold, times a power of ten, in double arithmetic. Minus zero is a double. A
numeral may also be too large for any double.
-/
import Brigade.Json.Basic
import Brigade.Double.Shortest
import Brigade.Json.Scan

namespace Brigade

open Brigade.Text

/-- the number a numeral stands for -/
inductive NumberValue where
  | whole (i : Int)
  | double (f : Float)
  | tooLarge

namespace Numeral

/-- digits that 64 bits hold after `n`, and the digits left over -/
def absorb (n : Nat) : List Char → Nat × List Char
  | [] => (n, [])
  | c :: cs =>
    let m := n * 10 + (c.toNat - '0'.toNat)
    if m < two64 then absorb m cs else (n, c :: cs)

/-- the largest exponent that is read as a number -/
def maxExponent : Int := 2147483647

/-- `f` times ten to `e`, by steps of 10³⁰⁸ while the power is too small for a double -/
def scaleByTen (f : Float) (e : Int) : (fuel : Nat) → Option Float
  | 0 => some f
  | fuel + 1 =>
    if e.natAbs ≤ 308 then
      let p := Float.ofScientific 1 false e.natAbs
      if 0 ≤ e then (if (f * p).isInf then none else some (f * p)) else some (f / p)
    else if f == 0.0 then some f
    else if 0 ≤ e then none
    else scaleByTen (f / 1e308) (e + 308) fuel

/-- the double of a coefficient and a power of ten, with its sign -/
def toDouble (negative : Bool) (n : Nat) (e : Int) : NumberValue :=
  match scaleByTen n.toUInt64.toFloat e 10 with
  | some f => .double (if negative then -f else f)
  | none => .tooLarge

/-- a written exponent applied to a coefficient at a power of ten -/
def withExponent (negative : Bool) (n : Nat) (start : Int) (x : Int) : NumberValue :=
  if x.natAbs ≤ maxExponent.natAbs then
    toDouble negative n (max (-maxExponent - 1) (min maxExponent (start + x)))
  else if n ≠ 0 ∧ 0 < x then .tooLarge
  else .double (if negative then -0.0 else 0.0)

/-- the number a numeral stands for -/
def value (l : Numeral) : NumberValue :=
  let (n, dropped) := absorb 0 (digits l.whole)
  if dropped.isEmpty && l.fraction.isEmpty && l.exponent.isNone then
    if !l.negative then .whole n
    else if n = 0 ∨ two63 < n then .double (-(n.toUInt64.toFloat))
    else .whole (-(n : Int))
  else
    let (m, surplus) := absorb n l.fraction
    let power : Int := dropped.length - (l.fraction.length - surplus.length : Nat)
    match l.exponent with
    | some x => withExponent l.negative m power x
    | none => toDouble l.negative m power

/-- the numeral of a double's shortest text -/
def ofDouble (f : Float) : Numeral :=
  match Json.Scan.number (Double.ofFloat f).jsonText.toList with
  | some (n, _) => n
  | none => Numeral.ofInt 0

end Numeral

end Brigade
