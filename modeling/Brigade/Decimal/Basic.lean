/-
Decimal numbers with a fixed room: a sign, a whole size below 2^96, and a scale of at most 28 places.

The value is coeff · 10⁻ˢᶜᵃˡᵉ, where `coeff` is the size with its sign. The scale is part of the number: 25.00 and 25 are
written differently. So is the sign, also of a zero: a number below zero that is too small for 28 places is read as a
zero with a minus (`withSign`). All other zeros are plain.

- `ofParts?` gives a decimal exactly when both limits hold (`ofParts?_isSome`); its zeros are plain.
- `dropDigits` drops the lowest digits of a coefficient, to the nearest whole number.
- `fit` drops the fewest digits that bring a coefficient and a scale inside the limits, a half to the even neighbour.

Products and sums are exact whenever there is room for the exact result (`mul_of_room`, `add_of_room`); otherwise the
fewest digits are dropped, and it is a fault if no place is left to drop. A product with zero is plain zero. A sum takes
the larger scale, but adding zero changes nothing, not even the scale.
-/
import Brigade.Arithmetic

namespace Brigade

/-- a decimal number: sign, size in units of the last place, and number of places -/
structure Decimal where
  negative : Bool
  size : Nat
  scale : Nat
  size_lt : size < two96
  scale_le : scale ≤ 28
deriving DecidableEq, Repr

namespace Decimal

def zero : Decimal := ⟨false, 0, 0, by decide, by decide⟩

instance : Inhabited Decimal := ⟨zero⟩

/-- the size with its sign -/
def coeff (d : Decimal) : Int := if d.negative then -(d.size : Int) else d.size

theorem natAbs_coeff (d : Decimal) : d.coeff.natAbs = d.size := by
  unfold coeff
  split <;> omega

/-- the decimal with these parts, if there is room for them -/
def ofParts? (c : Int) (s : Nat) : Option Decimal :=
  if h : c.natAbs < two96 ∧ s ≤ 28 then some ⟨decide (c < 0), c.natAbs, s, h.1, h.2⟩ else none

theorem ofParts?_isSome {c : Int} {s : Nat} : (ofParts? c s).isSome ↔ c.natAbs < two96 ∧ s ≤ 28 := by
  unfold ofParts?
  split
  · exact ⟨fun _ => ‹_›, fun _ => rfl⟩
  · exact ⟨fun h => (by cases h), fun h => absurd h ‹_›⟩

theorem coeff_scale_of_ofParts? {c : Int} {s : Nat} {d : Decimal} (h : ofParts? c s = some d) :
    d.coeff = c ∧ d.scale = s := by
  unfold ofParts? at h
  split at h
  · obtain rfl := Option.some.inj h
    refine ⟨?_, rfl⟩
    simp only [coeff, decide_eq_true_eq]
    split <;> omega
  · cases h

/-- a decimal is given back by its parts, unless it is a zero with a minus -/
theorem ofParts?_self {d : Decimal} (h : d.negative = true → d.size ≠ 0) : ofParts? d.coeff d.scale = some d := by
  obtain ⟨negative, size, scale, size_lt, scale_le⟩ := d
  unfold ofParts?
  rw [dif_pos ⟨by rw [natAbs_coeff]; exact size_lt, scale_le⟩]
  cases negative
  · simp [coeff]
  · have : size ≠ 0 := h rfl
    simp [coeff]
    omega

/-- the same size and scale under another sign -/
def withSign (negative : Bool) (d : Decimal) : Decimal := { d with negative := negative }

/-- the whole number of a 32-bit word -/
def ofInt32 (w : Int32) : Decimal :=
  ⟨decide (w.toInt < 0), w.toInt.natAbs, 0, by have := w.toInt_lt; have := w.le_toInt; unfold two96; omega, by decide⟩

def isZero (d : Decimal) : Bool := d.size == 0

/-- greater than zero -/
def Positive (d : Decimal) : Prop := 0 < d.coeff

instance (d : Decimal) : Decidable d.Positive := inferInstanceAs (Decidable (0 < d.coeff))

/-- a whole number with its `k` lowest digits dropped; the tie rule is about its size -/
def dropDigits (tie : Tie) (c : Int) (k : Nat) : Int := c.sign * nearestQuotient tie c.natAbs (tenPow k)

@[simp] theorem dropDigits_zero (tie : Tie) (c : Int) : dropDigits tie c 0 = c := by
  rw [dropDigits, tenPow_zero, nearestQuotient_one, Int.sign_mul_natAbs]

/-- the parts with the fewest digits dropped that leave room for them -/
def fit (c : Int) (s : Nat) : Option Decimal :=
  (List.range (s + 1)).findSome? fun k => ofParts? (dropDigits .toEven c k) (s - k)

/-- parts for which there is room are kept -/
theorem fit_eq_of_ofParts? {c : Int} {s : Nat} {d : Decimal} (h : ofParts? c s = some d) : fit c s = some d := by
  unfold fit
  rw [List.range_succ_eq_map, List.findSome?_cons]
  simp [h]

/-! ## Products and sums -/

variable {ε : Type}

/-- the product -/
def mul (a b : Decimal) : Outcome ε Decimal :=
  if a.isZero || b.isZero then .ok zero
  else match fit (a.coeff * b.coeff) (a.scale + b.scale) with
    | some d => .ok d
    | none => .fault .decimalProductTooLarge

/-- a coefficient written with `s` places -/
def coeffAt (d : Decimal) (s : Nat) : Int := d.coeff * tenPow (s - d.scale)

/-- the sum -/
def add (a b : Decimal) : Outcome ε Decimal :=
  if a.isZero then .ok b
  else if b.isZero then .ok a
  else
    let s := max a.scale b.scale
    match fit (a.coeffAt s + b.coeffAt s) s with
    | some d => .ok d
    | none => .fault .decimalSumTooLarge

/-- the sum of a list, from the left -/
def sum (ds : List Decimal) : Outcome ε Decimal := ds.foldlM add zero

theorem mul_of_room {a b d : Decimal} (ha : a.isZero = false) (hb : b.isZero = false)
    (h : ofParts? (a.coeff * b.coeff) (a.scale + b.scale) = some d) : (mul a b : Outcome ε Decimal) = .ok d := by
  simp [mul, ha, hb, fit_eq_of_ofParts? h]

theorem add_of_room {a b d : Decimal} (ha : a.isZero = false) (hb : b.isZero = false)
    (h : ofParts? (a.coeffAt (max a.scale b.scale) + b.coeffAt (max a.scale b.scale)) (max a.scale b.scale) = some d) :
    (add a b : Outcome ε Decimal) = .ok d := by
  simp [add, ha, hb, fit_eq_of_ofParts? h]

end Decimal

end Brigade
