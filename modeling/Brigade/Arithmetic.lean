/-
Arithmetic on whole numbers: powers of two and of ten, quotients to the nearest whole number, and 32-bit sums.

The bounds of machine numbers and decimals are powers of two, written out here once (`two64_eq` and its like say which
power each is). Shifting a number by binary or decimal places is multiplying by `twoPow` or `tenPow`.

A quotient goes to the nearest whole number; of two equally near ones the tie rule takes one. It is within half a unit of
the quotient, whatever the tie rule (`nearestQuotient_close`).

Versions, percentages and quantities are 32-bit words. A sum that leaves the word is a fault and never wraps
(`Word.addExact_eq_ok`: an answer is the integer sum).
-/
import Brigade.Operation

namespace Brigade

/-! ## Powers -/

def twoPow (n : Nat) : Nat := Nat.pow 2 n

def tenPow (n : Nat) : Nat := Nat.pow 10 n

theorem twoPow_pos (n : Nat) : 0 < twoPow n := Nat.pow_pos (by decide)

theorem tenPow_pos (n : Nat) : 0 < tenPow n := Nat.pow_pos (by decide)

@[simp] theorem tenPow_zero : tenPow 0 = 1 := rfl

/-! ## Bounds -/

abbrev two31 : Nat := 2147483648

abbrev two32 : Nat := 4294967296

abbrev two52 : Nat := 4503599627370496

abbrev two53 : Nat := 9007199254740992

abbrev two63 : Nat := 9223372036854775808

abbrev two64 : Nat := 18446744073709551616

abbrev two96 : Nat := 79228162514264337593543950336

/-- nanoseconds in a second -/
abbrev billion : Nat := 1000000000

theorem two31_eq : two31 = twoPow 31 := by decide

theorem two32_eq : two32 = twoPow 32 := by decide

theorem two52_eq : two52 = twoPow 52 := by decide

theorem two53_eq : two53 = twoPow 53 := by decide

theorem two63_eq : two63 = twoPow 63 := by decide

theorem two64_eq : two64 = twoPow 64 := by decide

theorem two96_eq : two96 = twoPow 96 := by decide

theorem billion_eq : billion = tenPow 9 := by decide

/-! ## The nearest whole number -/

/-- which of two equally near numbers is taken: the even one, or the greater -/
inductive Tie where
  | toEven
  | up
deriving DecidableEq, Repr

/-- whether a tie between `n` and `n + 1` goes to `n + 1` -/
def Tie.takesNext (tie : Tie) (n : Nat) : Bool :=
  match tie with
  | toEven => n % 2 == 1
  | up => true

/-- a quotient to the nearest whole number -/
def nearestQuotient (tie : Tie) (num den : Nat) : Nat :=
  let q := num / den
  let r := num % den
  if den < 2 * r ∨ (2 * r = den ∧ tie.takesNext q) then q + 1 else q

@[simp] theorem nearestQuotient_one (tie : Tie) (n : Nat) : nearestQuotient tie n 1 = n := by
  simp only [nearestQuotient, Nat.div_one, Nat.mod_one]
  rw [if_neg (by omega)]

/-- multiplied back, the whole number is at most half a unit away -/
theorem nearestQuotient_close (tie : Tie) (num : Nat) {den : Nat} (h : 0 < den) :
    2 * num ≤ 2 * (nearestQuotient tie num den * den) + den ∧
      2 * (nearestQuotient tie num den * den) ≤ 2 * num + den := by
  have hd := Nat.div_add_mod num den
  have hlt := Nat.mod_lt num h
  rw [Nat.mul_comm] at hd
  simp only [nearestQuotient]
  split
  · rw [Nat.add_mul]; omega
  · omega

/-! ## 32-bit words -/

namespace Word

/-- the word of an integer, if the integer fits -/
def ofInt? (i : Int) : Option Int32 :=
  if Int32.minValue.toInt ≤ i ∧ i ≤ Int32.maxValue.toInt then some (Int32.ofInt i) else none

theorem toInt_of_ofInt? {i : Int} {w : Int32} (h : ofInt? i = some w) : w.toInt = i := by
  unfold ofInt? at h
  split at h
  · rename_i hi
    obtain rfl := Option.some.inj h
    exact Int32.toInt_ofInt_of_le hi.1 (Int.lt_of_le_of_lt hi.2 (by decide))
  · cases h

theorem ofInt?_toInt (w : Int32) : ofInt? w.toInt = some w := by
  unfold ofInt?
  rw [if_pos ⟨Int32.minValue_le_toInt w, Int32.toInt_le w⟩]
  simp

/-- the exact sum -/
def addExact {ε : Type} (a b : Int32) : Outcome ε Int32 :=
  match ofInt? (a.toInt + b.toInt) with
  | some w => .ok w
  | none => .fault .additionOutOfRange

/-- the exact difference -/
def subExact {ε : Type} (a b : Int32) : Outcome ε Int32 :=
  match ofInt? (a.toInt - b.toInt) with
  | some w => .ok w
  | none => .fault .subtractionOutOfRange

theorem addExact_eq_ok {ε : Type} {a b w : Int32} (h : (addExact a b : Outcome ε Int32) = .ok w) :
    w.toInt = a.toInt + b.toInt := by
  unfold addExact at h
  split at h
  · rename_i hs
    obtain rfl := Outcome.ok.inj h
    exact toInt_of_ofInt? hs
  · cases h

/-- the exact sum of a list, added from the left -/
def sumExact {ε : Type} (xs : List Int32) : Outcome ε Int32 :=
  xs.foldlM addExact 0

end Word

end Brigade
