/-
Which numbers there is room for.

A product or a sum is rounded to the fewest dropped digits that fit, and is a fault if none do. Dropping all places rounds
to a whole number, so there is room exactly for what rounds to a whole number below 2^96. The greatest whole number with
room is odd, so the half above it is even's to take: `HasRoom` is strict.
- `mul_ok_iff`, `add_ok_iff`: products and sums have an answer exactly if the exact result has room.
-/
import Mathlib.Tactic
import Brigade.Decimal.Basic

namespace Brigade

/-- an odd number is not taken at half a unit below the quotient: a tie would go to the even one above -/
theorem lt_of_nearestQuotient_odd {num den : Nat} (hden : 0 < den) (hodd : nearestQuotient .toEven num den % 2 = 1) :
    2 * num < 2 * (nearestQuotient .toEven num den * den) + den := by
  have hdiv := Nat.div_add_mod num den
  have hr := Nat.mod_lt num hden
  rw [Nat.mul_comm] at hdiv
  simp only [nearestQuotient, Tie.takesNext, beq_iff_eq] at hodd ⊢
  split at hodd
  · rw [if_pos ‹_›, Nat.add_mul]
    omega
  · rw [if_neg ‹_›]
    omega

/-- a quotient is rounded below an even number exactly if it is more than half a unit below it -/
theorem nearestQuotient_lt_iff {num den m : Nat} (hden : 0 < den) (hm : 0 < m) (heven : m % 2 = 0) :
    nearestQuotient .toEven num den < m ↔ 2 * num < (2 * m - 1) * den := by
  obtain ⟨k, rfl⟩ : ∃ k, m = k + 1 := ⟨m - 1, by omega⟩
  obtain ⟨hbelow, habove⟩ := nearestQuotient_close .toEven num hden
  have hhalf : (2 * (k + 1) - 1) * den = 2 * (k * den) + den := by
    rw [show 2 * (k + 1) - 1 = 2 * k + 1 by omega]
    ring
  have hodd := @lt_of_nearestQuotient_odd num den hden
  rw [hhalf]
  generalize nearestQuotient .toEven num den = n at *
  constructor
  · intro hlt
    rcases Nat.lt_or_eq_of_le (Nat.lt_succ_iff.1 hlt) with hn | rfl
    · have hmul : (n + 1) * den ≤ k * den := Nat.mul_le_mul_right den hn
      rw [Nat.add_mul] at hmul
      omega
    · -- the last one below is odd
      exact hodd (by omega)
  · intro hlt
    by_contra hn
    have hmul : (k + 1) * den ≤ n * den := Nat.mul_le_mul_right den (Nat.not_lt.1 hn)
    rw [Nat.add_mul] at hmul
    omega

namespace Decimal

/-- the number a decimal stands for -/
def toRat (d : Decimal) : ℚ := d.coeff / tenPow d.scale

/-- the number rounds to a whole number below 2^96 -/
def HasRoom (x : ℚ) : Prop := 2 * |x| < 2 * two96 - 1

variable {ε : Type} {a b : Decimal}

theorem tenPow_ne_zero (n : Nat) : (tenPow n : ℚ) ≠ 0 := Nat.cast_ne_zero.2 (tenPow_pos n).ne'

theorem abs_intCast (c : Int) : |(c : ℚ)| = c.natAbs := by rw [Nat.cast_natAbs, Int.cast_abs]

theorem hasRoom_zero : HasRoom 0 := by
  unfold HasRoom two96
  norm_num

/-- a decimal has room itself -/
theorem hasRoom_toRat (d : Decimal) : HasRoom d.toRat := by
  have hscale : (1 : ℚ) ≤ tenPow d.scale := by exact_mod_cast tenPow_pos d.scale
  have hsize : |(d.coeff : ℚ)| ≤ two96 - 1 := by
    have hlt : (d.coeff.natAbs : ℚ) + 1 ≤ two96 := by
      rw [natAbs_coeff]
      exact_mod_cast d.size_lt
    rw [abs_intCast]
    linarith
  have hle : |d.toRat| ≤ |(d.coeff : ℚ)| := by
    rw [toRat, abs_div, abs_of_nonneg (by linarith : (0 : ℚ) ≤ tenPow d.scale)]
    exact div_le_self (abs_nonneg _) hscale
  unfold HasRoom
  linarith

/-! ## Dropping digits -/

theorem natAbs_dropDigits (c : Int) (k : Nat) :
    (dropDigits .toEven c k).natAbs = nearestQuotient .toEven c.natAbs (tenPow k) := by
  unfold dropDigits
  rw [Int.natAbs_mul, Int.natAbs_natCast]
  rcases eq_or_ne c 0 with rfl | hc
  · simp [nearestQuotient, Tie.takesNext]
  · rw [Int.natAbs_sign_of_ne_zero hc, Nat.one_mul]

/-- the digits left after dropping `k` fit exactly if the number they stand for has room with that many fewer places -/
theorem natAbs_dropDigits_lt_iff {c : Int} {k : Nat} :
    (dropDigits .toEven c k).natAbs < two96 ↔ 2 * c.natAbs < (2 * two96 - 1) * tenPow k := by
  rw [natAbs_dropDigits]
  exact nearestQuotient_lt_iff (tenPow_pos k) (by decide) (by decide)

theorem tenPow_mono {m n : Nat} (h : m ≤ n) : tenPow m ≤ tenPow n := Nat.pow_le_pow_right (by decide) h

/-- if the digits fit at all, they fit with no places left -/
theorem fit_isSome_iff {c : Int} {s : Nat} : (fit c s).isSome = true ↔ 2 * c.natAbs < (2 * two96 - 1) * tenPow s := by
  unfold fit
  rw [List.findSome?_isSome_iff]
  constructor
  · rintro ⟨k, hk, hsome⟩
    have hfit := natAbs_dropDigits_lt_iff.1 (ofParts?_isSome.1 hsome).1
    have hks : k ≤ s := Nat.lt_succ_iff.1 (List.mem_range.1 hk)
    exact hfit.trans_le (Nat.mul_le_mul_left _ (tenPow_mono hks))
  · intro h
    exact ⟨s, List.mem_range.2 (Nat.lt_succ_self s), ofParts?_isSome.2 ⟨natAbs_dropDigits_lt_iff.2 h, by omega⟩⟩

/-- digits and places fit exactly if the number they stand for has room -/
theorem fit_isSome_iff_hasRoom {c : Int} {s : Nat} : (fit c s).isSome = true ↔ HasRoom ((c : ℚ) / tenPow s) := by
  have hpos : (0 : ℚ) < tenPow s := by exact_mod_cast tenPow_pos s
  have hcast : ((2 * c.natAbs : ℕ) : ℚ) < ((2 * two96 - 1) * tenPow s : ℕ) ↔ HasRoom ((c : ℚ) / tenPow s) := by
    have habs : |(c : ℚ) / tenPow s| = (c.natAbs : ℚ) / tenPow s := by
      rw [abs_div, abs_of_pos hpos, abs_intCast]
    unfold HasRoom
    rw [habs, ← mul_div_assoc, div_lt_iff₀ hpos]
    unfold two96
    norm_num
  rw [fit_isSome_iff, ← hcast, Nat.cast_lt]

/-! ## Products and sums -/

theorem toRat_eq_zero_of_isZero (h : a.isZero = true) : a.toRat = 0 := by
  have hsize : a.size = 0 := by simpa [isZero] using h
  have hcoeff : a.coeff = 0 := by
    rw [← Int.natAbs_eq_zero, natAbs_coeff]
    exact hsize
  rw [toRat, hcoeff, Int.cast_zero, zero_div]

/-- a product has an answer exactly if it has room -/
theorem mul_ok_iff : (∃ d, (a.mul b : Outcome ε Decimal) = .ok d) ↔ HasRoom (a.toRat * b.toRat) := by
  unfold mul
  by_cases hz : (a.isZero || b.isZero) = true
  · have hprod : a.toRat * b.toRat = 0 := by
      rcases Bool.or_eq_true_iff.1 hz with ha | hb
      · rw [toRat_eq_zero_of_isZero ha, zero_mul]
      · rw [toRat_eq_zero_of_isZero hb, mul_zero]
    rw [if_pos hz, hprod]
    exact ⟨fun _ => hasRoom_zero, fun _ => ⟨zero, rfl⟩⟩
  · have hprod : a.toRat * b.toRat = ((a.coeff * b.coeff : ℤ) : ℚ) / tenPow (a.scale + b.scale) := by
      have hpow : (tenPow (a.scale + b.scale) : ℚ) = tenPow a.scale * tenPow b.scale := by
        exact_mod_cast Nat.pow_add 10 a.scale b.scale
      rw [toRat, toRat, div_mul_div_comm, hpow, Int.cast_mul]
    rw [if_neg hz, hprod, ← fit_isSome_iff_hasRoom]
    cases hfit : fit (a.coeff * b.coeff) (a.scale + b.scale) <;> simp

/-- a decimal written with more places is the same number -/
theorem coeffAt_div {s : Nat} (h : a.scale ≤ s) : (a.coeffAt s : ℚ) / tenPow s = a.toRat := by
  obtain ⟨k, rfl⟩ := Nat.exists_eq_add_of_le h
  have hpow : (tenPow (a.scale + k) : ℚ) = tenPow a.scale * tenPow k := by exact_mod_cast Nat.pow_add 10 a.scale k
  rw [coeffAt, Nat.add_sub_cancel_left, hpow, toRat, Int.cast_mul, Int.cast_natCast,
    mul_div_mul_right _ _ (tenPow_ne_zero k)]

/-- a sum has an answer exactly if it has room -/
theorem add_ok_iff : (∃ d, (a.add b : Outcome ε Decimal) = .ok d) ↔ HasRoom (a.toRat + b.toRat) := by
  unfold add
  by_cases ha : a.isZero = true
  · rw [if_pos ha, toRat_eq_zero_of_isZero ha, zero_add]
    exact ⟨fun _ => hasRoom_toRat b, fun _ => ⟨b, rfl⟩⟩
  · rw [if_neg ha]
    by_cases hb : b.isZero = true
    · rw [if_pos hb, toRat_eq_zero_of_isZero hb, add_zero]
      exact ⟨fun _ => hasRoom_toRat a, fun _ => ⟨a, rfl⟩⟩
    · rw [if_neg hb, ← coeffAt_div (le_max_left a.scale b.scale), ← coeffAt_div (le_max_right a.scale b.scale),
        ← add_div, ← Int.cast_add, ← fit_isSome_iff_hasRoom]
      cases hfit : fit (a.coeffAt (max a.scale b.scale) + b.coeffAt (max a.scale b.scale)) (max a.scale b.scale) <;>
        simp [hfit]

/-- the number of a 32-bit word -/
theorem toRat_ofInt32 (w : Int32) : (ofInt32 w).toRat = w.toInt := by
  have hcoeff : (ofInt32 w).coeff = w.toInt := by
    simp only [coeff, ofInt32, decide_eq_true_eq]
    split <;> omega
  rw [toRat, hcoeff]
  simp [ofInt32]

end Decimal

end Brigade
