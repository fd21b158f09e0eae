/-
What the stamp in an order number tells: the second that is shown, and nothing more.

The count of days goes back from every date it gives (`daysOf_ofDays`), so dates tell days apart. Numbers with leading
zeros tell numbers apart, and years have no form in common with and without a sign. So two stamps are the same exactly if
their times show the same second (`stamp_eq_iff`); what is left of a second is lost.
-/
import Brigade.Order.Basic
import Brigade.Proofs.TextForms
import Brigade.Time.Text
import Mathlib.Tactic.IntervalCases

namespace Brigade

open Brigade.Text

/-! ## Days -/

namespace Date

/-- the century of a day within 400 years: only the last day comes after four full centuries -/
theorem century_eq {n y : Int} (h0 : 0 ≤ n) (h1 : n < 146097)
    (hy : y = (n - n / 1460 + n / 36524 - n / 146096) / 365) : y / 100 = n / 36524 - n / 146096 := by
  have hfour : n / 146096 = if n / 36524 = 4 then 1 else 0 := by split <;> omega
  obtain ⟨hl, hu⟩ : 0 ≤ n / 36524 ∧ n / 36524 ≤ 4 := by omega
  generalize hb : n / 36524 = b at *
  interval_cases b <;> simp at hfour <;> omega

/-- the year of a day within 400 years, and the day within that year -/
theorem yearOfEra_bounds {n y : Int} (h0 : 0 ≤ n) (h1 : n < 146097)
    (hy : y = (n - n / 1460 + n / 36524 - n / 146096) / 365) :
    0 ≤ y ∧ y ≤ 399 ∧ 0 ≤ n - (365 * y + y / 4 - y / 100) ∧ n - (365 * y + y / 4 - y / 100) ≤ 366 := by
  have hcenturies := century_eq h0 h1 hy
  have hleap : y / 4 ≤ n / 1460 := by omega
  refine ⟨by omega, by omega, by omega, by omega⟩

/-- the count of the day `w` of the year `y`, counted from March, of the 400 years `e` -/
theorem daysOf_ofParts {e y w m : Int} (hy0 : 0 ≤ y) (hy1 : y ≤ 399) (hw0 : 0 ≤ w) (hw1 : w ≤ 366)
    (hm : m = (5 * w + 2) / 153) :
    daysOf ⟨if (if m < 10 then m + 3 else m - 9) ≤ 2 then y + e * 400 + 1 else y + e * 400,
        (if m < 10 then m + 3 else m - 9).toNat, (w - (153 * m + 2) / 5 + 1).toNat⟩ =
      e * 146097 + (y * 365 + y / 4 - y / 100 + w) - 719468 := by
  have hm0 : 0 ≤ m ∧ m ≤ 11 := by omega
  have hday : 1 ≤ w - (153 * m + 2) / 5 + 1 := by omega
  have hera : (y + e * 400) / 400 = e ∧ (y + e * 400) % 400 = y := by omega
  obtain ⟨hera, hyear⟩ := hera
  rcases lt_or_ge m 10 with h | h
  · -- from March on
    have hmonth : ¬m + 3 ≤ 2 := by omega
    have hmonth' : ¬(m + 3).toNat ≤ 2 := by omega
    simp only [daysOf, if_pos h, if_neg hmonth, if_neg hmonth', hera, hyear]
    omega
  · -- January and February belong to the next year
    have hmonth : m - 9 ≤ 2 := by omega
    have hmonth' : (m - 9).toNat ≤ 2 := by omega
    simp only [daysOf, if_neg (not_lt.2 h), if_pos hmonth, if_pos hmonth', Int.add_sub_cancel, hera, hyear]
    omega

theorem daysOf_ofDays (n : Int) : daysOf (ofDays n) = n := by
  obtain ⟨hy0, hy1, hw0, hw1⟩ := yearOfEra_bounds (n := (n + 719468) % 146097) (by omega) (by omega) rfl
  refine (daysOf_ofParts hy0 hy1 hw0 hw1 rfl).trans ?_
  omega

theorem ofDays_injective : Function.Injective ofDays := fun m n h => by
  rw [← daysOf_ofDays m, h, daysOf_ofDays]

/-- months and days have two digits -/
theorem ofDays_lt (n : Int) : (ofDays n).month < 100 ∧ (ofDays n).day < 100 := by
  obtain ⟨-, -, hw0, hw1⟩ := yearOfEra_bounds (n := (n + 719468) % 146097) (by omega) (by omega) rfl
  have hmonth : ∀ w m : Int, 0 ≤ w → w ≤ 366 → m = (5 * w + 2) / 153 →
      (if m < 10 then m + 3 else m - 9).toNat < 100 ∧ (w - (153 * m + 2) / 5 + 1).toNat < 100 := by
    intro w m hw0 hw1 hm
    split <;> omega
  exact hmonth _ _ hw0 hw1 rfl

end Date

/-! ## Numbers with leading zeros -/

theorem toList_padded (w n : Nat) :
    (padded w n).toList = List.replicate (w - (digits n).length) '0' ++ digits n := String.toList_ofList

theorem padded_injective (w : Nat) : Function.Injective (padded w) := by
  have hvalue : ∀ n, Nat.ofDigitChars 10 (padded w n).toList 0 = n := by
    intro n
    rw [toList_padded, Nat.ofDigitChars_append, Nat.ofDigitChars_replicate_zero, Nat.mul_zero]
    exact Nat.ofDigitChars_toDigits (by decide) (by decide)
  intro m n h
  rw [← hvalue m, h, hvalue]

theorem length_padded {w n : Nat} (hw : 0 < w) (h : n < 10 ^ w) : (padded w n).toList.length = w := by
  have hlength : (digits n).length ≤ w := (Nat.length_toDigits_le_iff (by decide) hw).2 h
  rw [toList_padded, List.length_append, List.length_replicate]
  omega

theorem isDigit_of_mem_padded {w n : Nat} {c : Char} (h : c ∈ (padded w n).toList) : c.isDigit = true := by
  rw [toList_padded] at h
  rcases List.mem_append.1 h with h | h
  · rw [List.eq_of_mem_replicate h]
    decide
  · exact isDigit_of_mem_digits h

/-! ## Stamps -/

namespace Timestamp

/-- a year that has a sign -/
theorem toList_yearText_of_signed {y : Int} (h : ¬(0 ≤ y ∧ y ≤ 9999)) :
    (yearText y).toList = (if y < 0 then '-' else '+') :: (padded 4 y.natAbs).toList := by
  rw [yearText, if_neg h, String.toList_append]
  split <;> rfl

theorem yearText_injective : Function.Injective yearText := by
  intro y z h
  -- a sign is no digit
  have hsigned : ∀ y z, (0 ≤ y ∧ y ≤ 9999) → ¬(0 ≤ z ∧ z ≤ 9999) → yearText y ≠ yearText z := by
    intro y z hy hz heq
    have hlist := congrArg String.toList heq
    rw [toList_yearText_of_signed hz, yearText, if_pos hy] at hlist
    have hdigit := isDigit_of_mem_padded (hlist ▸ List.mem_cons_self)
    split at hdigit <;> revert hdigit <;> decide
  by_cases hy : 0 ≤ y ∧ y ≤ 9999 <;> by_cases hz : 0 ≤ z ∧ z ≤ 9999
  · rw [yearText, if_pos hy, yearText, if_pos hz] at h
    have := padded_injective 4 h
    omega
  · exact absurd h (hsigned y z hy hz)
  · exact absurd h.symm (hsigned z y hz hy)
  · have hlist := congrArg String.toList h
    rw [toList_yearText_of_signed hy, toList_yearText_of_signed hz] at hlist
    obtain ⟨hsign, hpadded⟩ := List.cons.inj hlist
    have hsize := padded_injective 4 (String.toList_injective hpadded)
    split at hsign <;> split at hsign
    · omega
    · exact absurd hsign (by decide)
    · exact absurd hsign (by decide)
    · omega

/-- the parts of a time that a stamp shows have two digits -/
theorem parts_lt (t : Timestamp) :
    t.date.month < 100 ∧ t.date.day < 100 ∧ t.hour < 100 ∧ t.minute < 100 ∧ t.second < 100 := by
  have hnanos := t.nanos_lt
  have hday : t.secondOfDay < 86400 := by
    unfold secondOfDay secondsPerDay
    omega
  refine ⟨(Date.ofDays_lt _).1, (Date.ofDays_lt _).2, ?_, ?_, ?_⟩
  · unfold hour
    omega
  · unfold minute
    omega
  · unfold second billion at *
    omega

theorem toList_stamp (t : Timestamp) :
    t.stamp.toList = (yearText t.date.year).toList ++ ((padded 2 t.date.month).toList ++ ((padded 2 t.date.day).toList ++
      ("-".toList ++ ((padded 2 t.hour).toList ++ ((padded 2 t.minute).toList ++ (padded 2 t.second).toList))))) := by
  simp only [stamp, String.toList_append, List.append_assoc]

/-- two texts of the same length that go on the same way are the same number -/
theorem padded_append_inj {m n : Nat} {xs ys : List Char} (hm : m < 100) (hn : n < 100)
    (h : (padded 2 m).toList ++ xs = (padded 2 n).toList ++ ys) : m = n ∧ xs = ys := by
  have hlength : (padded 2 m).toList.length = (padded 2 n).toList.length := by
    rw [length_padded (by decide) hm, length_padded (by decide) hn]
  obtain ⟨hpadded, hrest⟩ := List.append_inj h hlength
  exact ⟨padded_injective 2 (String.toList_injective hpadded), hrest⟩

/-- what a stamp shows can be read off it -/
theorem parts_of_stamp_eq {a b : Timestamp} (h : a.stamp = b.stamp) :
    a.date = b.date ∧ a.hour = b.hour ∧ a.minute = b.minute ∧ a.second = b.second := by
  obtain ⟨hmo, hd, hh, hmi, hs⟩ := a.parts_lt
  obtain ⟨hmo', hd', hh', hmi', hs'⟩ := b.parts_lt
  have h := congrArg String.toList h
  rw [toList_stamp, toList_stamp] at h
  -- all but the year has the same length
  obtain ⟨hyear, h⟩ := List.append_inj' h (by
    simp only [List.length_append, length_padded (w := 2) (by decide) hmo, length_padded (w := 2) (by decide) hd,
      length_padded (w := 2) (by decide) hh, length_padded (w := 2) (by decide) hmi,
      length_padded (w := 2) (by decide) hs, length_padded (w := 2) (by decide) hmo',
      length_padded (w := 2) (by decide) hd', length_padded (w := 2) (by decide) hh',
      length_padded (w := 2) (by decide) hmi', length_padded (w := 2) (by decide) hs'])
  obtain ⟨hmonth, h⟩ := padded_append_inj hmo hmo' h
  obtain ⟨hday, h⟩ := padded_append_inj hd hd' h
  obtain ⟨hhour, h⟩ := padded_append_inj hh hh' (List.append_cancel_left h)
  obtain ⟨hminute, h⟩ := padded_append_inj hmi hmi' h
  have hsecond := padded_injective 2 (String.toList_injective h)
  have hdate : a.date = b.date := by
    have hyear := yearText_injective (String.toList_injective hyear)
    generalize a.date = d at *
    generalize b.date = d' at *
    obtain ⟨y, m, n⟩ := d
    obtain ⟨y', m', n'⟩ := d'
    simp_all
  exact ⟨hdate, hhour, hminute, hsecond⟩

/-- the minute, counted from the first one, and the second that a clock shows -/
def shown (t : Timestamp) : Int × Nat := (t.seconds / 60, t.second)

/-- two stamps are the same exactly if their times show the same second -/
theorem stamp_eq_iff {a b : Timestamp} : a.stamp = b.stamp ↔ a.shown = b.shown := by
  constructor
  · intro h
    obtain ⟨hdate, hhour, hminute, hsecond⟩ := parts_of_stamp_eq h
    have hday : a.seconds / secondsPerDay = b.seconds / secondsPerDay := Date.ofDays_injective hdate
    refine Prod.ext ?_ hsecond
    change a.seconds / 60 = b.seconds / 60
    unfold hour minute secondOfDay secondsPerDay at *
    omega
  · intro h
    obtain ⟨hminutes, hsecond⟩ := Prod.mk.inj h
    have hday : a.seconds / secondsPerDay = b.seconds / secondsPerDay := by
      unfold secondsPerDay
      omega
    have hdate : a.date = b.date := congrArg Date.ofDays hday
    have hhour : a.hour = b.hour := by
      unfold hour secondOfDay secondsPerDay
      omega
    have hminute : a.minute = b.minute := by
      unfold minute secondOfDay secondsPerDay
      omega
    rw [stamp, stamp, hdate, hhour, hminute, hsecond]

end Timestamp

/-- two order numbers are the same exactly if they were made in the same second -/
theorem Order.numberAt_eq_iff {front : String} {a b : Timestamp} :
    numberAt front a = numberAt front b ↔ a.shown = b.shown := by
  rw [← Timestamp.stamp_eq_iff, numberAt, numberAt]
  refine ⟨fun h => ?_, fun h => by rw [h]⟩
  have h := congrArg String.toList h
  generalize front ++ "-" = start at h
  rw [String.toList_append, String.toList_append] at h
  exact String.toList_injective (List.append_cancel_left h)

end Brigade
