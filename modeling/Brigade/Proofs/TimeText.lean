/-
Times that are read back from their text.

A text shows the date, the clock and the places of a second, and all of them are read off it (`takeReading_text`). Days are
dates of the calendar (`valid_ofDays`), so the reading stands for the time itself, with two exceptions: a year that is not
covered, and a leap second that does not end a minute (`ofText?_text_iff`). No text is read as such a time
(`onClock_of_ofText?`).
-/
import Brigade.Proofs.JsonText
import Brigade.Proofs.Stamps

namespace Brigade

open Brigade.Text

/-! ## Dates of the calendar -/

namespace Date

/-- a year has 365 days, and one more if it ends in February of a leap year -/
theorem dayOfYear_le {n y w : Int} (h0 : 0 ≤ n) (h1 : n < 146097)
    (hy : y = (n - n / 1460 + n / 36524 - n / 146096) / 365) (hw : w = n - (365 * y + y / 4 - y / 100)) :
    w ≤ 364 ∨ w = 365 ∧ isLeapYear (y + 1) = true := by
  have hcentury := century_eq h0 h1 hy
  generalize hc : n / 36524 - n / 146096 = c at hcentury
  have hrest : 0 ≤ n - n / 1460 + c - 365 * y ∧ n - n / 1460 + c - 365 * y ≤ 364 := by omega
  have hquarter : n / 1460 = y / 4 ∨ n / 1460 = y / 4 + 1 := by omega
  rcases hquarter with hq | hq
  · left
    omega
  · by_cases hlast : w ≤ 364
    · exact .inl hlast
    · right
      have hlast : n - n / 1460 + c - 365 * y = 364 := by omega
      have hthree : y % 4 = 3 := by omega
      have hday : n = 1460 * (y / 4 + 1) + y / 4 - c := by omega
      refine ⟨by omega, ?_⟩
      have hhundred : (y + 1) % 100 ≠ 0 ∨ (y + 1) % 400 = 0 := by
        omega
      simp [isLeapYear]
      omega

/-- the month and the day of a day counted from March are those of a calendar, whose year ends in `y` -/
theorem month_day_of_dayOfYear {w m y : Int} (hw0 : 0 ≤ w) (hw1 : w ≤ 364 ∨ w = 365 ∧ isLeapYear (y + 1) = true)
    (hm : m = (5 * w + 2) / 153) :
    let month := if m < 10 then m + 3 else m - 9
    1 ≤ month.toNat ∧ month.toNat ≤ 12 ∧ 1 ≤ (w - (153 * m + 2) / 5 + 1).toNat ∧
      (w - (153 * m + 2) / 5 + 1).toNat ≤ daysInMonth (if month ≤ 2 then y + 1 else y) month.toNat := by
  have hlow : 0 ≤ m := by omega
  have hhigh : m ≤ 11 := by omega
  rcases hw1 with hw1 | ⟨rfl, hleap⟩
  · -- 28 days of February are enough
    have hfebruary : 28 ≤ daysInMonth (y + 1) 2 := by
      simp only [daysInMonth, if_true]
      split <;> omega
    interval_cases m <;> simp [daysInMonth] at hfebruary ⊢ <;> omega
  · obtain rfl : m = 11 := by omega
    simp [daysInMonth, hleap]

theorem isLeapYear_add_mul (y e : Int) : isLeapYear (y + e * 400) = isLeapYear y := by
  have h4 : (y + e * 400) % 4 = y % 4 := by omega
  have h100 : (y + e * 400) % 100 = y % 100 := by omega
  have h400 : (y + e * 400) % 400 = y % 400 := by omega
  simp only [isLeapYear, h4, h100, h400]

theorem valid_ofDays {n : Int} (h : minYear ≤ (ofDays n).year ∧ (ofDays n).year ≤ maxYear) : (ofDays n).Valid := by
  have h0 : 0 ≤ (n + 719468) % 146097 := by omega
  have h1 : (n + 719468) % 146097 < 146097 := by omega
  obtain ⟨-, -, hw0, -⟩ := yearOfEra_bounds h0 h1 rfl
  have hw1 := dayOfYear_le h0 h1 rfl rfl
  rw [← isLeapYear_add_mul _ ((n + 719468) / 146097)] at hw1
  obtain ⟨hm1, hm2, hd1, hd2⟩ := month_day_of_dayOfYear (y := _ + _ * 400) hw0 (by rwa [add_right_comm] at hw1) rfl
  exact ⟨h.1, h.2, hm1, hm2, hd1, hd2⟩

end Date

/-! ## Parts of a text -/

namespace Text

theorem not_isBlank_of_isDigit {c : Char} (h : isDigit c = true) : isBlank c = false := by
  have hrange : 48 ≤ c.toNat ∧ c.toNat ≤ 57 := by
    simpa [isDigit, Char.le_def, UInt32.le_iff_toNat_le] using h
  simp only [isBlank, Bool.or_eq_false_iff, Bool.and_eq_false_iff, decide_eq_false_iff_not, beq_eq_false_iff_ne]
  omega

end Text

namespace Timestamp

theorem dropBlank_cons {c : Char} (h : isBlank c = false) (cs : List Char) : dropBlank (c :: cs) = c :: cs := by
  simp [dropBlank, h]

theorem takeMark_cons {m : Char} (h : isBlank m = false) (cs : List Char) : takeMark m (m :: cs) = some cs := by
  simp [takeMark, dropBlank_cons h]

/-- so many digits as there may be, or all before what is no digit -/
theorem takeWhile_take {most : Nat} {ds rest : List Char} (hds : ∀ c ∈ ds, isDigit c = true) (hmost : ds.length ≤ most)
    (hrest : ds.length = most ∨ ∀ c ∈ rest.head?, isDigit c = false) :
    ((ds ++ rest).take most).takeWhile isDigit = ds := by
  rw [List.take_append, List.take_of_length_le hmost]
  refine (span_digits hds ?_).1
  rcases hrest with hall | hrest
  · simp [hall]
  · intro c hc
    rw [List.head?_take] at hc
    split at hc
    · cases hc
    · exact hrest c hc

theorem takeNumber_append {most : Nat} {ds rest : List Char} (hds : ∀ c ∈ ds, isDigit c = true) (hne : ds ≠ [])
    (hmost : ds.length ≤ most) (hrest : ds.length = most ∨ ∀ c ∈ rest.head?, isDigit c = false) :
    takeNumber most (ds ++ rest) = some (numberFrom 0 ds, rest) := by
  simp [takeNumber, takeWhile_take hds hmost hrest, hne]

/-- leading zeros do not count -/
theorem numberFrom_padded (w n : Nat) : numberFrom 0 (padded w n).toList = n := by
  rw [toList_padded, numberFrom_zeros, numberFrom_digits]

theorem isDigit_padded (w n : Nat) : ∀ c ∈ (padded w n).toList, isDigit c = true :=
  fun c hc => (isDigit_eq c).trans (isDigit_of_mem_padded hc)

theorem padded_ne_nil (w n : Nat) : (padded w n).toList ≠ [] := by
  rw [toList_padded]
  exact List.append_ne_nil_of_right_ne_nil _ (digits_ne_nil n)

/-- a number with leading zeros that is as long as a number may be -/
theorem takeNumber_padded {w n : Nat} (hw : 0 < w) (hn : n < 10 ^ w) (rest : List Char) :
    takeNumber w ((padded w n).toList ++ rest) = some (n, rest) := by
  have hlength := length_padded hw hn
  rw [takeNumber_append (isDigit_padded w n) (padded_ne_nil w n) hlength.le (.inl hlength), numberFrom_padded]

theorem dropBlank_padded (w n : Nat) (rest : List Char) :
    dropBlank ((padded w n).toList ++ rest) = (padded w n).toList ++ rest := by
  obtain ⟨c, cs, hcons⟩ := List.exists_cons_of_ne_nil (padded_ne_nil w n)
  have hc : isDigit c = true := isDigit_padded w n c (hcons ▸ List.mem_cons_self)
  rw [hcons, List.cons_append, dropBlank_cons (not_isBlank_of_isDigit hc)]

theorem takeField_padded {n : Nat} (hn : n < 100) (rest : List Char) :
    takeField ((padded 2 n).toList ++ rest) = some (n, rest) := by
  rw [takeField, dropBlank_padded, takeNumber_padded (by decide) hn]

theorem takeYear_yearText (y : Int) (rest : List Char) :
    takeYear ((yearText y).toList ++ '-' :: rest) = some (y, '-' :: rest) := by
  by_cases hy : 0 ≤ y ∧ y ≤ 9999
  · obtain ⟨c, cs, hcons⟩ := List.exists_cons_of_ne_nil (padded_ne_nil 4 y.toNat)
    have hc : isDigit c = true := isDigit_padded 4 y.toNat c (hcons ▸ List.mem_cons_self)
    have hminus : c ≠ '-' := by rintro rfl; cases hc
    have hplus : c ≠ '+' := by rintro rfl; cases hc
    have hnumber := takeNumber_padded (w := 4) (n := y.toNat) (by decide) (by omega) ('-' :: rest)
    rw [yearText, if_pos hy, takeYear, dropBlank_padded]
    rw [hcons, List.cons_append] at hnumber ⊢
    simp [hminus, hplus, hnumber, hy.1]
  · have hnumber : ∀ most, (padded 4 y.natAbs).toList.length ≤ most →
        takeNumber most ((padded 4 y.natAbs).toList ++ '-' :: rest) = some (y.natAbs, '-' :: rest) := by
      intro most hmost
      have hboundary : ∀ c ∈ ('-' :: rest).head?, isDigit c = false := by
        rintro c ⟨⟩
        rfl
      rw [takeNumber_append (isDigit_padded _ _) (padded_ne_nil _ _) hmost (.inr hboundary), numberFrom_padded]
    have hlength : (padded 4 y.natAbs).toList.length ≤ ((padded 4 y.natAbs).toList ++ '-' :: rest).length := by
      rw [List.length_append]
      omega
    rw [toList_yearText_of_signed hy, takeYear, List.cons_append]
    by_cases hneg : y < 0
    · have hvalue : -(y.natAbs : Int) = y := by omega
      rw [if_pos hneg, dropBlank_cons (by decide)]
      simp only [hnumber _ hlength, Option.map_some, hvalue]
    · have hvalue : (y.natAbs : Int) = y := by omega
      rw [if_neg hneg, dropBlank_cons (by decide)]
      simp only [hnumber _ hlength, Option.map_some, hvalue]

/-- places after a point -/
theorem takeFraction_padded {w n : Nat} (hw : 0 < w ∧ w ≤ 9) (hn : n < 10 ^ w) :
    takeFraction ('.' :: ((padded w n).toList ++ ['Z'])) = some (n * tenPow (9 - w), ['Z']) := by
  have hlength := length_padded hw.1 hn
  have htake : (((padded w n).toList ++ ['Z']).take 9).takeWhile isDigit = (padded w n).toList := by
    refine takeWhile_take (isDigit_padded w n) (by omega) (.inr ?_)
    rintro c ⟨⟩
    rfl
  have hne : (padded w n).toList.isEmpty = false := by simpa using padded_ne_nil w n
  simp only [takeFraction, htake, hne, numberFrom_padded, hlength, List.drop_left' hlength]
  rfl

theorem takeFraction_fractionText {n : Nat} (hn : n < billion) :
    takeFraction ((fractionText n).toList ++ ['Z']) = some (n, ['Z']) := by
  unfold billion at hn
  have hpoint : ∀ w m, ("." ++ padded w m).toList ++ ['Z'] = '.' :: ((padded w m).toList ++ ['Z']) := by
    intro w m
    rw [String.toList_append, List.append_assoc]
    rfl
  unfold fractionText
  split_ifs with hnone hmilli hmicro
  · subst hnone
    rfl
  · rw [hpoint, takeFraction_padded (by decide) (by omega)]
    have hvalue : n / 1000000 * tenPow 6 = n := Nat.div_mul_cancel (Nat.dvd_of_mod_eq_zero hmilli)
    rw [hvalue]
  · rw [hpoint, takeFraction_padded (by decide) (by omega)]
    have hvalue : n / 1000 * tenPow 3 = n := Nat.div_mul_cancel (Nat.dvd_of_mod_eq_zero hmicro)
    rw [hvalue]
  · rw [hpoint, takeFraction_padded (by decide) (by omega), Nat.sub_self, tenPow_zero, Nat.mul_one]

/-- what a text shows is read off it -/
theorem takeReading_text (t : Timestamp) :
    takeReading t.text.toList = some ⟨t.date, t.hour, t.minute, t.second, t.fraction, 0⟩ := by
  obtain ⟨hmonth, hday, hhour, hminute, hsecond⟩ := t.parts_lt
  have hfraction : t.fraction < billion := Nat.mod_lt _ (by decide)
  have htext : t.text.toList = (yearText t.date.year).toList ++ '-' :: ((padded 2 t.date.month).toList ++
      '-' :: ((padded 2 t.date.day).toList ++ 'T' :: ((padded 2 t.hour).toList ++ ':' :: ((padded 2 t.minute).toList ++
        ':' :: ((padded 2 t.second).toList ++ ((fractionText t.fraction).toList ++ ['Z'])))))) := by
    simp [text]
  have hdash : isBlank '-' = false := rfl
  have hcolon : isBlank ':' = false := rfl
  have hoffset : takeOffset (dropBlank ['Z']) = some (0, []) := rfl
  have hnext : ∀ {α β : Type} {o : Option α} {a : α} {k : α → Option β} {b : Option β}, o = some a → k a = b →
      (o >>= k) = b := by
    rintro α β o a k b rfl rfl
    rfl
  unfold takeReading
  rw [htext]
  refine hnext (takeYear_yearText _ _) ?_
  refine hnext (takeMark_cons hdash _) ?_
  refine hnext (takeField_padded hmonth _) ?_
  refine hnext (takeMark_cons hdash _) ?_
  refine hnext (takeField_padded hday _) ?_
  refine hnext (a := _) rfl ?_
  refine hnext (takeField_padded hhour _) ?_
  refine hnext (takeMark_cons hcolon _) ?_
  refine hnext (takeField_padded hminute _) ?_
  refine hnext (takeMark_cons hcolon _) ?_
  refine hnext (takeField_padded hsecond _) ?_
  refine hnext (takeFraction_fractionText hfraction) ?_
  exact hnext hoffset rfl

/-! ## Times that are read back -/

/-- a time that a clock can show: in the years covered, and with a leap second only at the end of a minute -/
structure OnClock (t : Timestamp) : Prop where
  first : Date.minYear ≤ t.date.year
  last : t.date.year ≤ Date.maxYear
  leap : billion ≤ t.nanos → t.seconds % 60 = 59

/-- the seconds of a reading that shows the time -/
theorem seconds_of_parts (t : Timestamp) :
    t.date.daysOf * 86400 + t.hour * 3600 + t.minute * 60 + (t.secondOfDay % 60 : Nat) = t.seconds := by
  have hdays : t.date.daysOf = t.seconds / secondsPerDay := Date.daysOf_ofDays _
  rw [hdays]
  unfold hour minute secondOfDay secondsPerDay
  omega

/-- a reading stands for a time if its parts are in range; second 60 is the leap second after second 59 -/
theorem Reading.toTimestamp?_eq_some {r : Reading} {t : Timestamp} :
    r.toTimestamp? = some t ↔
      (r.date.Valid ∧ r.hour < 24 ∧ r.minute < 60 ∧ r.second ≤ 60 ∧ r.offset.natAbs < 86400) ∧
        (Date.minYear ≤ t.date.year ∧ t.date.year ≤ Date.maxYear) ∧
          t.seconds = r.date.daysOf * 86400 + r.hour * 3600 + r.minute * 60 +
            (if r.second = 60 then 59 else r.second : Nat) - r.offset ∧
          t.nanos = (if r.second = 60 then billion else 0) + r.fraction := by
  obtain ⟨seconds, nanos, nanos_lt⟩ := t
  by_cases hparts : r.date.Valid ∧ r.hour < 24 ∧ r.minute < 60 ∧ r.second ≤ 60 ∧ r.offset.natAbs < 86400
  · rw [toTimestamp?, if_pos hparts]
    simp only [Option.dite_none_right_eq_some, Option.some.injEq, Timestamp.mk.injEq]
    constructor
    · rintro ⟨hrange, rfl, rfl⟩
      exact ⟨hparts, ⟨hrange.1, hrange.2.1⟩, rfl, rfl⟩
    · rintro ⟨-, ⟨hfirst, hlast⟩, rfl, rfl⟩
      exact ⟨⟨hfirst, hlast, nanos_lt⟩, rfl, rfl⟩
  · rw [toTimestamp?, if_neg hparts]
    exact iff_of_false nofun fun h => hparts h.1

/-- all times that a clock can show are read back, and no others -/
theorem ofText?_text_iff {t : Timestamp} : ofText? t.text = some t ↔ t.OnClock := by
  have hseconds := t.seconds_of_parts
  have hday : t.secondOfDay < 86400 := by
    unfold secondOfDay secondsPerDay
    omega
  have hminute : (t.secondOfDay % 60 : Nat) = t.seconds % 60 := by
    unfold secondOfDay secondsPerDay
    omega
  have hparts : t.hour < 24 ∧ t.minute < 60 := by
    unfold hour minute
    omega
  rw [ofText?, takeReading_text, Option.bind_some, Reading.toTimestamp?_eq_some]
  rcases lt_or_ge t.nanos billion with hplain | hleap
  · have hsecond : t.second = t.secondOfDay % 60 := by rw [second, Nat.div_eq_of_lt hplain, Nat.add_zero]
    have hfraction : t.fraction = t.nanos := Nat.mod_eq_of_lt hplain
    have hshort : t.second ≠ 60 := by omega
    simp only [if_neg hshort]
    constructor
    · rintro ⟨-, ⟨hfirst, hlast⟩, -⟩
      exact ⟨hfirst, hlast, fun h => absurd hplain (not_lt.2 h)⟩
    · rintro ⟨hfirst, hlast, -⟩
      have hvalid := Date.valid_ofDays ⟨hfirst, hlast⟩
      exact ⟨⟨hvalid, hparts.1, hparts.2, by omega, by decide⟩, ⟨hfirst, hlast⟩, by omega, by omega⟩
  · have hnanos := t.nanos_lt
    have hone : t.nanos / billion = 1 := Nat.div_eq_of_lt_le (by omega) (by omega)
    have hsecond : t.second = t.secondOfDay % 60 + 1 := by rw [second, hone]
    have hfraction : billion + t.fraction = t.nanos := by
      have hsplit := Nat.div_add_mod t.nanos billion
      rwa [hone, Nat.mul_one] at hsplit
    constructor
    · rintro ⟨-, ⟨hfirst, hlast⟩, -, hshown⟩
      refine ⟨hfirst, hlast, fun _ => ?_⟩
      have hsixty : t.second = 60 := by
        by_contra hshort
        simp only [if_neg hshort] at hshown
        unfold billion at *
        omega
      omega
    · rintro ⟨hfirst, hlast, hlate⟩
      have hsixty : t.second = 60 := by
        have := hlate hleap
        omega
      simp only [if_pos hsixty]
      have hvalid := Date.valid_ofDays ⟨hfirst, hlast⟩
      exact ⟨⟨hvalid, hparts.1, hparts.2, by omega, by decide⟩, ⟨hfirst, hlast⟩, by omega, by omega⟩

/-! ## What was read -/

theorem numberFrom_lt {n : Nat} {ds : List Char} (hds : ∀ c ∈ ds, isDigit c = true) :
    numberFrom n ds < (n + 1) * tenPow ds.length := by
  induction ds generalizing n with
  | nil => simp [numberFrom]
  | cons c ds ih =>
    have hc : c.toNat - '0'.toNat ≤ 9 := by
      have hrange : 48 ≤ c.toNat ∧ c.toNat ≤ 57 := by
        simpa [isDigit, Char.le_def, UInt32.le_iff_toNat_le] using hds c List.mem_cons_self
      have hzero : '0'.toNat = 48 := rfl
      omega
    calc
      numberFrom n (c :: ds) = numberFrom (n * 10 + (c.toNat - '0'.toNat)) ds := rfl
      _ < (n * 10 + (c.toNat - '0'.toNat) + 1) * tenPow ds.length := ih fun d hd => hds d (List.mem_cons_of_mem _ hd)
      _ ≤ ((n + 1) * 10) * tenPow ds.length := Nat.mul_le_mul_right _ (by omega)
      _ = (n + 1) * tenPow (ds.length + 1) := by
        rw [Nat.mul_assoc, Nat.mul_comm 10]
        rfl

theorem fraction_of_takeFraction {cs rest : List Char} {n : Nat} (h : takeFraction cs = some (n, rest)) : n < billion := by
  unfold takeFraction at h
  split at h
  · rename_i r
    simp only at h
    split_ifs at h
    obtain ⟨rfl, -⟩ := Prod.mk.inj (Option.some.inj h)
    have hlength : ((r.take 9).takeWhile isDigit).length ≤ 9 :=
      (List.takeWhile_sublist _).length_le.trans (List.length_take_le _ _)
    have hdigits : ∀ c ∈ (r.take 9).takeWhile isDigit, isDigit c = true := List.all_eq_true.1 List.all_takeWhile
    generalize (r.take 9).takeWhile isDigit = ds at hlength hdigits
    have hlt : numberFrom 0 ds < tenPow ds.length := by simpa using numberFrom_lt (n := 0) hdigits
    calc
      numberFrom 0 ds * tenPow (9 - ds.length) < tenPow ds.length * tenPow (9 - ds.length) :=
        Nat.mul_lt_mul_of_pos_right hlt (tenPow_pos _)
      _ = billion := by
        rw [billion_eq]
        exact (Nat.pow_add 10 ds.length (9 - ds.length)).symm.trans (congrArg tenPow (by omega))
  · obtain ⟨rfl, -⟩ := Prod.mk.inj (Option.some.inj h)
    decide

/-- an offset has no seconds -/
theorem offset_of_takeOffset {cs rest : List Char} {o : Int} (h : takeOffset cs = some (o, rest)) : o % 60 = 0 := by
  have hsize : ∀ {cs rest : List Char} {n : Nat}, takeOffsetSize cs = some (n, rest) → n % 60 = 0 := by
    intro cs rest n h
    obtain ⟨⟨hours, cs⟩, -, h⟩ := Option.bind_eq_some_iff.1 h
    obtain ⟨⟨minutes, cs⟩, -, h⟩ := Option.bind_eq_some_iff.1 h
    simp only at h
    split_ifs at h
    obtain ⟨rfl, -⟩ := Prod.mk.inj (Option.some.inj h)
    omega
  have hplus : ∀ cs, (takeOffsetSize cs).map (fun p => ((p.1 : Int), p.2)) = some (o, rest) → o % 60 = 0 := by
    intro cs h
    obtain ⟨⟨n, cs'⟩, hn, h⟩ := Option.map_eq_some_iff.1 h
    obtain ⟨rfl, -⟩ := Prod.mk.inj h
    have := hsize hn
    omega
  have hminus : ∀ cs, (takeOffsetSize cs).map (fun p => (-(p.1 : Int), p.2)) = some (o, rest) → o % 60 = 0 := by
    intro cs h
    obtain ⟨⟨n, cs'⟩, hn, h⟩ := Option.map_eq_some_iff.1 h
    obtain ⟨rfl, -⟩ := Prod.mk.inj h
    have := hsize hn
    omega
  have hnone : ∀ cs : List Char, some ((0 : Int), cs) = some (o, rest) → o % 60 = 0 := by
    intro cs h
    obtain ⟨rfl, -⟩ := Prod.mk.inj (Option.some.inj h)
    rfl
  unfold takeOffset at h
  split at h
  · exact hnone _ h
  · exact hnone _ h
  · exact hplus _ h
  · exact hminus _ h
  · exact hminus _ h
  · split_ifs at h
    exact hnone _ h
  · cases h

theorem parts_of_takeReading {cs : List Char} {r : Reading} (h : takeReading cs = some r) :
    r.offset % 60 = 0 ∧ r.fraction < billion := by
  unfold takeReading at h
  obtain ⟨⟨y, cs⟩, -, h⟩ := Option.bind_eq_some_iff.1 h
  obtain ⟨cs, -, h⟩ := Option.bind_eq_some_iff.1 h
  obtain ⟨⟨mo, cs⟩, -, h⟩ := Option.bind_eq_some_iff.1 h
  obtain ⟨cs, -, h⟩ := Option.bind_eq_some_iff.1 h
  obtain ⟨⟨d, cs⟩, -, h⟩ := Option.bind_eq_some_iff.1 h
  simp only at h
  split at h
  · split_ifs at h
    · obtain ⟨cs, -, h⟩ := Option.bind_eq_some_iff.1 h
      obtain ⟨⟨hour, cs⟩, -, h⟩ := Option.bind_eq_some_iff.1 h
      obtain ⟨cs, -, h⟩ := Option.bind_eq_some_iff.1 h
      obtain ⟨⟨minute, cs⟩, -, h⟩ := Option.bind_eq_some_iff.1 h
      obtain ⟨cs, -, h⟩ := Option.bind_eq_some_iff.1 h
      obtain ⟨⟨second, cs⟩, -, h⟩ := Option.bind_eq_some_iff.1 h
      obtain ⟨⟨f, cs⟩, hf, h⟩ := Option.bind_eq_some_iff.1 h
      obtain ⟨⟨o, cs⟩, ho, h⟩ := Option.bind_eq_some_iff.1 h
      simp only at h
      split_ifs at h
      obtain rfl := Option.some.inj h
      exact ⟨offset_of_takeOffset ho, fraction_of_takeFraction hf⟩
    · cases h
  · cases h

/-- every time that was read is one that a clock can show -/
theorem onClock_of_ofText? {s : String} {t : Timestamp} (h : ofText? s = some t) : t.OnClock := by
  obtain ⟨r, hr, ht⟩ := Option.bind_eq_some_iff.1 h
  obtain ⟨hoffset, hfraction⟩ := parts_of_takeReading hr
  obtain ⟨-, ⟨hfirst, hlast⟩, hseconds, hnanos⟩ := Reading.toTimestamp?_eq_some.1 ht
  refine ⟨hfirst, hlast, fun hleap => ?_⟩
  have hsixty : r.second = 60 := by
    by_contra hshort
    rw [if_neg hshort] at hnanos
    omega
  rw [if_pos hsixty] at hseconds
  omega

end Timestamp

end Brigade
