/-
Dates, points in time, and lengths of time.

Dates are those of the proleptic Gregorian calendar. `Date.daysOf` counts days from 1 January 1970, `Date.ofDays` goes
back. A year starts in March for the count, so that the leap day comes last.

A timestamp, in UTC, is a count of seconds from 1 January 1970 and nanoseconds after it. Nanoseconds from 10⁹ up to 2·10⁹
stand for a leap second: the second after the one counted, written as second 60. Timestamps are ordered by seconds, then
nanoseconds.

A duration is in whole nanoseconds. `Duration.ofSeconds` reads a number of seconds given as a double, to the nearest
nanosecond, a half to the even one. A negative number is a fault, and so is one of 2^64 seconds or more. `toSeconds` goes
the other way, in double arithmetic.
-/
import Brigade.Double.Basic

namespace Brigade

/-! ## The calendar -/

/-- a day of the calendar -/
structure Date where
  year : Int
  month : Nat
  day : Nat
deriving DecidableEq, Repr, Inhabited

namespace Date

def isLeapYear (y : Int) : Bool := y % 4 == 0 && (y % 100 != 0 || y % 400 == 0)

def daysInMonth (y : Int) (m : Nat) : Nat :=
  if m = 2 then (if isLeapYear y then 29 else 28)
  else if m = 4 ∨ m = 6 ∨ m = 9 ∨ m = 11 then 30
  else 31

/-- first and last year a date may have -/
def minYear : Int := -262143
def maxYear : Int := 262142

/-- a date of the calendar within the years covered -/
def Valid (d : Date) : Prop :=
  minYear ≤ d.year ∧ d.year ≤ maxYear ∧ 1 ≤ d.month ∧ d.month ≤ 12 ∧ 1 ≤ d.day ∧ d.day ≤ daysInMonth d.year d.month

instance (d : Date) : Decidable d.Valid := inferInstanceAs (Decidable (_ ∧ _))

/-- days from 1 January 1970 -/
def daysOf (d : Date) : Int :=
  let y := if d.month ≤ 2 then d.year - 1 else d.year
  let m : Int := if d.month ≤ 2 then d.month + 9 else d.month - 3
  let era := y / 400
  let yearOfEra := y % 400
  let dayOfYear := (153 * m + 2) / 5 + d.day - 1
  let dayOfEra := yearOfEra * 365 + yearOfEra / 4 - yearOfEra / 100 + dayOfYear
  era * 146097 + dayOfEra - 719468

/-- the date that many days from 1 January 1970 -/
def ofDays (n : Int) : Date :=
  let z := n + 719468
  let era := z / 146097
  let dayOfEra := z % 146097
  let yearOfEra := (dayOfEra - dayOfEra / 1460 + dayOfEra / 36524 - dayOfEra / 146096) / 365
  let dayOfYear := dayOfEra - (365 * yearOfEra + yearOfEra / 4 - yearOfEra / 100)
  let m := (5 * dayOfYear + 2) / 153
  let day := dayOfYear - (153 * m + 2) / 5 + 1
  let month := if m < 10 then m + 3 else m - 9
  let year := yearOfEra + era * 400
  ⟨if month ≤ 2 then year + 1 else year, month.toNat, day.toNat⟩

end Date

/-! ## Timestamps -/

structure Timestamp where
  seconds : Int
  nanos : Nat
  nanos_lt : nanos < 2 * billion
deriving DecidableEq, Repr

namespace Timestamp

def epoch : Timestamp := ⟨0, 0, by decide⟩

instance : Inhabited Timestamp := ⟨epoch⟩

/-- no later than -/
def le (a b : Timestamp) : Bool := a.seconds < b.seconds || (a.seconds == b.seconds && a.nanos ≤ b.nanos)

theorem le_refl (a : Timestamp) : le a a = true := by simp [le]

theorem le_total (a b : Timestamp) : (le a b || le b a) = true := by
  simp only [le, Bool.or_eq_true, Bool.and_eq_true, decide_eq_true_eq, beq_iff_eq]
  omega

theorem le_trans (a b c : Timestamp) (h : le a b = true) (h' : le b c = true) : le a c = true := by
  simp only [le, Bool.or_eq_true, Bool.and_eq_true, decide_eq_true_eq, beq_iff_eq] at h h' ⊢
  omega

def secondsPerDay : Int := 86400

def date (t : Timestamp) : Date := Date.ofDays (t.seconds / secondsPerDay)

def secondOfDay (t : Timestamp) : Nat := (t.seconds % secondsPerDay).toNat

def hour (t : Timestamp) : Nat := t.secondOfDay / 3600
def minute (t : Timestamp) : Nat := t.secondOfDay / 60 % 60
/-- 60 in a leap second -/
def second (t : Timestamp) : Nat := t.secondOfDay % 60 + t.nanos / billion
/-- nanoseconds within the second that is shown -/
def fraction (t : Timestamp) : Nat := t.nanos % billion

end Timestamp

/-! ## Durations -/

structure Duration where
  nanos : Nat
deriving DecidableEq, Repr, Inhabited

namespace Duration

def zero : Duration := ⟨0⟩

def ofMillis (n : Nat) : Duration := ⟨n * 1000000⟩

/-- the later of two ends -/
def max (a b : Duration) : Duration := if a.nanos ≤ b.nanos then b else a

def isZero (d : Duration) : Bool := d.nanos == 0

/-- whole milliseconds, counting a begun one -/
def ceilMillis (d : Duration) : Nat := (d.nanos + 999999) / 1000000

/-- whole milliseconds, a begun one not counted -/
def floorMillis (d : Duration) : Nat := d.nanos / 1000000

def toSeconds (d : Duration) : Float :=
  (d.nanos / billion).toFloat + (d.nanos % billion).toFloat / 1e9

/-- nanoseconds in so many seconds -/
def nanosOf (b : Binary) : Nat :=
  let n := b.mantissa * billion
  if 0 ≤ b.exponent then n * twoPow b.exponent.toNat else nearestQuotient .toEven n (twoPow (-b.exponent).toNat)

def ofSeconds {ε : Type} (f : Float) : Outcome ε Duration :=
  match Double.ofFloat f with
  | .finite negative b =>
    if b.mantissa = 0 then .ok zero
    else if negative then .fault .negativeDelay
    else if nanosOf b < two64 * billion then .ok ⟨nanosOf b⟩
    else .fault .delayTooLarge
  | .infinite negative => .fault (if negative then .negativeDelay else .delayTooLarge)
  | .notANumber => .fault .delayTooLarge

end Duration

end Brigade
