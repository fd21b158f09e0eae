/-
Timestamps as text.

Written: `2024-03-09T07:05:02Z`, with 3, 6 or 9 places of a second if fewer would lose something, and a signed year
outside 0 to 9999 (`text`); compact for order numbers (`stamp`).

Read (`ofText?`): a date, one of `T`, `t` and a space, a time, and an offset from UTC. Numbers may have fewer digits,
blanks may stand before most parts, and places beyond the ninth are ignored.
-/
import Brigade.Text.Basic
import Brigade.Time.Basic

namespace Brigade.Timestamp

open Brigade.Text

/-! ## Writing -/

/-- four digits, or a sign and at least four -/
def yearText (y : Int) : String :=
  if 0 ≤ y ∧ y ≤ 9999 then padded 4 y.toNat
  else (if y < 0 then "-" else "+") ++ padded 4 y.natAbs

/-- the fewest of 0, 3, 6 and 9 places that lose nothing -/
def fractionText (n : Nat) : String :=
  if n = 0 then ""
  else if n % 1000000 = 0 then "." ++ padded 3 (n / 1000000)
  else if n % 1000 = 0 then "." ++ padded 6 (n / 1000)
  else "." ++ padded 9 n

def text (t : Timestamp) : String :=
  let d := t.date
  yearText d.year ++ "-" ++ padded 2 d.month ++ "-" ++ padded 2 d.day ++ "T" ++
    padded 2 t.hour ++ ":" ++ padded 2 t.minute ++ ":" ++ padded 2 t.second ++ fractionText t.fraction ++ "Z"

/-- the stamp in an order number, to the second -/
def stamp (t : Timestamp) : String :=
  let d := t.date
  yearText d.year ++ padded 2 d.month ++ padded 2 d.day ++ "-" ++ padded 2 t.hour ++ padded 2 t.minute ++ padded 2 t.second

/-! ## Reading -/

/-- up to `most` digits, at least one -/
def takeNumber (most : Nat) (cs : List Char) : Option (Nat × List Char) :=
  let ds := (cs.take most).takeWhile isDigit
  if ds.isEmpty then none else some (numberFrom 0 ds, cs.drop ds.length)

/-- one or two digits after blanks -/
def takeField (cs : List Char) : Option (Nat × List Char) := takeNumber 2 (dropBlank cs)

/-- the given character after blanks -/
def takeMark (m : Char) (cs : List Char) : Option (List Char) :=
  match dropBlank cs with
  | c :: r => if c = m then some r else none
  | [] => none

/-- a year: any number of digits after a sign, up to four without -/
def takeYear (cs : List Char) : Option (Int × List Char) :=
  match dropBlank cs with
  | '-' :: r => (takeNumber r.length r).map fun p => (-(p.1 : Int), p.2)
  | '+' :: r => (takeNumber r.length r).map fun p => ((p.1 : Int), p.2)
  | r => (takeNumber 4 r).map fun p => ((p.1 : Int), p.2)

/-- nanoseconds after a point, if there is one -/
def takeFraction (cs : List Char) : Option (Nat × List Char) :=
  match cs with
  | '.' :: r =>
    let ds := (r.take 9).takeWhile isDigit
    if ds.isEmpty then none
    else some (numberFrom 0 ds * tenPow (9 - ds.length), (r.drop ds.length).dropWhile isDigit)
  | _ => some (0, cs)

/-- exactly two digits -/
def takePair (cs : List Char) : Option (Nat × List Char) :=
  match cs with
  | a :: b :: r => do
    let x ← digitValue? a
    let y ← digitValue? b
    some (x * 10 + y, r)
  | _ => none

/-- hours and minutes of an offset, in seconds -/
def takeOffsetSize (cs : List Char) : Option (Nat × List Char) := do
  let (h, cs) ← takePair cs
  let (m, cs) ← takePair (cs.dropWhile fun c => c = ':' || isBlank c)
  if m < 60 then some (h * 3600 + m * 60, cs) else none

/-- an offset from UTC in seconds -/
def takeOffset (cs : List Char) : Option (Int × List Char) :=
  match cs with
  | 'Z' :: r => some (0, r)
  | 'z' :: r => some (0, r)
  | '+' :: r => (takeOffsetSize r).map fun p => ((p.1 : Int), p.2)
  | '-' :: r => (takeOffsetSize r).map fun p => (-(p.1 : Int), p.2)
  | '−' :: r => (takeOffsetSize r).map fun p => (-(p.1 : Int), p.2)
  | a :: b :: c :: r =>
    if (a = 'U' ∨ a = 'u') ∧ (b = 'T' ∨ b = 't') ∧ (c = 'C' ∨ c = 'c') then some (0, r) else none
  | _ => none

/-- date, time and offset as they were written -/
structure Reading where
  date : Date
  hour : Nat
  minute : Nat
  second : Nat
  fraction : Nat
  offset : Int
deriving DecidableEq, Repr

def takeReading (cs : List Char) : Option Reading := do
  let (y, cs) ← takeYear cs
  let cs ← takeMark '-' cs
  let (mo, cs) ← takeField cs
  let cs ← takeMark '-' cs
  let (d, cs) ← takeField cs
  let cs ← match cs with
    | c :: r => if c = 'T' ∨ c = 't' ∨ c = ' ' then some r else none
    | [] => none
  let (h, cs) ← takeField cs
  let cs ← takeMark ':' cs
  let (mi, cs) ← takeField cs
  let cs ← takeMark ':' cs
  let (s, cs) ← takeField cs
  let (f, cs) ← takeFraction cs
  let (o, cs) ← takeOffset (dropBlank cs)
  if (dropBlank cs).isEmpty then some ⟨⟨y, mo, d⟩, h, mi, s, f, o⟩ else none

/-- the timestamp of a reading whose parts are all in range -/
def Reading.toTimestamp? (r : Reading) : Option Timestamp :=
  if r.date.Valid ∧ r.hour < 24 ∧ r.minute < 60 ∧ r.second ≤ 60 ∧ r.offset.natAbs < 86400 then
    let leap := r.second = 60
    let local' := r.date.daysOf * 86400 + r.hour * 3600 + r.minute * 60 + (if leap then 59 else r.second)
    let seconds := local' - r.offset
    let year := (Date.ofDays (seconds / 86400)).year
    let nanos := (if leap then billion else 0) + r.fraction
    if h : Date.minYear ≤ year ∧ year ≤ Date.maxYear ∧ nanos < 2 * billion then some ⟨seconds, nanos, h.2.2⟩ else none
  else none

def ofText? (s : String) : Option Timestamp := (takeReading s.toList).bind Reading.toTimestamp?

end Brigade.Timestamp
