/-
Characters and parts of texts: white space, digits, and cuts at byte positions.

White space is the Unicode property White_Space. It holds every character that `Char.isWhitespace` holds
(`isBlank_of_isWhitespace`), and more: line separators, no-break and wide spaces.

`digitValue?` and `hexValue?` read one digit, `readNat?` a whole number (at least one digit and nothing else),
`padded` writes a number with leading zeros.

A position in a text counts the bytes of the UTF-8 form before it. A cut inside a character has no answer; a cut after a
whole part of the text gives that part (`takeBytes?_append`) and leaves the rest (`dropBytes?_append`).
-/

namespace Brigade.Text

/-! ## White space -/

/-- the Unicode property White_Space -/
def isBlank (c : Char) : Bool :=
  let n := c.toNat
  (9 ≤ n && n ≤ 13) || n == 0x20 || n == 0x85 || n == 0xA0 || n == 0x1680 || (0x2000 ≤ n && n ≤ 0x200A) ||
    n == 0x2028 || n == 0x2029 || n == 0x202F || n == 0x205F || n == 0x3000

theorem isBlank_of_isWhitespace {c : Char} (h : c.isWhitespace = true) : isBlank c = true := by
  simp only [Char.isWhitespace, Bool.or_eq_true, decide_eq_true_eq] at h
  rcases h with ((h | h) | h) | h <;> subst h <;> decide

/-- a text of white space alone; the empty text is blank -/
def allBlank (s : String) : Bool := s.toList.all isBlank

/-- the text without leading white space -/
def dropBlank (cs : List Char) : List Char := cs.dropWhile isBlank

/-- the characters without white space at either end -/
def trimmed (cs : List Char) : List Char := (dropBlank (dropBlank cs).reverse).reverse

/-! ## Digits -/

/-- the value of an ASCII decimal digit -/
def digitValue? (c : Char) : Option Nat :=
  if '0' ≤ c ∧ c ≤ '9' then some (c.toNat - '0'.toNat) else none

/-- the value of a hexadecimal digit of either case -/
def hexValue? (c : Char) : Option Nat :=
  if '0' ≤ c ∧ c ≤ '9' then some (c.toNat - '0'.toNat)
  else if 'a' ≤ c ∧ c ≤ 'f' then some (c.toNat - 'a'.toNat + 10)
  else if 'A' ≤ c ∧ c ≤ 'F' then some (c.toNat - 'A'.toNat + 10)
  else none

def isDigit (c : Char) : Bool := '0' ≤ c && c ≤ '9'

/-- the character of a digit below sixteen, in lower case -/
def hexDigit (n : Nat) : Char :=
  if n < 10 then Char.ofNat ('0'.toNat + n) else Char.ofNat ('a'.toNat + (n - 10))

/-- the number that digits spell, after `acc` -/
def numberFrom (acc : Nat) (cs : List Char) : Nat :=
  cs.foldl (fun n c => n * 10 + (c.toNat - '0'.toNat)) acc

/-- a number of at least one digit and nothing else -/
def readNat? (cs : List Char) : Option Nat :=
  if cs.isEmpty || !cs.all isDigit then none else some (numberFrom 0 cs)

/-- the digits of a number, without leading zeros -/
def digits (n : Nat) : List Char := Nat.toDigits 10 n

/-- the digits of a number, with zeros in front up to `width` -/
def padded (width n : Nat) : String :=
  let ds := digits n
  String.ofList (List.replicate (width - ds.length) '0' ++ ds)

/-- the lowest `width` hexadecimal digits of a number -/
def hexPadded : (width : Nat) → Nat → List Char
  | 0, _ => []
  | w + 1, n => hexPadded w (n / 16) ++ [hexDigit (n % 16)]

/-! ## Cuts -/

/-- how many bytes a text takes -/
def byteLength : List Char → Nat
  | [] => 0
  | c :: cs => c.utf8Size + byteLength cs

/-- the first `n` bytes -/
def takeBytes? (n : Nat) : List Char → Option (List Char)
  | [] => if n = 0 then some [] else none
  | c :: cs =>
    if n = 0 then some []
    else if c.utf8Size ≤ n then (takeBytes? (n - c.utf8Size) cs).map (c :: ·)
    else none

/-- what comes after the first `n` bytes -/
def dropBytes? (n : Nat) : List Char → Option (List Char)
  | [] => if n = 0 then some [] else none
  | c :: cs =>
    if n = 0 then some (c :: cs)
    else if c.utf8Size ≤ n then dropBytes? (n - c.utf8Size) cs
    else none

@[simp] theorem takeBytes?_zero (cs : List Char) : takeBytes? 0 cs = some [] := by
  cases cs <;> simp [takeBytes?]

@[simp] theorem dropBytes?_zero (cs : List Char) : dropBytes? 0 cs = some cs := by
  cases cs <;> simp [dropBytes?]

theorem takeBytes?_append (a b : List Char) : takeBytes? (byteLength a) (a ++ b) = some a := by
  induction a with
  | nil => simp [byteLength]
  | cons c a ih =>
    have h := c.utf8Size_pos
    simp only [List.cons_append, takeBytes?, byteLength]
    rw [if_neg (by omega), if_pos (by omega), Nat.add_sub_cancel_left, ih, Option.map_some]

theorem dropBytes?_append (a b : List Char) : dropBytes? (byteLength a) (a ++ b) = some b := by
  induction a with
  | nil => simp [byteLength]
  | cons c a ih =>
    have h := c.utf8Size_pos
    simp only [List.cons_append, dropBytes?, byteLength]
    rw [if_neg (by omega), if_pos (by omega), Nat.add_sub_cancel_left, ih]

end Brigade.Text
