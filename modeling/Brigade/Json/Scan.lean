/-
From characters to a tree.

`Scan.value` reads one value and says what is left of the text, or that the text broke inside the value. The
fuel counts calls: a value, and what follows a bracket, take one each, and both get past at least one character for
every two calls, so twice the length of the text is enough (`Json.scan`).
-/
import Brigade.Json.Basic
import Brigade.Text.Basic

namespace Brigade.Json.Scan

open Brigade.Text

/-- the white space of JSON -/
def isSpace (c : Char) : Bool := c = ' ' || c = '\n' || c = '\t' || c = '\r'

def skip (cs : List Char) : List Char := cs.dropWhile isSpace

/-! ## Strings -/

/-- the number of four hexadecimal digits -/
def takeHex4 (cs : List Char) : Option (Nat × List Char) :=
  match cs with
  | a :: b :: c :: d :: r => do
    let a ← hexValue? a
    let b ← hexValue? b
    let c ← hexValue? c
    let d ← hexValue? d
    some (((a * 16 + b) * 16 + c) * 16 + d, r)
  | _ => none

/-- the character of a one-letter escape -/
def simpleEscape? (c : Char) : Option Char :=
  if c = '"' ∨ c = '\\' ∨ c = '/' then some c
  else if c = 'b' then some (Char.ofNat 8)
  else if c = 'f' then some (Char.ofNat 12)
  else if c = 'n' then some '\n'
  else if c = 'r' then some '\r'
  else if c = 't' then some '\t'
  else none

/-- the low half of a surrogate pair, if it comes next -/
def takeLow (cs : List Char) : Option (Nat × List Char) :=
  match cs with
  | '\\' :: 'u' :: r =>
    match takeHex4 r with
    | some (n, r) => if 0xDC00 ≤ n ∧ n < 0xE000 then some (n, r) else none
    | none => none
  | _ => none

/-- a string after its opening quote: its characters (`none` for half of a pair) and the rest -/
def chars : (fuel : Nat) → List Char → Option (List (Option Char) × List Char)
  | 0, _ => none
  | _ + 1, [] => none
  | fuel + 1, c :: cs =>
    if c = '"' then some ([], cs)
    else if c = '\\' then
      match cs with
      | 'u' :: r =>
        match takeHex4 r with
        | none => none
        | some (n, r) =>
          if 0xD800 ≤ n ∧ n < 0xDC00 then
            match takeLow r with
            | some (low, r) =>
              (chars fuel r).map fun p => (some (Char.ofNat (0x10000 + (n - 0xD800) * 0x400 + (low - 0xDC00))) :: p.1, p.2)
            | none => (chars fuel r).map fun p => (none :: p.1, p.2)
          else if 0xDC00 ≤ n ∧ n < 0xE000 then (chars fuel r).map fun p => (none :: p.1, p.2)
          else (chars fuel r).map fun p => (some (Char.ofNat n) :: p.1, p.2)
      | e :: r =>
        match simpleEscape? e with
        | some x => (chars fuel r).map fun p => (some x :: p.1, p.2)
        | none => none
      | [] => none
    else if c.toNat < 0x20 then none
    else (chars fuel cs).map fun p => (some c :: p.1, p.2)

/-- a string after its opening quote -/
def string (cs : List Char) : Json × Option (List Char) :=
  match chars (cs.length + 1) cs with
  | some (xs, rest) => (.str ((xs.mapM id).map String.ofList), some rest)
  | none => (.damaged, none)

/-! ## Numbers -/

/-- the exponent of a number, if one is written; `none` if it has no digits -/
def exponent (cs : List Char) : Option (Option Int × List Char) :=
  let finish (negative : Bool) (r : List Char) : Option (Option Int × List Char) :=
    let ds := r.takeWhile isDigit
    if ds.isEmpty then none
    else
      let n : Int := numberFrom 0 ds
      some (some (if negative then -n else n), r.dropWhile isDigit)
  let marked (r : List Char) : Option (Option Int × List Char) :=
    match r with
    | '+' :: r => finish false r
    | '-' :: r => finish true r
    | r => finish false r
  match cs with
  | 'e' :: r => marked r
  | 'E' :: r => marked r
  | _ => some (none, cs)

/-- a number after its sign -/
def unsignedNumber (negative : Bool) (cs : List Char) : Option (Numeral × List Char) := do
  let ds := cs.takeWhile isDigit
  let rest := cs.dropWhile isDigit
  if ds.isEmpty || (ds.length != 1 && ds.head? == some '0') then none
  else
    let (fraction, rest) ← match rest with
      | '.' :: r =>
        let fs := r.takeWhile isDigit
        if fs.isEmpty then none else some (fs, r.dropWhile isDigit)
      | r => some ([], r)
    let (e, rest) ← exponent rest
    some (⟨negative, numberFrom 0 ds, fraction, e⟩, rest)

def number (cs : List Char) : Option (Numeral × List Char) :=
  match cs with
  | '-' :: r => unsignedNumber true r
  | r => unsignedNumber false r

/-! ## Values -/

/-- the given word, or damage -/
def word (w : List Char) (v : Json) (cs : List Char) : Json × Option (List Char) :=
  if w.isPrefixOf cs then (v, some (cs.drop w.length)) else (.damaged, none)

mutual
/-- one value -/
def value : (fuel : Nat) → List Char → Json × Option (List Char)
  | 0, _ => (.damaged, none)
  | fuel + 1, cs =>
    match skip cs with
    | [] => (.damaged, none)
    | c :: r =>
      if c = '"' then string r
      else if c = '[' then
        match skip r with
        | ']' :: rest => (.arr [], some rest)
        | r =>
          let (xs, rest) := elements fuel r
          (.arr xs, rest)
      else if c = '\x7b' then
        match skip r with
        | '\x7d' :: rest => (.obj [], some rest)
        | r =>
          let (ms, rest) := members fuel r
          (.obj ms, rest)
      else if c = 'n' then word ['u', 'l', 'l'] .null r
      else if c = 't' then word ['r', 'u', 'e'] (.bool true) r
      else if c = 'f' then word ['a', 'l', 's', 'e'] (.bool false) r
      else
        match number (c :: r) with
        | some (n, rest) => (.num n, some rest)
        | none => (.damaged, none)

/-- elements up to the closing bracket -/
def elements : (fuel : Nat) → List Char → List Json × Option (List Char)
  | 0, _ => ([.damaged], none)
  | fuel + 1, cs =>
    match value fuel cs with
    | (v, none) => ([v], none)
    | (v, some r) =>
      match skip r with
      | ',' :: r =>
        let (vs, rest) := elements fuel r
        (v :: vs, rest)
      | ']' :: rest => ([v], some rest)
      | _ => ([v, .damaged], none)

/-- members up to the closing brace; a name that is no string ends the text -/
def members : (fuel : Nat) → List Char → List (Json × Json) × Option (List Char)
  | 0, _ => ([(.damaged, .damaged)], none)
  | fuel + 1, cs =>
    match skip cs with
    | '"' :: r =>
      match string r with
      | (n, none) => ([(n, .damaged)], none)
      | (n, some r) =>
        match skip r with
        | ':' :: r =>
          match value fuel r with
          | (v, none) => ([(n, v)], none)
          | (v, some r) =>
            match skip r with
            | ',' :: r =>
              let (ms, rest) := members fuel r
              ((n, v) :: ms, rest)
            | '\x7d' :: rest => ([(n, v)], some rest)
            | _ => ([(n, v), (.damaged, .damaged)], none)
        | _ => ([(n, .damaged)], none)
    | r => ([((value fuel r).1, .damaged)], none)
end

end Brigade.Json.Scan

namespace Brigade.Json

/-- the value at the start of a text, and what follows it -/
def scan (cs : List Char) : Json × Option (List Char) := Scan.value (2 * cs.length + 2) cs

/-- a text that holds one value and nothing else -/
def parse (s : String) : Option Json :=
  match scan s.toList with
  | (v, some rest) => if (Scan.skip rest).isEmpty then some v else none
  | (_, none) => none

end Brigade.Json
