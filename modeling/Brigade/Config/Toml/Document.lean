/-
Settings files: values and documents.

A document is a series of lines: `key = value`, a header that opens a table, a comment, nothing. A value is a scalar, a
text, a list, or a table in braces. `Toml.parse` gives the members of a document, none if it cannot be read.

Lines, values and brackets get past at least one character for every two calls, so twice the length of the text is fuel
enough.
-/
import Brigade.Config.Toml.Scalar

namespace Brigade.Toml

/-! ## Values -/

mutual
def value : (fuel : Nat) → List Char → Option (Toml × List Char)
  | 0, _ => none
  | _ + 1, [] => none
  | fuel + 1, c :: r =>
    if c = '"' ∨ c = '\'' then (text? (c :: r)).map fun p => (.text p.1, p.2)
    else if c = '[' then (elements fuel (skipAll false r)).map fun p => (.list p.1, p.2)
    else if c = '\x7b' then
      match skipSpace r with
      | '\x7d' :: rest => some (.table .braces [], rest)
      | r => (members fuel [] r).map fun p => (.table .braces p.1, p.2)
    else scalar? (c :: r)

/-- elements up to the closing bracket; a comma may stand before it -/
def elements : (fuel : Nat) → List Char → Option (List Toml × List Char)
  | 0, _ => none
  | _ + 1, ']' :: r => some ([], r)
  | fuel + 1, cs => do
    let (v, r) ← value fuel cs
    match skipAll false r with
    | ',' :: r => (elements fuel (skipAll false r)).map fun p => (v :: p.1, p.2)
    | ']' :: r => some ([v], r)
    | _ => none

/-- members up to the closing brace, after those in `ms` -/
def members : (fuel : Nat) → Members → List Char → Option (Members × List Char)
  | 0, _, _ => none
  | fuel + 1, ms, cs => do
    let (ks, r) ← key? (cs.length + 1) cs
    match r with
    | '=' :: r =>
      let (v, r) ← value fuel (skipSpace r)
      let ms ← put ks v ms
      match skipSpace r with
      | ',' :: r => members fuel ms (skipSpace r)
      | '\x7d' :: r => some (ms, r)
      | _ => none
    | _ => none
end

/-! ## Documents -/

/-- what has been read of a document -/
structure Draft where
  members : Members
  /-- the table that lines are about -/
  current : List String

/-- the rest of a line after the brackets that close a header, of which there are as many as opened it -/
def headerEnd? (double : Bool) (cs : List Char) : Option (List Char) :=
  match double, cs with
  | false, ']' :: r => lineEnd? r
  | true, ']' :: ']' :: r => lineEnd? r
  | _, _ => none

/-- a header after its opening brackets -/
def header? (double : Bool) (d : Draft) (cs : List Char) : Option (Draft × List Char) := do
  let (ks, r) ← key? (cs.length + 1) (skipSpace cs)
  let rest ← headerEnd? double r
  let last ← ks.getLast?
  let ms ← within ks.dropLast (if double then addTable last else openTable last) d.members
  some (⟨ms, ks⟩, rest)

/-- one key with its value -/
def keyValue? (d : Draft) (cs : List Char) : Option (Draft × List Char) := do
  let (ks, r) ← key? (cs.length + 1) cs
  match r with
  | '=' :: r =>
    let (v, r) ← value (2 * r.length + 2) (skipSpace r)
    let rest ← lineEnd? r
    let ms ← within d.current (put ks v) d.members
    some ({ d with members := ms }, rest)
  | _ => none

/-- line after line -/
def document : (fuel : Nat) → Draft → List Char → Option Members
  | 0, _, _ => none
  | fuel + 1, d, cs =>
    match skipAll false cs with
    | [] => some d.members
    | '[' :: '[' :: r => (header? true d r).bind fun p => document fuel p.1 p.2
    | '[' :: r => (header? false d r).bind fun p => document fuel p.1 p.2
    | r => (keyValue? d r).bind fun p => document fuel p.1 p.2

/-- line ends of two characters as one -/
def plainLines : List Char → List Char
  | '\r' :: '\n' :: r => '\n' :: plainLines r
  | c :: r => c :: plainLines r
  | [] => []

/-- a mark at the start of a text that only tells its encoding -/
def dropMark (cs : List Char) : List Char :=
  match cs with
  | c :: r => if c = Char.ofNat 0xFEFF then r else c :: r
  | [] => []

/-- the members of a document, none if it cannot be read -/
def parse (s : String) : Option Members :=
  let cs := plainLines (dropMark s.toList)
  document (cs.length + 1) ⟨[], []⟩ cs

end Brigade.Toml
