/-
Settings files: blanks, comments, texts and keys.

A text stands in single quotes as it is, or in double quotes with escapes; between three quotes of a kind it may go over
several lines. A key is a bare word or a text in one line, or several of them with points between.

The readers take characters and give what they have read with the characters left over.
-/
import Brigade.Text.Basic

namespace Brigade.Toml

open Brigade.Text

/-! ## Blanks and comments -/

def isSpace (c : Char) : Bool := c = ' ' || c = '\t'

def skipSpace (cs : List Char) : List Char := cs.dropWhile isSpace

/-- what a comment may hold -/
def inComment (c : Char) : Bool := c = '\t' || 0x20 ≤ c.toNat

/-- past the end of a line on which nothing more is said -/
def lineEnd? (cs : List Char) : Option (List Char) :=
  let rest := match skipSpace cs with
    | '#' :: r => r.dropWhile inComment
    | r => r
  match rest with
  | [] => some []
  | '\n' :: r => some r
  | _ => none

/-- past spaces, line ends and comments -/
def skipAll (comment : Bool) : List Char → List Char
  | [] => []
  | c :: r =>
    if comment then (if c = '\n' then skipAll false r else if inComment c then skipAll true r else c :: r)
    else if isSpace c || c = '\n' then skipAll false r
    else if c = '#' then skipAll true r
    else c :: r

/-! ## Escapes -/

/-- so many hexadecimal digits, after `acc` -/
def takeHex : (count acc : Nat) → List Char → Option (Nat × List Char)
  | 0, acc, cs => some (acc, cs)
  | _ + 1, _, [] => none
  | n + 1, acc, c :: cs => (hexValue? c).bind fun d => takeHex n (acc * 16 + d) cs

/-- the character of a number, none for halves of pairs and beyond the last one -/
def character? (n : Nat) : Option Char := if n.isValidChar then some (Char.ofNat n) else none

def simpleEscape? (c : Char) : Option Char :=
  if c = '"' ∨ c = '\\' then some c
  else if c = 'b' then some (Char.ofNat 8)
  else if c = 'f' then some (Char.ofNat 12)
  else if c = 'n' then some '\n'
  else if c = 'r' then some '\r'
  else if c = 't' then some '\t'
  else none

/-- the character of an escape after its backslash -/
def escape? (cs : List Char) : Option (Char × List Char) :=
  match cs with
  | [] => none
  | c :: r =>
    if c = 'u' ∨ c = 'U' then do
      let (n, r) ← takeHex (if c = 'u' then 4 else 8) 0 r
      let x ← character? n
      some (x, r)
    else (simpleEscape? c).map fun x => (x, r)

/-! ## Texts -/

/-- what a text may hold as it is -/
def inText (c : Char) : Bool := c = '\t' || (0x20 ≤ c.toNat && c.toNat != 0x7F)

/-- a text with escapes, after its opening quote -/
def escaped : (fuel : Nat) → List Char → Option (List Char × List Char)
  | 0, _ => none
  | _ + 1, [] => none
  | fuel + 1, c :: cs =>
    if c = '"' then some ([], cs)
    else if c = '\\' then do
      let (x, r) ← escape? cs
      let (xs, r) ← escaped fuel r
      some (x :: xs, r)
    else if inText c then (escaped fuel cs).map fun p => (c :: p.1, p.2)
    else none

/-- a text without escapes, after its opening quote -/
def verbatim : List Char → Option (List Char × List Char)
  | [] => none
  | c :: cs =>
    if c = '\'' then some ([], cs)
    else if inText c then (verbatim cs).map fun p => (c :: p.1, p.2)
    else none

/-- a text in quotes of either kind, none if no quote comes next -/
def quoted? (cs : List Char) : Option (String × List Char) :=
  match cs with
  | [] => none
  | c :: r =>
    if c = '"' then (escaped (r.length + 1) r).map fun p => (String.ofList p.1, p.2)
    else if c = '\'' then (verbatim r).map fun p => (String.ofList p.1, p.2)
    else none

/-! ## Texts over several lines -/

/-- past a line end after a backslash, and past the blanks that follow it -/
def lineBreak? (cs : List Char) : Option (List Char) :=
  match skipSpace cs with
  | '\n' :: r => some (r.dropWhile fun c => isSpace c || c = '\n')
  | _ => none

/-- a text after its three opening quotes; of up to five quotes in a row the last three close it -/
def long (quote : Char) : (fuel : Nat) → List Char → Option (List Char × List Char)
  | 0, _ => none
  | _ + 1, [] => none
  | fuel + 1, c :: cs =>
    if c = quote then
      let run := 1 + (cs.takeWhile (· = quote)).length
      if run < 3 then (long quote fuel (cs.drop (run - 1))).map fun p => (List.replicate run quote ++ p.1, p.2)
      else some (List.replicate (min run 5 - 3) quote, cs.drop (min run 5 - 1))
    else if c = '\\' ∧ quote = '"' then
      match lineBreak? cs with
      | some r => long quote fuel r
      | none => do
        let (x, r) ← escape? cs
        let (xs, r) ← long quote fuel r
        some (x :: xs, r)
    else if inText c || c = '\n' then (long quote fuel cs).map fun p => (c :: p.1, p.2)
    else none

/-- past a line end -/
def pastLineEnd (cs : List Char) : List Char :=
  match cs with
  | '\n' :: r => r
  | r => r

/-- a text in one or three quotes of either kind; a line end right after three opening quotes does not count -/
def text? (cs : List Char) : Option (String × List Char) :=
  match cs with
  | a :: b :: c :: r =>
    if (a = '"' ∨ a = '\'') ∧ b = a ∧ c = a then
      (long a (r.length + 1) (pastLineEnd r)).map fun p => (String.ofList p.1, p.2)
    else quoted? cs
  | _ => quoted? cs

/-! ## Keys -/

/-- what a bare word is made of -/
def inWord (c : Char) : Bool := c.isAlphanum || c = '_' || c = '-'

/-- a key without points -/
def simpleKey? (cs : List Char) : Option (String × List Char) :=
  let word := cs.takeWhile inWord
  if word.isEmpty then quoted? cs else some (String.ofList word, cs.dropWhile inWord)

/-- the steps of a key, and the characters after the spaces that follow it -/
def key? : (fuel : Nat) → List Char → Option (List String × List Char)
  | 0, _ => none
  | fuel + 1, cs => do
    let (k, r) ← simpleKey? cs
    match skipSpace r with
    | '.' :: r => (key? fuel (skipSpace r)).map fun p => (k :: p.1, p.2)
    | r => some ([k], r)

end Brigade.Toml
