/-
Identifiers: 128 bits, written as 32 hexadecimal digits in groups of 8, 4, 4, 4 and 12.

Written always in lower case with hyphens (`text`). Read in any case, and in four forms: hyphenated, bare digits, in
braces, and as a URN (`ofText?`).
-/
import Brigade.Text.Basic

namespace Brigade

open Brigade.Text

/-- the identity of an aggregate, an order line or a goal -/
structure Id where
  bits : BitVec 128
deriving DecidableEq, Repr, Inhabited

namespace Id

def nil : Id := ⟨0⟩

def ofNat (n : Nat) : Id := ⟨BitVec.ofNat 128 n⟩

/-- an identity from 128 random bits: six of them are fixed and say that it is random -/
def ofRandom (n : Nat) : Id :=
  ⟨(BitVec.ofNat 128 n &&& ~~~(0xF000C000000000000000#128)) ||| 0x40008000000000000000#128⟩

/-- the order of the written forms -/
def le (a b : Id) : Bool := a.bits.toNat ≤ b.bits.toNat

/-! ## Writing -/

/-- 32 hexadecimal digits -/
def hexDigits (i : Id) : List Char := hexPadded 32 i.bits.toNat

/-- digits cut into the five groups -/
def hyphenate (ds : List Char) : List Char :=
  ds.take 8 ++ '-' :: (ds.drop 8).take 4 ++ '-' :: (ds.drop 12).take 4 ++ '-' :: (ds.drop 16).take 4 ++ '-' :: ds.drop 20

def text (i : Id) : String := String.ofList (hyphenate i.hexDigits)

/-! ## Reading -/

/-- 32 hexadecimal digits of either case -/
def ofHex? (cs : List Char) : Option Id :=
  if cs.length = 32 then
    (cs.foldlM (fun n c => (hexValue? c).map (n * 16 + ·)) 0).map ofNat
  else none

/-- five groups with hyphens between them -/
def ofHyphenated? (cs : List Char) : Option Id :=
  if cs.length = 36 ∧ cs[8]? = some '-' ∧ cs[13]? = some '-' ∧ cs[18]? = some '-' ∧ cs[23]? = some '-' then
    ofHex? (cs.take 8 ++ (cs.drop 9).take 4 ++ (cs.drop 14).take 4 ++ (cs.drop 19).take 4 ++ cs.drop 24)
  else none

/-- what a URN starts with, in lower case -/
def urnHead : List Char := ['u', 'r', 'n', ':', 'u', 'u', 'i', 'd', ':']

/-- an identifier in any of its four forms -/
def ofText? (s : String) : Option Id :=
  let cs := s.toList
  if cs.length = 32 then ofHex? cs
  else if cs.length = 36 then ofHyphenated? cs
  else if cs.length = 38 then
    match cs, cs.getLast? with
    | '\x7b' :: r, some '\x7d' => ofHyphenated? r.dropLast
    | _, _ => none
  else if cs.length = 45 ∧ urnHead.isPrefixOf (cs.map Char.toLower) then ofHyphenated? (cs.drop 9)
  else none

end Id

end Brigade
