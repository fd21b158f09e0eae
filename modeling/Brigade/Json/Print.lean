/-
From a tree to its text, without blanks.

Quotes, backslashes and control characters of a string are escaped; all else stands for itself. Members keep their
order.
-/
import Brigade.Json.Basic
import Brigade.Text.Basic

namespace Brigade

open Brigade.Text

/-- a numeral as it was written -/
def Numeral.text (l : Numeral) : String :=
  (if l.negative then "-" else "") ++ String.ofList (digits l.whole) ++
    (if l.fraction.isEmpty then "" else "." ++ String.ofList l.fraction) ++
    match l.exponent with
    | some x => "e" ++ (if x < 0 then "-" else "") ++ String.ofList (digits x.natAbs)
    | none => ""

namespace Json

/-- a character inside quotes -/
def escape (c : Char) : List Char :=
  if c = '"' then ['\\', '"']
  else if c = '\\' then ['\\', '\\']
  else if c = '\n' then ['\\', 'n']
  else if c = '\r' then ['\\', 'r']
  else if c = '\t' then ['\\', 't']
  else if c.toNat = 8 then ['\\', 'b']
  else if c.toNat = 12 then ['\\', 'f']
  else if c.toNat < 0x20 then ['\\', 'u'] ++ hexPadded 4 c.toNat
  else [c]

def quote (s : String) : String := "\"" ++ String.ofList (s.toList.flatMap escape) ++ "\""

mutual
/-- the text of a tree -/
def render : Json → String
  | null => "null"
  | bool true => "true"
  | bool false => "false"
  | num l => l.text
  | str (some s) => quote s
  | str none => "\"\""
  | arr xs => "[" ++ ",".intercalate (renderAll xs) ++ "]"
  | obj ms => "\x7b" ++ ",".intercalate (renderMembers ms) ++ "\x7d"
  | damaged => ""

def renderAll : List Json → List String
  | [] => []
  | x :: xs => render x :: renderAll xs

def renderMembers : List (Json × Json) → List String
  | [] => []
  | (n, v) :: ms => (render n ++ ":" ++ render v) :: renderMembers ms
end

end Json

end Brigade
