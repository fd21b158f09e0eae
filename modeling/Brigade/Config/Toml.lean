/-
Settings files: the values and tables of TOML.

A table grows in one of four ways (`Grown`), and that decides what may still be added to it: nothing to a table in
braces, keys with points to one that such keys made, headers to one that headers made. No key, no table and no header is
said twice. `put` adds a key of a line, `openTable` and `addTable` the tables of headers in single and double brackets,
and `within` does so in the table that a path leads to; each has no answer where something is in the way.
-/
import Brigade.Double.Basic

namespace Brigade

/-- how a table comes to be -/
inductive Grown where
  /-- written in braces -/
  | braces
  /-- made by keys with points -/
  | points
  /-- passed on the way to the table of a header -/
  | passing
  /-- under a header of its own -/
  | header
deriving DecidableEq, Repr, Inhabited

/-- a value in a settings file -/
inductive Toml where
  | bool (b : Bool)
  | int (i : Int)
  | real (d : Double)
  | text (s : String)
  | list (xs : List Toml)
  | table (grown : Grown) (ms : List (String × Toml))
  /-- the tables under headers in double brackets -/
  | tables (ts : List (List (String × Toml)))
deriving Repr, Inhabited

namespace Toml

abbrev Members : Type := List (String × Toml)

/-- the members with another value for one of them -/
def replace (k : String) (v : Toml) (ms : Members) : Members := ms.map fun m => if m.1 = k then (k, v) else m

/-- put a value at the path of a key, unless something is there or in the way -/
def put : List String → Toml → Members → Option Members
  | [], _, _ => none
  | k :: ks, v, ms =>
    match ms.lookup k, ks with
    | none, [] => some (ms ++ [(k, v)])
    | some _, [] => none
    | none, ks => (put ks v []).map fun inner => ms ++ [(k, .table .points inner)]
    | some (.table .points inner), ks => (put ks v inner).map fun inner => replace k (.table .points inner) ms
    | some _, _ => none

/-- have a table of its own under a header -/
def openTable (k : String) (ms : Members) : Option Members :=
  match ms.lookup k with
  | none => some (ms ++ [(k, .table .header [])])
  | some (.table .passing inner) => some (replace k (.table .header inner) ms)
  | some _ => none

/-- have one more table under a header in double brackets -/
def addTable (k : String) (ms : Members) : Option Members :=
  match ms.lookup k with
  | none => some (ms ++ [(k, .tables [[]])])
  | some (.tables ts) => some (replace k (.tables (ts ++ [[]])) ms)
  | some _ => none

/-- change the table that a path of headers leads to; of several tables under one header it is the last -/
def within : List String → (Members → Option Members) → Members → Option Members
  | [], change, ms => change ms
  | k :: ks, change, ms =>
    match ms.lookup k with
    | none => (within ks change []).map fun inner => ms ++ [(k, .table .passing inner)]
    | some (.table .passing inner) => (within ks change inner).map fun inner => replace k (.table .passing inner) ms
    | some (.table .header inner) => (within ks change inner).map fun inner => replace k (.table .header inner) ms
    | some (.tables ts) => do
      let last ← within ks change (← ts.getLast?)
      return replace k (.tables (ts.dropLast ++ [last])) ms
    | some _ => none

end Toml

end Brigade
