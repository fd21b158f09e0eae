/-
Which lines of the log are shown.

A filter is a list of directives. A directive sets a limit for some lines: those whose target starts with a given text,
or all, and of them perhaps only those with a given field. Lines up to the limit are shown. Of the directives that cover
a line the closest one decides: the one with the longest target, then with a field, then with the greater name of a
field; of two alike the later one (`LogFilter.deciding?`). A line that no directive covers is not shown.

A filter is written with commas between directives. A directive is a level, a target, or a target and a level with `=`
between them; after the target `[{field}]` may name a field. Without a level all levels are meant. What cannot be read
is left out, and a text without any directive shows errors alone (`LogFilter.ofText`). A directive that names a span or
the value of a field is about spans and covers no line.

The marks of a directive are looked for past its leading white space, but its parts are cut at those positions from the
text as it stands. So white space in front shifts every part of a directive; a shifted cut may fall inside a character,
and that is a fault.
-/
import Brigade.Operation
import Brigade.Log.Line
import Brigade.Text.Alphanumeric
import Brigade.Text.Basic

namespace Brigade

structure LogDirective where
  /-- what the target must start with; none for all -/
  target : Option String
  /-- the field that a line must have; none for all -/
  field : Option String
  /-- about spans, not about lines -/
  ofSpans : Bool
  /-- the highest rank that is shown -/
  limit : Nat
deriving DecidableEq, Repr

namespace LogDirective

open Brigade.Text

/-! ## Reading -/

/-- a level's name in any case, or its rank -/
def limit? (cs : List Char) : Option Nat :=
  let digits := match cs with
    | '+' :: r => r
    | r => r
  match readNat? digits with
  | some n => if n ≤ LogLevel.trace.rank then some n else none
  | none => List.lookup (String.ofList (cs.map Char.toLower))
    [("off", 0), ("error", 1), ("warn", 2), ("info", 3), ("debug", 4), ("trace", 5)]

/-- what a directive may start with, brackets apart -/
def canStart (c : Char) : Bool := c = '_' || c = ':' || c = '-' || isAlphanumeric c

/-- what comes after the first `n` bytes -/
def after (cs : List Char) (n : Nat) : Outcome Unit (List Char) :=
  match dropBytes? n cs with
  | some r => .ok r
  | none => .fault .cutInsideCharacter

/-- as many bytes as `part` takes, after the first `n` bytes -/
def partAt (cs : List Char) (n : Nat) (part : List Char) : Outcome Unit (List Char) := do
  match takeBytes? (byteLength part) (← after cs n) with
  | some r => .ok r
  | none => .fault .cutInsideCharacter

/-- the limit that stands after the first `n` bytes -/
def limitAt (cs : List Char) (n : Nat) : Outcome Unit Nat := do
  let level ← after cs n
  if level.isEmpty then .ok LogLevel.trace.rank
  else match limit? level with
    | some limit => .ok limit
    | none => .refused ()

/-- the limit of a directive `cs` whose last bracket is closed by its first `n` bytes, before `rest` -/
def limitClosed (cs : List Char) (n : Nat) : (rest : List Char) → Outcome Unit Nat
  | [] => .ok LogLevel.trace.rank
  | '=' :: _ => limitAt cs (n + 1)
  | _ => .refused ()

/-- the directive `cs` whose bracket is opened by its first `n` bytes, before `rest` -/
def bracket (cs : List Char) (target : Option String) (n : Nat) (rest : List Char) : Outcome Unit LogDirective := do
  let isMark (c : Char) : Bool := c == ']' || c == '\x7b'
  let name := rest.takeWhile fun c => !isMark c
  match rest.dropWhile fun c => !isMark c with
  | [] => .refused ()
  | ']' :: rest =>
    let _ ← partAt cs n name
    return ⟨target, none, true, ← limitClosed cs (n + byteLength name + 1) rest⟩
  | _ :: rest =>
    let _ ← partAt cs n name
    let n := n + byteLength name + 1
    let field := rest.takeWhile (· != '\x7d')
    match rest.dropWhile (· != '\x7d') with
    | [] => .refused ()
    | _ :: rest =>
      let named ← partAt cs n field
      match named, rest with
      | _ :: _, ']' :: rest =>
        let limit ← limitClosed cs (n + byteLength field + 2) rest
        return ⟨target, some (String.ofList named), !name.isEmpty || named.contains '=', limit⟩
      | _, _ => .refused ()

/-- one directive -/
def read (cs : List Char) : Outcome Unit LogDirective :=
  let marks := trimmed cs
  let target := marks.takeWhile fun c => c != '=' && c != '['
  let n := byteLength target
  match marks.dropWhile fun c => c != '=' && c != '[', target with
  | '[' :: rest, [] => bracket cs none 1 rest
  | _, [] => .refused ()
  | rest, c :: _ =>
    if !canStart c then .refused ()
    else match rest with
      | [] => match limit? cs with
        | some limit => .ok ⟨none, none, false, limit⟩
        | none => .ok ⟨some (String.ofList cs), none, false, LogLevel.trace.rank⟩
      | '[' :: rest => do
        let target ← partAt cs 0 target
        bracket cs (some (String.ofList target)) (n + 1) rest
      | _ => do
        let target ← partAt cs 0 target
        return ⟨some (String.ofList target), none, false, ← limitAt cs (n + 1)⟩

/-! ## Covering -/

/-- the names of the fields of a line; the message is one of them -/
def fieldNames (l : LogLine) : List String := "message" :: l.fields.map (·.1)

def covers (d : LogDirective) (l : LogLine) : Bool :=
  !d.ofSpans && (d.target.all fun t => t.toList.isPrefixOf l.target.toList) &&
    (d.field.all fun f => (fieldNames l).contains f)

/-- how long the text of a part is, none shorter than any -/
def extent : Option String → Nat
  | none => 0
  | some s => s.length + 1

/-- whether `b` is at least as close to its lines as `a` -/
def upTo (a b : LogDirective) : Bool :=
  extent a.target < extent b.target ||
    extent a.target == extent b.target && (match a.field, b.field with
      | none, _ => true
      | some _, none => false
      | some f, some g => !(g < f))

end LogDirective

abbrev LogFilter : Type := List LogDirective

namespace LogFilter

variable {ε : Type}

/-- the directives that can be read -/
def readAll : List (List Char) → Outcome ε LogFilter
  | [] => .ok []
  | cs :: rest =>
    match LogDirective.read cs with
    | .ok d => do return d :: (← readAll rest)
    | .refused _ => readAll rest
    | .fault f => .fault f

def ofText (s : String) : Outcome ε LogFilter := do
  match ← readAll (s.toList.splitOn ',') with
  | [] => return [⟨none, none, false, LogLevel.error.rank⟩]
  | ds => return ds

/-- the directive that decides about a line -/
def deciding? (f : LogFilter) (l : LogLine) : Option LogDirective :=
  (f.filter (·.covers l)).foldl
    (fun best d => match best with
      | some b => if b.upTo d then some d else some b
      | none => some d) none

/-- the highest rank that is shown of lines like this one -/
def limit (f : LogFilter) (l : LogLine) : Nat :=
  match f.deciding? l with
  | some d => d.limit
  | none => 0

def shows (f : LogFilter) (l : LogLine) : Bool := l.level.rank ≤ f.limit l

/-- the filter of a program: what is asked for, unless that is blank, else its own target at its own level -/
def forProgram (asked : Option String) (target level : String) : Outcome ε LogFilter :=
  match asked with
  | some s => if Text.allBlank s then ofText (target ++ "=" ++ level) else ofText s
  | none => ofText (target ++ "=" ++ level)

end LogFilter

end Brigade
