/-
Reading values of the domain from a tree.

A `Reader` takes a tree and gives a value or the first mistake. The order of the checks is part of the format:

- an object is read member by member in text order. A repeated name, a bad value and a name that is not known (in a
  closed record) stop it where they stand; a value that nothing asks for only has to be sound;
- then the fields are taken in the order of their declaration, and the first missing one stops it;
- a record may also be an array of its fields in that order, with none missing and none left over;
- the checks of the type itself come last.

Damage met on the way is `malformed`, so a mistake before the place where a text breaks wins.
-/
import Brigade.Arithmetic
import Brigade.Operation
import Brigade.Decimal.Text
import Brigade.Id
import Brigade.Time.Text
import Brigade.Json.Number

namespace Brigade

/-- why a tree could not be read -/
inductive ReadError where
  /-- not JSON, or JSON of a shape that no value of the type has -/
  | malformed
  | invalidType
  | invalidValue
  | invalidLength
  | missingField (field : String)
  | duplicateField (field : String)
  | unknownField (field : String) (known : List String)
  | unknownVariant (variant : String) (known : List String)
  /-- the type's own rules refuse the value -/
  | refused (message : String)
  | malformedId
  | malformedTime
  | fault (f : Fault)
deriving DecidableEq, Repr

namespace ReadError

def inTicks (s : String) : String := "`" ++ s ++ "`"

/-- the names that were expected -/
def expected (known : List String) : String :=
  match known with
  | [] => "there are no names"
  | [a] => "expected " ++ inTicks a
  | [a, b] => "expected " ++ inTicks a ++ " or " ++ inTicks b
  | names => "expected one of " ++ ", ".intercalate (names.map inTicks)

/-- the text shown for a mistake, if it has one -/
def message? : ReadError → Option String
  | malformed => none
  | invalidType => some "invalid type"
  | invalidValue => some "invalid value"
  | invalidLength => some "invalid length"
  | missingField f => some ("missing field " ++ inTicks f)
  | duplicateField f => some ("duplicate field " ++ inTicks f)
  | unknownField f known => some ("unknown field " ++ inTicks f ++ ", " ++ expected known)
  | unknownVariant v known => some ("unknown variant " ++ inTicks v ++ ", " ++ expected known)
  | refused m => some m
  | malformedId => none
  | malformedTime => none
  | fault f => some f.message

end ReadError

/-- a way to read a value from a tree -/
abbrev Reader (α : Type) : Type := Json → Except ReadError α

namespace Reader

open Json

variable {α β : Type}

/-- the mistake of a value of the wrong type -/
def mismatch : Json → ReadError
  | damaged => .malformed
  | str none => .malformed
  | num l => match l.value with
    | .tooLarge => .malformed
    | _ => .invalidType
  | _ => .invalidType

/-! ## Plain values -/

def bool : Reader Bool
  | .bool b => .ok b
  | j => .error (mismatch j)

def string : Reader String
  | str (some s) => .ok s
  | j => .error (mismatch j)

/-- a whole number in a range -/
def whole (lo hi : Int) : Reader Int
  | num l => match l.value with
    | .whole i => if lo ≤ i ∧ i ≤ hi then .ok i else .error .invalidValue
    | .double _ => .error .invalidType
    | .tooLarge => .error .malformed
  | j => .error (mismatch j)

def int32 : Reader Int32 := fun j => do
  let i ← whole (-two31) (two31 - 1) j
  match Word.ofInt? i with
  | some w => .ok w
  | none => .error .invalidValue

def nat32 : Reader Nat := fun j => return (← whole 0 (two32 - 1) j).toNat

def nat64 : Reader Nat := fun j => return (← whole 0 (two64 - 1) j).toNat

def double : Reader Float
  | num l => match l.value with
    | .whole i => .ok (Float.ofInt i)
    | .double f => .ok f
    | .tooLarge => .error .malformed
  | j => .error (mismatch j)

/-- a value that was read, or the mistake of an impossible one -/
def orInvalid : Option α → Except ReadError α
  | some a => .ok a
  | none => .error .invalidValue

/-- a decimal: a text, a whole number, or the shortest digits of a double -/
def decimal : Reader Decimal
  | str (some s) => orInvalid (Decimal.ofText? s)
  | num l => match l.value with
    | .whole i => orInvalid (Decimal.ofParts? i 0)
    | .double f => orInvalid (Decimal.ofPlainText? (Double.ofFloat f).plainText.toList)
    | .tooLarge => .error .malformed
  | j => .error (mismatch j)

def id : Reader Id
  | str (some s) => match Id.ofText? s with
    | some i => .ok i
    | none => .error .malformedId
  | j => .error (mismatch j)

def time : Reader Timestamp
  | str (some s) => match Timestamp.ofText? s with
    | some t => .ok t
    | none => .error .malformedTime
  | j => .error (mismatch j)

/-! ## Options, lists -/

/-- null, or a value -/
def option (r : Reader α) : Reader (Option α)
  | null => .ok none
  | j => (r j).map some

/-- all elements, from the left -/
def all (r : Reader α) : List Json → Except ReadError (List α)
  | [] => .ok []
  | x :: xs => do
    let a ← r x
    let as ← all r xs
    return a :: as

def list (r : Reader α) : Reader (List α)
  | arr xs => all r xs
  | j => .error (mismatch j)

/-! ## Records -/

/-- a field that is looked for -/
structure Field where
  name : String
  check : Json → Except ReadError Unit

def field (name : String) (r : Reader α) : Field := ⟨name, fun j => (r j).map fun _ => ()⟩

/-- go through the members in text order -/
def walk (fields : List Field) (closed : Bool) : (seen : List String) → List (Json × Json) → Except ReadError Unit
  | _, [] => .ok ()
  | seen, (str (some name), v) :: ms =>
    match fields.find? (·.name == name) with
    | some f =>
      if seen.contains name then .error (.duplicateField name)
      else do
        f.check v
        walk fields closed (name :: seen) ms
    | none =>
      if closed then .error (.unknownField name (fields.map (·.name)))
      else if v.sound then walk fields closed seen ms
      else .error .malformed
  | _, _ :: _ => .error .malformed

/-- where the fields of a record come from -/
inductive Source where
  | named (ms : List (Json × Json))
  | listed (xs : List Json)

/-- a field that must be there -/
def Source.required (s : Source) (i : Nat) (name : String) (r : Reader α) : Except ReadError α :=
  match s with
  | named ms => match find? name ms with
    | some j => r j
    | none => .error (.missingField name)
  | listed xs => match xs[i]? with
    | some j => r j
    | none => .error .invalidLength

/-- a field that may be null, and in an object also missing -/
def Source.optional (s : Source) (i : Nat) (name : String) (r : Reader α) : Except ReadError (Option α) :=
  match s with
  | named ms => match find? name ms with
    | some j => option r j
    | none => .ok none
  | listed xs => match xs[i]? with
    | some j => option r j
    | none => .error .invalidLength

/-- a field with a default -/
def Source.defaulted (s : Source) (i : Nat) (name : String) (r : Reader α) (d : α) : Except ReadError α :=
  match s with
  | named ms => match find? name ms with
    | some j => r j
    | none => .ok d
  | listed xs => match xs[i]? with
    | some j => r j
    | none => .ok d

/-- a record, given as an object or as an array -/
def record (fields : List Field) (closed : Bool) (build : Source → Except ReadError α) : Reader α
  | obj ms => do
    walk fields closed [] ms
    build (.named ms)
  | arr xs => do
    let a ← build (.listed xs)
    if xs.length ≤ fields.length then .ok a else .error .malformed
  | j => .error (mismatch j)

/-! ## Variants -/

/-- what a variant carries -/
inductive Content (α : Type) where
  | nothing (a : α)
  | carrying (r : Reader α)

def Content.read : Content α → Reader α
  | nothing a, null => .ok a
  | nothing _, j => .error (mismatch j)
  | carrying r, j => r j

/-- the variant of a name -/
def variantNamed (vs : List (String × Content α)) (name : String) : Except ReadError (Content α) :=
  match vs.lookup name with
  | some c => .ok c
  | none => .error (.unknownVariant name (vs.map (·.1)))

/-- a variant: its name alone if it carries nothing, else an object with the name as its only member -/
def variant (vs : List (String × Content α)) : Reader α
  | str (some name) => do
    match ← variantNamed vs name with
    | .nothing a => .ok a
    | .carrying _ => .error .invalidType
  | obj ((str (some name), v) :: more) => do
    let c ← variantNamed vs name
    let a ← c.read v
    if more.isEmpty then .ok a else .error .malformed
  | obj ((name, _) :: _) => .error (mismatch name)
  | _ => .error .malformed

/-- one of some names -/
def named (vs : List (String × α)) : Reader α := variant (vs.map fun v => (v.1, .nothing v.2))

/-! ## Texts -/

/-- a text that holds one value and nothing else -/
def ofText (r : Reader α) (s : String) : Except ReadError α :=
  match scan s.toList with
  | (j, rest) => do
    let a ← r j
    match rest with
    | some cs => if (Scan.skip cs).isEmpty then .ok a else .error .malformed
    | none => .error .malformed

/-- a value that the type's own rules may refuse -/
def ofOutcome {ε : Type} (message : ε → String) : Outcome ε α → Except ReadError α
  | .ok a => .ok a
  | .refused e => .error (.refused (message e))
  | .fault f => .error (.fault f)

end Reader

end Brigade
