/-
What operations are made of: how one ends, and how it changes one element of a list.

An operation ends with a value, with a refusal of its own kind, or in a fault. A refusal is part of the rules (an order
that is already served cannot be cancelled). A fault is not: it is arithmetic that has no answer in the width it is done
in, or a cut inside a character, and it stops the whole request. `Outcome` keeps the two apart, so that a theorem about
refusals says nothing by accident about faults.

`updateFirst` changes the first element of a list that fits a condition. Nothing else changes: not the length, not the
order, not the other elements (`length_updateFirst`, `updateFirst_of_none`).
-/

namespace Brigade

/-! ## How an operation ends -/

/-- arithmetic without an answer, a size without room, or a cut inside a character -/
inductive Fault where
  | additionOutOfRange
  | subtractionOutOfRange
  | negationOutOfRange
  | decimalSumTooLarge
  | decimalProductTooLarge
  | negativeDelay
  | delayTooLarge
  | channelTooLarge
  | listTooLong
  | cutInsideCharacter
deriving DecidableEq, Repr, Inhabited

def Fault.message : Fault → String
  | .additionOutOfRange => "attempt to add with overflow"
  | .subtractionOutOfRange => "attempt to subtract with overflow"
  | .negationOutOfRange => "attempt to negate with overflow"
  | .decimalSumTooLarge => "Addition overflowed"
  | .decimalProductTooLarge => "Multiplication overflowed"
  | .negativeDelay => "cannot convert float seconds to Duration: value is negative"
  | .delayTooLarge => "cannot convert float seconds to Duration: value is either too big or NaN"
  | .channelTooLarge => "a semaphore may not have more than MAX_PERMITS permits (2305843009213693951)"
  | .listTooLong => "capacity overflow"
  | .cutInsideCharacter => "byte index is not a char boundary"

/-- a value, a refusal with its cause, or a fault -/
inductive Outcome (ε α : Type) where
  | ok (a : α)
  | refused (e : ε)
  | fault (f : Fault)
deriving DecidableEq, Repr

namespace Outcome

variable {ε ε' α β : Type}

protected def bind : Outcome ε α → (α → Outcome ε β) → Outcome ε β
  | ok a, k => k a
  | refused e, _ => refused e
  | fault f, _ => fault f

instance : Monad (Outcome ε) where
  pure := ok
  bind := Outcome.bind

/-- the same outcome with its cause renamed -/
def mapRefusal (g : ε → ε') : Outcome ε α → Outcome ε' α
  | ok a => ok a
  | refused e => refused (g e)
  | fault f => fault f

/-- what is left in place of `a` after an attempt to change it: a refused attempt changes nothing -/
def settle (a : α) : Outcome ε α → Except Fault α
  | ok b => .ok b
  | refused _ => .ok a
  | fault f => .error f

@[simp] theorem ok_bind (a : α) (k : α → Outcome ε β) : (ok a >>= k) = k a := rfl
@[simp] theorem refused_bind (e : ε) (k : α → Outcome ε β) : (refused e >>= k) = refused e := rfl
@[simp] theorem fault_bind (f : Fault) (k : α → Outcome ε β) : ((fault f : Outcome ε α) >>= k) = fault f := rfl
@[simp] theorem pure_eq_ok (a : α) : (pure a : Outcome ε α) = ok a := rfl

/-- a bind succeeds exactly when both halves do -/
theorem bind_eq_ok {x : Outcome ε α} {k : α → Outcome ε β} {b : β} :
    (x >>= k) = ok b ↔ ∃ a, x = ok a ∧ k a = ok b := by
  cases x <;> simp

theorem settle_eq_ok {a b : α} {x : Outcome ε α} (h : x.settle a = .ok b) : b = a ∨ x = ok b := by
  cases x with
  | ok c => exact .inr (congrArg ok (Except.ok.inj h))
  | refused e => exact .inl (Except.ok.inj h).symm
  | fault f => cases h

end Outcome

theorem Except.bind_eq_ok {ε α β : Type} {x : Except ε α} {k : α → Except ε β} {b : β} :
    (x >>= k) = .ok b ↔ ∃ a, x = .ok a ∧ k a = .ok b := by
  cases x <;> simp [bind, Except.bind]

/-! ## Changing one element -/

section UpdateFirst

variable {α : Type}

/-- apply `f` to the first element with `p`; a list without one stays as it is -/
def updateFirst (p : α → Bool) (f : α → α) : List α → List α
  | [] => []
  | a :: as => if p a then f a :: as else a :: updateFirst p f as

@[simp] theorem length_updateFirst (p : α → Bool) (f : α → α) (as : List α) :
    (updateFirst p f as).length = as.length := by
  induction as with
  | nil => rfl
  | cons a as ih => unfold updateFirst; split <;> simp [ih]

theorem updateFirst_of_none {p : α → Bool} {as : List α} (h : as.find? p = none) (f : α → α) :
    updateFirst p f as = as := by
  induction as with
  | nil => rfl
  | cons a as ih =>
    rw [List.find?_cons] at h
    unfold updateFirst
    split at h
    · cases h
    · rename_i hp
      simp [hp, ih h]

end UpdateFirst

end Brigade
