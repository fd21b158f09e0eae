/-
Failures of a service: why a command or a query gives no result.

A refusal of the domain is shown as a list of messages that is never empty; a list without messages becomes one general
message (`Refusal.ofMessages_nil`).

There are ten kinds of failures. Only `staleWrite`, a write over a version that is no longer stored, is worth a retry
(`retryable_iff_staleWrite`). A failure is shown in one line (`text`), as a list of messages (`messages`), and counted
under the name of its kind (`kind`). A text is looked for in the messages without regard to case.
-/
import Brigade.Id
import Brigade.Json.Basic
import Brigade.Text.Case

namespace Brigade

/-! ## Refusals -/

/-- the messages of a refused operation -/
structure Refusal where
  messages : List String
  messages_ne_nil : messages ≠ []
deriving DecidableEq, Repr

namespace Refusal

def one (m : String) : Refusal := ⟨[m], by simp⟩

instance : Inhabited Refusal := ⟨one "Operation failed"⟩

/-- the refusal with these messages, or with a general one -/
def ofMessages (ms : List String) : Refusal :=
  if h : ms = [] then one "Operation failed" else ⟨ms, h⟩

@[simp] theorem ofMessages_nil : (ofMessages []).messages = ["Operation failed"] := rfl

@[simp] theorem ofMessages_cons (m : String) (ms : List String) : (ofMessages (m :: ms)).messages = m :: ms := rfl

/-- all messages in one line -/
def text (r : Refusal) : String := "; ".intercalate r.messages

/-- whether some message contains the needle, whatever the case of either -/
def mentions (r : Refusal) (needle : String) : Bool :=
  r.messages.any fun m => Text.containsIgnoringCase m needle

def toJson (r : Refusal) : Json := .record [("messages", .arr (r.messages.map Json.text))]

end Refusal

/-! ## Failures -/

inductive Failure where
  | notFound (m : String)
  | validation (m : String)
  | invalidOperation (m : String)
  | domain (r : Refusal)
  | staleWrite (id : Id)
  | alreadyExists (m : String)
  | conflict (m : String)
  | cancelled (m : String)
  | event (m : String)
  | internal (m : String)
deriving DecidableEq, Repr

/-- the kinds of failures -/
inductive FailureKind where
  | notFound
  | validation
  | invalidOperation
  | domain
  | staleWrite
  | alreadyExists
  | conflict
  | cancelled
  | event
  | internal
deriving DecidableEq, Repr, Inhabited

def FailureKind.name : FailureKind → String
  | .notFound => "not_found"
  | .validation => "validation_error"
  | .invalidOperation => "invalid_operation"
  | .domain => "domain_error"
  | .staleWrite => "concurrent_modification"
  | .alreadyExists => "already_exists"
  | .conflict => "conflict"
  | .cancelled => "cancelled"
  | .event => "event_error"
  | .internal => "internal_error"

namespace Failure

def kind : Failure → FailureKind
  | notFound _ => .notFound
  | validation _ => .validation
  | invalidOperation _ => .invalidOperation
  | domain _ => .domain
  | staleWrite _ => .staleWrite
  | alreadyExists _ => .alreadyExists
  | conflict _ => .conflict
  | cancelled _ => .cancelled
  | event _ => .event
  | internal _ => .internal

/-- the failure in one line -/
def text : Failure → String
  | notFound m => "Not found: " ++ m
  | validation m => "Validation error: " ++ m
  | invalidOperation m => "Invalid operation: " ++ m
  | domain r => r.text
  | staleWrite i => "Concurrent modification: " ++ i.text
  | alreadyExists m => "Already exists: " ++ m
  | conflict m => "Conflict: " ++ m
  | cancelled m => "Cancelled: " ++ m
  | event m => "Event error: " ++ m
  | internal m => "Internal error: " ++ m

/-- the messages shown to the caller -/
def messages : Failure → List String
  | notFound m => [m]
  | validation m => [m]
  | invalidOperation m => [m]
  | domain r => r.messages
  | staleWrite i => ["Concurrent modification detected for " ++ i.text]
  | alreadyExists m => [m]
  | conflict m => [m]
  | cancelled m => [m]
  | event m => [m]
  | internal m => [m]

/-- whether some message contains the needle, whatever the case of either -/
def mentions (f : Failure) (needle : String) : Bool :=
  f.messages.any fun m => Text.containsIgnoringCase m needle

/-- a retry may help -/
def retryable : Failure → Bool
  | staleWrite _ => true
  | _ => false

theorem retryable_iff_staleWrite {f : Failure} : f.retryable = true ↔ ∃ i, f = staleWrite i := by
  cases f <;> simp [retryable]

def toJson : Failure → Json
  | notFound m => .record [("NotFound", .text m)]
  | validation m => .record [("ValidationError", .text m)]
  | invalidOperation m => .record [("InvalidOperation", .text m)]
  | domain r => .record [("Domain", r.toJson)]
  | staleWrite i => .record [("ConcurrentModification", .text i.text)]
  | alreadyExists m => .record [("AlreadyExists", .text m)]
  | conflict m => .record [("Conflict", .text m)]
  | cancelled m => .record [("Cancelled", .text m)]
  | event m => .record [("EventError", .text m)]
  | internal m => .record [("InternalError", .text m)]

end Failure

end Brigade
