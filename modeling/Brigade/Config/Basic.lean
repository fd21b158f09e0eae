/-
The settings of the program.

Every setting has a default. Read from JSON, a record of settings is closed: a name that is not a setting is refused. The
conditions on the values are checked apart from reading (`AppConfig.complaints`).
-/
import Brigade.Command

namespace Brigade

structure AppConfig where
  environment : String
  logLevel : String
  logJson : Bool
  /-- tries after the first one -/
  maxRetries : Nat
  /-- milliseconds between tries -/
  retryDelay : Nat
  orderNumberFront : String
  eventCapacity : Nat
deriving DecidableEq, Repr

namespace AppConfig

def standard : AppConfig := ⟨"development", "info", false, 3, 0, "ORD", 1024⟩

instance : Inhabited AppConfig := ⟨standard⟩

/-- ASCII letters in lower case -/
def asciiLower (s : String) : String := String.ofList (s.toList.map Char.toLower)

def isProduction (c : AppConfig) : Bool := asciiLower c.environment == "production"

/-- one try more than retries, a 32-bit number -/
def maxAttempts (c : AppConfig) : Outcome Empty Nat :=
  if c.maxRetries + 1 < two32 then .ok (c.maxRetries + 1) else .fault .additionOutOfRange

/-- the retries of goal commands: the first wait is as long as set, the longest at least a second -/
def retryPolicy (c : AppConfig) : Outcome Empty RetryPolicy := do
  let n ← c.maxAttempts
  let d := Duration.ofMillis c.retryDelay
  return ⟨n, d, d.max RetryPolicy.standard.maxDelay, RetryPolicy.standard.backoff⟩

/-- what commands need of the settings -/
def settings (c : AppConfig) : Outcome Empty Settings := do
  let p ← c.retryPolicy
  return ⟨p, c.orderNumberFront⟩

/-! ## Conditions -/

def logLevels : List String := ["trace", "debug", "info", "warn", "error"]

def complaints (c : AppConfig) : List Complaint :=
  Validation.check (logLevels.contains (Text.lowercase c.logLevel)) "log_level"
      (some ("Must be one of: " ++ ", ".intercalate logLevels)) ++
    Validation.check (c.maxRetries ≤ 10) "concurrency_max_retries" none ++
    Validation.check (c.retryDelay ≤ 10000) "concurrency_retry_delay_ms" none ++
    Validation.check (1 ≤ c.orderNumberFront.length && c.orderNumberFront.length ≤ 10) "order_number_prefix" none ++
    Validation.check (1 ≤ c.eventCapacity && c.eventCapacity ≤ 100000) "event_channel_capacity"
      (some "event_channel_capacity must be between 1 and 100000")

/-! ## JSON -/

/-- the names of the settings -/
def names : List String :=
  ["environment", "log_level", "log_json", "concurrency_max_retries", "concurrency_retry_delay_ms",
    "order_number_prefix", "event_channel_capacity"]

def fields : List Reader.Field :=
  [Reader.field "environment" Reader.string, Reader.field "log_level" Reader.string,
    Reader.field "log_json" Reader.bool, Reader.field "concurrency_max_retries" Reader.nat32,
    Reader.field "concurrency_retry_delay_ms" Reader.nat64, Reader.field "order_number_prefix" Reader.string,
    Reader.field "event_channel_capacity" Reader.nat64]

def read : Reader AppConfig := Reader.record fields true fun s => do
  let e ← s.defaulted 0 "environment" Reader.string standard.environment
  let l ← s.defaulted 1 "log_level" Reader.string standard.logLevel
  let j ← s.defaulted 2 "log_json" Reader.bool standard.logJson
  let r ← s.defaulted 3 "concurrency_max_retries" Reader.nat32 standard.maxRetries
  let d ← s.defaulted 4 "concurrency_retry_delay_ms" Reader.nat64 standard.retryDelay
  let o ← s.defaulted 5 "order_number_prefix" Reader.string standard.orderNumberFront
  let c ← s.defaulted 6 "event_channel_capacity" Reader.nat64 standard.eventCapacity
  return ⟨e, l, j, r, d, o, c⟩

end AppConfig

end Brigade
