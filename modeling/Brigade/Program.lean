/-
The program: load the configuration, take the walk, show the log.

A configuration that cannot be loaded ends the program before anything is done, and so does a filter whose reading is a
fault. Otherwise the walk is taken, the event loop empties its channel, and those lines are shown that the filter lets
through.

The event loop starts, logs every event in the order of its arrival, and ends when the channel is closed. A loop whose
stop signal has been given before it starts logs no event.
-/
import Brigade.Config.Load
import Brigade.Log.Filter
import Brigade.Walkthrough

/-! ## The event loop -/

namespace Brigade.EventLoop

/-- where the lines of the loop come from -/
def target : String := "aggregate_workflows::events"

def info (message : String) : LogLine := ⟨.info, target, message, []⟩

/-- the log of a loop over a channel that is closed after these events -/
def logs (es : List Event) : List LogLine :=
  info "Starting event processing loop" :: (es.map fun e => ⟨.info, target, "Domain event", [("event", .event e)]⟩) ++
    [info "Event channel closed"]

/-- the log of a loop that is stopped before it takes an event -/
def stoppedLogs : List LogLine := [info "Starting event processing loop", info "Event processing stopped by shutdown"]

end Brigade.EventLoop

/-! ## A run -/

namespace Brigade.Program

/-- what a run of the program leaves -/
structure Run where
  /-- lines are shown as JSON -/
  json : Bool
  /-- the lines that are shown -/
  lines : List LogLine
  exitCode : Nat
deriving DecidableEq, Repr

/-- the exit code of an ending -/
def exitCode : Ending Unit → Nat
  | .failure _ => 1
  | .fault _ => 101
  | _ => 0

/-- the walk under a configuration, from an empty store -/
def walk (env : Surroundings) (c : AppConfig) : Walkthrough.Walk :=
  match c.settings with
  | .ok settings => Walkthrough.run env settings .start
  | .fault f => ⟨[], .fault f, .start⟩

def run (env : Surroundings) (sources : ConfigSources) : Outcome ConfigError Run := do
  let c ← sources.load
  let filter ← LogFilter.forProgram (sources.vars.lookup "RUST_LOG") Walkthrough.target c.logLevel
  let w := walk env c
  let lines := w.lines ++ EventLoop.logs w.service.events
  return ⟨c.logJson, lines.filter filter.shows, exitCode w.ending⟩

/-! ## Around a run -/

/-- a line as it is printed, with the time of printing -/
def printed (json : Bool) (time : Timestamp) (l : LogLine) : String :=
  if json then
    (Json.record [("timestamp", .text time.text), ("level", .text l.level.name), ("fields", l.fieldsJson),
      ("target", .text l.target)]).render
  else
    time.text ++ String.ofList (List.replicate (6 - l.level.name.length) ' ') ++ l.level.name ++ " " ++ l.target ++ ": " ++
      l.text

/-- the variables in a block of `name=value` entries, each ended by a zero character -/
def variablesOf (block : String) : List (String × String) :=
  ((block.toList.splitBy fun a _ => a != Char.ofNat 0).map fun e => e.filter (· != Char.ofNat 0)).filterMap fun e =>
    match e.dropWhile (· != '=') with
    | _ :: v => some (String.ofList (e.takeWhile (· != '=')), String.ofList v)
    | [] => none

end Brigade.Program
