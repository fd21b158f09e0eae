/-
The service: a store in memory, an event channel, counters, and time that only waiting moves.

`Service.answer` is the world in which commands and queries run. Identities and clock readings come from the
surroundings, one after another. A cancel signal is given at once (`cancel`), or planned for a time (`cancelAfter`) and
then given in the first wait that would go past that time, which it ends. It stays given until `renew`.
-/
import Brigade.Command
import Brigade.Query

namespace Brigade

/-- where identities and times come from -/
structure Surroundings where
  ids : Nat → Id
  times : Nat → Timestamp

structure Service where
  store : Store
  /-- announced events, oldest first -/
  events : List Event
  channelOpen : Bool
  counters : Counters
  cancelled : Bool
  /-- when the cancel signal will be given, in milliseconds -/
  cancelAt : Option Nat
  /-- milliseconds spent waiting -/
  elapsed : Nat
  idsDrawn : Nat
  timesRead : Nat

namespace Service

def start : Service := ⟨.empty, [], true, [], false, none, 0, 0, 0⟩

instance : Inhabited Service := ⟨start⟩

/-- a service whose channel is asked to have room for so many events -/
def withRoom {ε : Type} (room : Nat) : Outcome ε Service := do
  let _ ← Event.channelRoom room
  return start

/-! ## Waiting and the cancel signal -/

/-- no wait is longer: thirty years in milliseconds -/
def longestWait : Nat := 30 * 365 * 24 * 60 * 60 * 1000

/-- wait; the reply is whether the signal ended the wait. A signal planned for its very end leaves it whole. -/
def wait (ms : Nat) (s : Service) : Bool × Service :=
  let finish := s.elapsed + min ms longestWait
  if s.cancelled then (true, s)
  else match s.cancelAt.filter (· < finish) with
    | some t => (true, { s with cancelled := true, cancelAt := none, elapsed := max s.elapsed t })
    | none => (false, { s with elapsed := finish })

/-- give the cancel signal -/
def cancel (s : Service) : Service := { s with cancelled := true }

/-- plan the cancel signal for so many milliseconds from now; an earlier plan stands -/
def cancelAfter (ms : Nat) (s : Service) : Service :=
  let t := s.elapsed + min ms longestWait
  { s with cancelAt := some ((s.cancelAt.map (min t)).getD t) }

/-- take the cancel signal back, given or planned -/
def renew (s : Service) : Service := { s with cancelled := false, cancelAt := none }

/-! ## Requests -/

/-- the reply to a request, and the service afterwards -/
def answer (env : Surroundings) : World Service
  | .get k i, s => (.value ((s.store.repo k).get? i), s)
  | .list k, s => (.value (s.store.repo k).items, s)
  | .add k a, s =>
    match (s.store.repo k).add a with
    | (.ok (), r) => (.value a, { s with store := s.store.setRepo k r })
    | (.error f, r) => (.failure f, { s with store := s.store.setRepo k r })
  | .update k a, s =>
    match (s.store.repo k).update a with
    | .ok (a, r) => (.value a, { s with store := s.store.setRepo k r })
    | .refused f => (.failure f, s)
    | .fault f => (.fault f, s)
  | .publish e, s => if s.channelOpen then (true, { s with events := s.events ++ [e] }) else (false, s)
  | .count m, s => ((), { s with counters := Counters.bump m s.counters })
  | .freshId, s => (env.ids s.idsDrawn, { s with idsDrawn := s.idsDrawn + 1 })
  | .clock, s => (env.times s.timesRead, { s with timesRead := s.timesRead + 1 })
  | .isCancelled, s => (s.cancelled, s)
  | .pause d, s => s.wait d.ceilMillis

/-- run a command to its end -/
def execute (env : Surroundings) (settings : Settings) (c : Command) (s : Service) : Ending CommandResult × Service :=
  (c.task settings).plan.run (answer env) s

/-- run commands one after another -/
def executeAll (env : Surroundings) (settings : Settings) (cs : List Command) (s : Service) : Service :=
  cs.foldl (fun s c => (s.execute env settings c).2) s

/-- answer a query -/
def query (env : Surroundings) (q : Query) (s : Service) : Ending QueryResult × Service :=
  q.task.plan.run (answer env) s

end Service

end Brigade
