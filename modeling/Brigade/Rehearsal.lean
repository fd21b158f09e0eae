/-
A service whose repositories may be disturbed, call by call.

Each method of each repository has a queue of interferences; a call takes the next one. An interference may take time,
may give the cancel signal, and then lets the call through, fails it, lets another writer or another client's whole
command go first, or never lets the call come back. Every call is noted.

With empty queues a rehearsal is the service itself, but for the notes.
-/
import Brigade.Service

namespace Brigade

inductive Method where
  | get
  | list
  | add
  | update
deriving DecidableEq, Repr

/-- a method of a repository -/
structure Call where
  kind : Kind
  method : Method
deriving DecidableEq, Repr

namespace Call

def kindText : Kind → String
  | .order => "orders"
  | .table => "tables"
  | .menuItem => "menu_items"
  | .goalPeriod => "goal_periods"
  | .goalSet => "goal_sets"

def methodText : Method → String
  | .get => "get"
  | .list => "list"
  | .add => "add"
  | .update => "update"

def text (c : Call) : String := kindText c.kind ++ "." ++ methodText c.method

def all : List Call :=
  [Kind.order, .table, .menuItem, .goalPeriod, .goalSet].flatMap fun k =>
    [Method.get, .list, .add, .update].map fun m => ⟨k, m⟩

/-- the call of a text -/
def ofText? (s : String) : Option Call := all.find? (·.text == s)

end Call

/-- what happens in place of a call, or before it -/
inductive Act where
  | proceed
  | staleWrite
  /-- another writer stores the aggregate unchanged, under its next version, first -/
  | rival
  /-- another client runs a command first -/
  | command (c : Command)
  | fail (f : Failure)
  | hang
deriving Repr

structure Interference where
  /-- milliseconds before anything else -/
  delay : Nat
  cancels : Bool
  act : Act
deriving Repr

def Interference.none : Interference := ⟨0, false, .proceed⟩

/-- interferences to come, and the one that goes on for ever after them -/
structure Queue where
  upcoming : List Interference
  thereafter : Interference
deriving Repr

namespace Queue

def empty : Queue := ⟨[], .none⟩

def next (q : Queue) : Interference × Queue :=
  match q.upcoming with
  | i :: is => (i, { q with upcoming := is })
  | [] => (q.thereafter, q)

end Queue

structure Rehearsal where
  service : Service
  queues : Call → Queue
  /-- calls so far, oldest first -/
  calls : List Call

namespace Rehearsal

def ofService (s : Service) : Rehearsal := ⟨s, fun _ => .empty, []⟩

def setQueue (c : Call) (q : Queue) (r : Rehearsal) : Rehearsal :=
  { r with queues := fun c' => if c' = c then q else r.queues c' }

/-- take the next interference of a call and note the call -/
def take (c : Call) (r : Rehearsal) : Interference × Rehearsal :=
  let (i, q) := (r.queues c).next
  (i, { r.setQueue c q with calls := r.calls ++ [c] })

/-- another writer stores an aggregate unchanged; an unknown one is left alone -/
def bumped (k : Kind) (i : Id) (s : Service) : Except Fault Service :=
  match (s.store.repo k).get? i with
  | none => .ok s
  | some a =>
    match (s.store.repo k).update a with
    | .ok (_, r) => .ok { s with store := s.store.setRepo k r }
    | .refused _ => .ok s
    | .fault f => .error f

/-- another client's command, which no signal reaches -/
def elsewhere (env : Surroundings) (settings : Settings) (c : Command) (s : Service) : Except Fault Service :=
  let (e, s') := Service.execute env settings c s.renew
  match e with
  | .fault f => .error f
  | _ => .ok { s' with cancelled := s.cancelled, cancelAt := s.cancelAt }

/-- wait for the signal -/
def hang (s : Service) : Service :=
  match s.cancelAt with
  | some t => { s with cancelled := true, cancelAt := none, elapsed := max s.elapsed t }
  | none => s

variable {β : Type}

/-- a call of the service after its interference; `target` is the aggregate it is about -/
def interfere (env : Surroundings) (others : Settings) (i : Interference) (k : Kind) (target : Option Id)
    (real : Service → Ending β × Service) (s : Service) : Ending β × Service :=
  let (cut, s) := if i.delay = 0 then (false, s) else s.wait i.delay
  if cut then (.silence, s)
  else
    let s := if i.cancels then s.cancel else s
    match i.act with
    | .proceed => real s
    | .staleWrite => (.failure (.staleWrite (target.getD Id.nil)), s)
    | .rival =>
      match target with
      | none => real s
      | some t =>
        match bumped k t s with
        | .ok s => real s
        | .error f => (.fault f, s)
    | .command c =>
      match elsewhere env others c s with
      | .ok s => real s
      | .error f => (.fault f, s)
    | .fail f => (.failure f, s)
    | .hang => (.silence, hang s)

/-- a call with the next interference of its queue -/
def call (env : Surroundings) (others : Settings) (c : Call) (target : Option Id)
    (real : Service → Ending β × Service) (r : Rehearsal) : Ending β × Rehearsal :=
  let (i, r) := r.take c
  let (e, s) := interfere env others i c.kind target real r.service
  (e, { r with service := s })

/-- the reply to a request; `others` are the settings of other clients -/
def answer (env : Surroundings) (others : Settings) : World Rehearsal
  | .get k i, r => call env others ⟨k, .get⟩ (some i) (Service.answer env (.get k i)) r
  | .list k, r => call env others ⟨k, .list⟩ none (Service.answer env (.list k)) r
  | .add k a, r => call env others ⟨k, .add⟩ none (Service.answer env (.add k a)) r
  | .update k a, r => call env others ⟨k, .update⟩ (some (Aggregate.id a)) (Service.answer env (.update k a)) r
  | .publish e, r => let (x, s) := Service.answer env (.publish e) r.service; (x, { r with service := s })
  | .count m, r => let (x, s) := Service.answer env (.count m) r.service; (x, { r with service := s })
  | .freshId, r => let (x, s) := Service.answer env .freshId r.service; (x, { r with service := s })
  | .clock, r => let (x, s) := Service.answer env .clock r.service; (x, { r with service := s })
  | .isCancelled, r => let (x, s) := Service.answer env .isCancelled r.service; (x, { r with service := s })
  | .pause d, r => let (x, s) := Service.answer env (.pause d) r.service; (x, { r with service := s })

/-- run a task to its end -/
def perform {α : Type} (env : Surroundings) (others : Settings) (t : Task α) (r : Rehearsal) : Ending α × Rehearsal :=
  t.plan.run (answer env others) r

end Rehearsal

end Brigade
