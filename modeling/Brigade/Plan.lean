/-
Plans: what a command asks of the world around it, and what it does with the replies.

A plan is a tree. A node is a request, and its branches are the possible replies, so every way the world may behave
is a path of the tree and a statement about all worlds is one about all paths. A `World` answers requests and
carries a state; `Plan.run` follows the one path that its answers choose.

A reply of the store may be a value, a failure, a fault, or silence: the call was cut off by a cancelled signal and never
comes back. A `Task` is a plan that ends in the same four ways; one task after another stops at the first that has no
value.
-/
import Brigade.Event
import Brigade.Metric
import Brigade.Repository
import Brigade.Time.Basic

namespace Brigade

/-- how a call of the store, or a task, ends -/
inductive Ending (α : Type) where
  | value (a : α)
  | failure (f : Failure)
  | fault (f : Fault)
  /-- cut off by a cancelled signal -/
  | silence
deriving DecidableEq, Repr

/-- what a plan can ask -/
inductive Request where
  | get (k : Kind) (i : Id)
  | list (k : Kind)
  | add (k : Kind) (a : k.Member)
  | update (k : Kind) (a : k.Member)
  /-- announce an event; refused if nobody listens any more -/
  | publish (e : Event)
  | count (m : Metric)
  | freshId
  | clock
  /-- has the cancel signal been given? -/
  | isCancelled
  /-- wait; the reply is whether the cancel signal ended the wait -/
  | pause (d : Duration)

/-- what is answered to a request -/
@[reducible] def Request.Reply : Request → Type
  | get k _ => Ending (Option k.Member)
  | list k => Ending (List k.Member)
  | add k _ => Ending k.Member
  | update k _ => Ending k.Member
  | publish _ => Bool
  | count _ => Unit
  | freshId => Id
  | clock => Timestamp
  | isCancelled => Bool
  | pause _ => Bool

/-- a tree of requests -/
inductive Plan (α : Type) where
  | done (a : α)
  | ask (r : Request) (next : r.Reply → Plan α)

/-- something that answers requests and changes -/
abbrev World (σ : Type) : Type := (r : Request) → σ → r.Reply × σ

namespace Plan

variable {α β σ : Type}

/-- one plan after another -/
protected def bind : Plan α → (α → Plan β) → Plan β
  | done a, k => k a
  | ask r next, k => ask r fun x => (next x).bind k

instance : Monad Plan where
  pure := done
  bind := Plan.bind

/-- follow the answers of a world -/
def run (w : World σ) : Plan α → σ → α × σ
  | done a, s => (a, s)
  | ask r next, s => (next (w r s).1).run w (w r s).2

@[simp] theorem run_done (w : World σ) (a : α) (s : σ) : (done a).run w s = (a, s) := rfl

@[simp] theorem run_ask (w : World σ) (r : Request) (next : r.Reply → Plan α) (s : σ) :
    (ask r next).run w s = (next (w r s).1).run w (w r s).2 := rfl

/-- the second plan starts in the state that the first one leaves -/
theorem run_bind (w : World σ) (p : Plan α) (k : α → Plan β) (s : σ) :
    (p.bind k).run w s = (k (p.run w s).1).run w (p.run w s).2 := by
  induction p generalizing s with
  | done a => rfl
  | ask r next ih => simp only [Plan.bind, run_ask, ih]

/-- count metrics one after another -/
def counting : List Metric → Plan Unit
  | [] => done ()
  | m :: ms => ask (.count m) fun _ => counting ms

end Plan

/-- a plan that may end without a value -/
def Task (α : Type) : Type := Plan (Ending α)

namespace Task

variable {ε α β : Type}

def plan (t : Task α) : Plan (Ending α) := t

def ofPlan (p : Plan (Ending α)) : Task α := p

def stop (e : Ending α) : Task α := Plan.done e

def fail (f : Failure) : Task α := stop (.failure f)

/-- a task after another one, if that one has a value -/
protected def bind (t : Task α) (k : α → Task β) : Task β :=
  Plan.bind t fun
    | .value a => k a
    | .failure f => Plan.done (.failure f)
    | .fault f => Plan.done (.fault f)
    | .silence => Plan.done .silence

instance : Monad Task where
  pure a := Plan.done (.value a)
  bind := Task.bind

/-! ## Requests -/

def get (k : Kind) (i : Id) : Task (Option k.Member) := Plan.ask (.get k i) Plan.done

def list (k : Kind) : Task (List k.Member) := Plan.ask (.list k) Plan.done

def add (k : Kind) (a : k.Member) : Task k.Member := Plan.ask (.add k a) Plan.done

def update (k : Kind) (a : k.Member) : Task k.Member := Plan.ask (.update k a) Plan.done

def count (m : Metric) : Task Unit := Plan.ask (.count m) fun _ => Plan.done (.value ())

def freshId : Task Id := Plan.ask .freshId fun i => Plan.done (.value i)

def clock : Task Timestamp := Plan.ask .clock fun t => Plan.done (.value t)

/-- what a channel without a listener says -/
def channelClosed : String := "Failed to send event: channel closed"

/-- announce an event; `describe` words the failure if nobody listens -/
def publish (e : Event) (describe : String → String) : Task Unit :=
  Plan.ask (.publish e) fun sent =>
    Plan.done (if sent then .value () else .failure (.event (describe channelClosed)))

/-- an outcome of the domain; a refusal becomes a failure -/
def ofOutcome (refusal : ε → Refusal) : Outcome ε α → Task α
  | .ok a => stop (.value a)
  | .refused e => fail (.domain (refusal e))
  | .fault f => stop (.fault f)

/-- a value that must be there -/
def orFail (f : Failure) : Option α → Task α
  | some a => stop (.value a)
  | none => fail f

/-- go on unless there is a failure -/
def unless? : Option Failure → Task Unit
  | some f => fail f
  | none => stop (.value ())

/-- count metrics chosen by how a task ends, and end the same way -/
def counted (metrics : Ending α → List Metric) (t : Task α) : Task α :=
  Plan.bind t fun e => (Plan.counting (metrics e)).bind fun _ => Plan.done e

/-- another failure in place of some failures -/
def mapFailure (g : Failure → Failure) (t : Task α) : Task α :=
  Plan.bind t fun
    | .failure f => Plan.done (.failure (g f))
    | e => Plan.done e

end Task

end Brigade
