/-
A service whose store lists its contents in any order.

A `Listing` arranges what is stored, and neither leaves out nor repeats anything. `Service.answerIn` answers a list
request in that arrangement and every other request as before, and `arrival` is the arrangement of `Service.answer`
(`executeIn_arrival`, `queryIn_arrival`). Commands run one after another may each meet another arrangement
(`Service.executeAllIn`).
-/
import Mathlib.Data.List.Induction
import Brigade.Proofs.Answers

namespace Brigade

/-- the order in which a store lists the aggregates of each kind -/
structure Listing where
  list : (k : Kind) → List k.Member → List k.Member
  perm : ∀ k as, (list k as).Perm as

namespace Listing

/-- as they arrived -/
def arrival : Listing := ⟨fun _ as => as, fun _ as => .refl as⟩

/-- the latest first -/
def latest : Listing := ⟨fun _ as => as.reverse, fun _ as => as.reverse_perm⟩

instance : Inhabited Listing := ⟨arrival⟩

theorem mem_list {l : Listing} {k : Kind} {as : List k.Member} {a : k.Member} : a ∈ l.list k as ↔ a ∈ as :=
  (l.perm k as).mem_iff

/-- what is found in an arrangement is stored -/
theorem mem_of_find?_list {l : Listing} {k : Kind} {as : List k.Member} {q : k.Member → Bool} {a : k.Member}
    (h : (l.list k as).find? q = some a) : a ∈ as ∧ q a = true :=
  ⟨mem_list.1 (List.mem_of_find?_eq_some h), List.find?_some h⟩

/-- what is not found in an arrangement is not stored -/
theorem find?_list_eq_none {l : Listing} {k : Kind} {as : List k.Member} {q : k.Member → Bool} :
    (l.list k as).find? q = none ↔ ∀ a ∈ as, ¬q a = true := by
  simp [mem_list]

end Listing

namespace Service

variable {env : Surroundings} {l : Listing}

/-- the reply to a request, with lists arranged -/
def answerIn (l : Listing) (env : Surroundings) : World Service
  | .list k, s => (.value (l.list k (s.store.repo k).items), s)
  | r, s => answer env r s

/-- run a command to its end, with lists arranged -/
def executeIn (l : Listing) (env : Surroundings) (settings : Settings) (c : Command) (s : Service) :
    Ending CommandResult × Service :=
  (c.task settings).plan.run (answerIn l env) s

/-- run commands one after another, each with its own arrangement of lists -/
def executeAllIn (env : Surroundings) (settings : Settings) (cs : List (Listing × Command)) (s : Service) : Service :=
  cs.foldl (fun s c => (s.executeIn c.1 env settings c.2).2) s

/-- answer a query, with lists arranged -/
def queryIn (l : Listing) (env : Surroundings) (q : Query) (s : Service) : Ending QueryResult × Service :=
  q.task.plan.run (answerIn l env) s

theorem answerIn_arrival (env : Surroundings) : answerIn .arrival env = answer env := by
  funext r s
  cases r <;> rfl

theorem executeIn_arrival (env : Surroundings) (settings : Settings) (c : Command) (s : Service) :
    s.executeIn .arrival env settings c = s.execute env settings c := by
  unfold executeIn execute
  rw [answerIn_arrival]

theorem queryIn_arrival (env : Surroundings) (q : Query) (s : Service) : s.queryIn .arrival env q = s.query env q := by
  unfold queryIn query
  rw [answerIn_arrival]

theorem executeAllIn_append (settings : Settings) (cs ds : List (Listing × Command)) (s : Service) :
    s.executeAllIn env settings (cs ++ ds) = (s.executeAllIn env settings cs).executeAllIn env settings ds :=
  List.foldl_append

theorem executeAllIn_snoc (settings : Settings) (cs : List (Listing × Command)) (c : Command) (s : Service) :
    s.executeAllIn env settings (cs ++ [(l, c)]) = ((s.executeAllIn env settings cs).executeIn l env settings c).2 :=
  executeAllIn_append settings cs [(l, c)] s

/-! ## What no arrangement changes -/

section Frame

variable {s : Service}

theorem store_answerIn {r : Request} (h : r.isWrite = false) : (answerIn l env r s).2.store = s.store := by
  cases r with
  | list k => rfl
  | _ => exact @store_answer env s _ h

theorem channelOpen_answerIn (r : Request) : (answerIn l env r s).2.channelOpen = s.channelOpen := by
  cases r with
  | list k => rfl
  | _ => exact @channelOpen_answer env s _

theorem channelOpen_run {α : Type} (p : Plan α) (s : Service) :
    (p.run (answerIn l env) s).2.channelOpen = s.channelOpen := by
  induction p generalizing s with
  | done a => rfl
  | ask r next ih => exact (ih _ _).trans (channelOpen_answerIn r)

/-- no command opens or closes the event channel -/
theorem channelOpen_executeAllIn (settings : Settings) (cs : List (Listing × Command)) :
    (s.executeAllIn env settings cs).channelOpen = s.channelOpen := by
  induction cs using List.reverseRecOn with
  | nil => rfl
  | append_singleton cs c ih =>
    obtain ⟨l, c⟩ := c
    rw [executeAllIn_snoc]
    exact (channelOpen_run _ _).trans ih

end Frame

end Service

end Brigade
