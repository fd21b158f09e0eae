/-
What the service answers to a request, and what the request changes.

Only adding and updating change the store (`store_answer`). Both are answered as the repository of their kind answers
them, and change nothing if they fail. No request opens or closes the event channel, and announcing is answered by whether
it is open.
-/
import Brigade.Proofs.Repository
import Brigade.Service

namespace Brigade

/-- the request may change the store -/
def Request.isWrite : Request → Bool
  | .add _ _ | .update _ _ => true
  | _ => false

theorem Store.setRepo_repo (s : Store) (k : Kind) : s.setRepo k (s.repo k) = s := by
  cases k <;> rfl

namespace Service

variable {env : Surroundings} {s : Service}

/-- waiting takes time and may bring the cancel signal, and does nothing else -/
theorem wait_frame (ms : Nat) (s : Service) :
    ∃ given planned time, (s.wait ms).2 = { s with cancelled := given, cancelAt := planned, elapsed := time } := by
  simp only [wait]
  split
  · exact ⟨_, _, _, rfl⟩
  · cases s.cancelAt.filter (· < s.elapsed + min ms longestWait) with
    | some t => exact ⟨_, _, _, rfl⟩
    | none => exact ⟨_, _, _, rfl⟩

theorem wait_unchanged (ms : Nat) (s : Service) :
    (s.wait ms).2.store = s.store ∧ (s.wait ms).2.channelOpen = s.channelOpen := by
  obtain ⟨given, planned, time, hwait⟩ := wait_frame ms s
  rw [hwait]
  exact ⟨rfl, rfl⟩

theorem answer_add_of_ok {k : Kind} {a : k.Member} {r : Repository k.Member} (h : (s.store.repo k).add a = (.ok (), r)) :
    answer env (.add k a) s = (.value a, { s with store := s.store.setRepo k r }) := by
  simp only [answer, h]

theorem answer_add_of_error {k : Kind} {a : k.Member} {f : Failure} (h : ((s.store.repo k).add a).1 = .error f) :
    answer env (.add k a) s = (.failure f, s) := by
  have hr := Repository.add_of_error h
  simp only [answer]
  generalize (s.store.repo k).add a = x at h hr
  obtain ⟨y, r⟩ := x
  obtain rfl : y = .error f := h
  obtain rfl : r = s.store.repo k := hr
  simp only [Store.setRepo_repo]

theorem answer_update_of_ok {k : Kind} {a b : k.Member} {r : Repository k.Member}
    (h : (s.store.repo k).update a = .ok (b, r)) :
    answer env (.update k a) s = (.value b, { s with store := s.store.setRepo k r }) := by
  simp only [answer, h]

theorem answer_update_of_refused {k : Kind} {a : k.Member} {f : Failure} (h : (s.store.repo k).update a = .refused f) :
    answer env (.update k a) s = (.failure f, s) := by
  simp only [answer, h]

theorem answer_update_of_fault {k : Kind} {a : k.Member} {f : Fault} (h : (s.store.repo k).update a = .fault f) :
    answer env (.update k a) s = (.fault f, s) := by
  simp only [answer, h]

theorem answer_publish (e : Event) : (answer env (.publish e) s).1 = s.channelOpen := by
  cases h : s.channelOpen <;> simp [answer, h]

theorem store_answer {r : Request} (h : r.isWrite = false) : (answer env r s).2.store = s.store := by
  cases r with
  | add k a => cases h
  | update k a => cases h
  | publish e => cases hopen : s.channelOpen <;> simp [answer, hopen]
  | pause d => exact (wait_unchanged d.ceilMillis s).1
  | _ => rfl

theorem channelOpen_answer (r : Request) : (answer env r s).2.channelOpen = s.channelOpen := by
  cases r with
  | add k a =>
    simp only [answer]
    split <;> rfl
  | update k a =>
    cases h : (s.store.repo k).update a with
    | ok p => rw [answer_update_of_ok h]
    | refused f => rw [answer_update_of_refused h]
    | fault f => rw [answer_update_of_fault h]
  | publish e => cases hopen : s.channelOpen <;> simp [answer, hopen]
  | pause d => exact (wait_unchanged d.ceilMillis s).2
  | _ => rfl

end Service

end Brigade
