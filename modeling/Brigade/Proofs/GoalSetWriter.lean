/-
Commands that change one goal set, as clients of the repository.

Eight commands ask an operation of a goal set (`Command.op?`). All keep to one protocol, `GoalSetWriter.protocol`: in a
try the set is fetched and written at most once; what is written is what the operation makes of the fetched copy; a try
follows only a stale write, and there are no more tries than the policy allows. `Ends` says in which phase such a command
ends how: with a value only after its write, with a conflict only after the last allowed try.
- `task_keeps`: each of the eight commands keeps to the protocol, under every policy and whatever is replied.
-/
import Brigade.Proofs.GoalCommands
import Brigade.Proofs.Protocol

namespace Brigade

/-- a client that changes one goal set -/
structure GoalSetWriter where
  /-- where identities come from -/
  ids : Nat → Id
  /-- whether somebody listens to events -/
  heard : Bool
  set : Id
  limit : Nat
  /-- operations the writer may ask -/
  mine : GoalSet.Op → Prop

namespace GoalSetWriter

variable {α β : Type}

/-- where a writer is -/
inductive Phase where
  /-- between tries, so many of which met a stale write -/
  | idle (failed : Nat)
  | holding (failed : Nat) (copy : GoalSet)
  | written
  /-- the set was not found, or a write failed for good -/
  | ended

/-- what a writer of a goal set does -/
def protocol (w : GoalSetWriter) : Protocol Phase where
  first := .idle 0
  asks ph
    | .get .goalSet i => i = w.set ∧ ∃ failed, failed < w.limit ∧ ph = .idle failed
    | .update .goalSet t => ∃ failed s o, ph = .holding failed s ∧ w.mine o ∧ s.apply o = .ok t
    | .get _ _ | .list _ | .add _ _ | .update _ _ => False
    | _ => True
  answers
    | .get .goalSet _, x => ∃ o, x = .value o
    | .update .goalSet _, x =>
      (∃ s, x = .value s) ∨ (∃ i, x = .failure (.staleWrite i)) ∨ (∃ m, x = .failure (.notFound m)) ∨ ∃ f, x = .fault f
    | .publish _, x => x = w.heard
    | .freshId, x => ∃ j, x = w.ids j
    | _, _ => True
  after ph
    | .get .goalSet _, x =>
      match ph, x with
      | .idle failed, .value (some s) => .holding failed s
      | _, _ => .ended
    | .update .goalSet _, x =>
      match ph, x with
      | .holding _ _, .value _ => .written
      | .holding failed _, .failure (.staleWrite _) => .idle (failed + 1)
      | _, _ => .ended
    | _, _ => ph

variable {w : GoalSetWriter} {ph : Phase}

/-- in which phase a failure may end a writer -/
def FailureEnds (w : GoalSetWriter) (ph : Phase) : Failure → Prop
  | .conflict _ => ph = .idle w.limit
  | .event _ => ph = .written ∧ w.heard = false
  | _ => ph ≠ .written

/-- in which phase a writer ends how -/
def Ends (w : GoalSetWriter) (ph : Phase) : Ending α → Prop
  | .value _ => ph = .written
  | .failure f => FailureEnds w ph f
  | .fault _ => ph ≠ .written
  | .silence => False

/-- after its write a writer ends with a value, unless nobody listens -/
theorem Ends.of_written {e : Ending α} (h : Ends w .written e) :
    (∃ a, e = .value a) ∨ w.heard = false ∧ ∃ m, e = .failure (.event m) := by
  cases e with
  | value a => exact .inl ⟨a, rfl⟩
  | fault f => exact absurd rfl h
  | silence => exact h.elim
  | failure f =>
    cases f with
    | event m => exact .inr ⟨h.2, m, rfl⟩
    | conflict m => exact Phase.noConfusion h
    | _ => exact absurd rfl h

/-! ## One try -/

/-- in which phase a try after `failed` others ends how -/
def TryEnds (w : GoalSetWriter) (failed : Nat) (ph : Phase) : Ending α → Prop
  | .failure (.staleWrite _) => ph = .idle (failed + 1)
  | e => Ends w ph e

/-- what a transition of `s` gives: what an operation of the writer makes of `s`, or a refusal, or a fault -/
def Gives (w : GoalSetWriter) (s : GoalSet) : Ending (GoalSet × α) → Prop
  | .value (t, _) => ∃ o, w.mine o ∧ s.apply o = .ok t
  | .failure f => ∃ r, f = .domain r
  | .fault _ => True
  | .silence => False

/-- the transition asks nothing of the repository -/
def Transition (w : GoalSetWriter) (transition : GoalSet → Task (GoalSet × α)) : Prop :=
  ∀ s ph, (transition s).plan.Keeps w.protocol (fun ph' e => ph' = ph ∧ Gives w s e) ph

theorem plain_transition {o : GoalSet.Op} (ho : w.mine o) : Transition w (GoalCommand.plain (·.apply o)) := by
  intro s ph
  refine Task.keeps_bind.2 (Task.keeps_ofOutcome.2 ⟨fun t ht => ?_, fun e he => ?_, fun f hf => ?_⟩)
  · exact ⟨rfl, o, ho, ht⟩
  · exact ⟨rfl, _, rfl⟩
  · exact ⟨rfl, trivial⟩

theorem addGoal_transition {c : AddGoal} {v : GoalValue}
    (ho : ∀ j, w.mine (.addGoal (w.ids j) c.title c.type v c.percentage)) : Transition w (c.transition v) := by
  intro s ph
  refine Task.keeps_bind.2 ⟨trivial, fun x hx => ?_⟩
  obtain ⟨j, rfl⟩ := hx
  refine Task.keeps_bind.2 (Task.keeps_ofOutcome.2 ⟨fun t ht => ?_, fun e he => ?_, fun f hf => ?_⟩)
  · exact ⟨rfl, _, ho j, ht⟩
  · exact ⟨rfl, _, rfl⟩
  · exact ⟨rfl, trivial⟩

theorem modifyOnce_keeps {transition : GoalSet → Task (GoalSet × α)} (ht : Transition w transition) {failed : Nat}
    (hf : failed < w.limit) :
    (GoalCommand.modifyOnce w.set transition).plan.Keeps w.protocol (TryEnds w failed) (.idle failed) := by
  refine Task.keeps_bind.2 (Task.keeps_bind.2 ⟨⟨rfl, failed, hf, rfl⟩, fun x hx => ?_⟩)
  obtain ⟨found, rfl⟩ := hx
  refine Task.keeps_orFail.2 ⟨fun hnone => ?_, fun s hs => ?_⟩
  · -- the set is not there, and the try ends for good
    subst hnone
    intro h
    cases h
  · subst hs
    refine Task.keeps_bind.2 ((ht s _).mono fun ph e he => ?_)
    obtain ⟨rfl, he⟩ := he
    cases e with
    | value p =>
      obtain ⟨t, a⟩ := p
      obtain ⟨o, ho, happly⟩ := he
      refine Task.keeps_bind.2 ⟨⟨failed, s, o, rfl, ho, happly⟩, fun x hx => ?_⟩
      obtain ⟨t', rfl⟩ | ⟨i, rfl⟩ | ⟨m, rfl⟩ | ⟨f, rfl⟩ := hx
      · exact rfl
      · exact rfl
      · intro h; cases h
      · intro h; cases h
    | failure f =>
      obtain ⟨r, rfl⟩ := he
      intro h
      cases h
    | fault f => intro h; cases h
    | silence => exact he.elim

/-! ## Trying again -/

/-- in which phase trying ends how -/
def RetryEnds (w : GoalSetWriter) (ph : Phase) : RetryEnd α → Prop
  | .ok _ => ph = .written
  | .exhausted _ _ => ph = .idle w.limit
  | .fatal f => FailureEnds w ph f
  | .cancelled _ => ph ≠ .written
  | .fault _ => ph ≠ .written

theorem tryOnce_keeps {t : Task α} {again : Failure → Plan (RetryEnd α)} {made failed : Nat}
    (ht : t.plan.Keeps w.protocol (TryEnds w failed) (.idle failed))
    (hagain : ∀ f, (again f).Keeps w.protocol (RetryEnds w) (.idle (failed + 1))) :
    (Retry.tryOnce made t again).Keeps w.protocol (RetryEnds w) (.idle failed) := by
  refine ⟨trivial, fun cancelled _ => ?_⟩
  cases cancelled with
  | true => intro h; cases h
  | false =>
    refine Plan.keeps_bind.2 (Plan.Keeps.mono ht fun ph e he => ?_)
    cases e with
    | value a => exact he
    | fault f => exact he
    | silence => exact he.elim
    | failure f =>
      cases f with
      | staleWrite i =>
        obtain rfl : ph = .idle (failed + 1) := he
        exact hagain _
      | _ => exact he

theorem waiting_keeps {p : RetryPolicy} {made : Nat} {d : Duration} {again : Duration → Plan (RetryEnd α)}
    (hph : ph ≠ .written) (h : ∀ d, (again d).Keeps w.protocol (RetryEnds w) ph) :
    (Retry.waiting p made d again).Keeps w.protocol (RetryEnds w) ph := by
  unfold Retry.waiting
  split
  · exact h d
  · refine ⟨trivial, fun cancelled _ => ?_⟩
    cases cancelled with
    | true => exact hph
    | false =>
      cases Retry.nextDelay p d with
      | ok d' => exact h d'
      | refused e => exact e.elim
      | fault f => exact hph

theorem attempts_keeps {p : RetryPolicy} {work : Nat → Task α}
    (hwork : ∀ n failed, failed < w.limit → (work n).plan.Keeps w.protocol (TryEnds w failed) (.idle failed))
    {more made : Nat} (hmade : made + more + 1 = w.limit) (d : Duration) :
    (Retry.attempts p work more made d).Keeps w.protocol (RetryEnds w) (.idle made) := by
  induction more generalizing made d with
  | zero =>
    refine tryOnce_keeps (hwork _ made (by omega)) fun f => ?_
    exact congrArg Phase.idle hmade
  | succ more ih =>
    refine tryOnce_keeps (hwork _ made (by omega)) fun f => ?_
    exact waiting_keeps Phase.noConfusion (ih (by omega))

theorem countRetry_keeps {ends : Phase → Ending α → Prop} {t : Task α} (n : Nat)
    (ht : t.plan.Keeps w.protocol ends ph) : (Retry.countRetry n t).plan.Keeps w.protocol ends ph := by
  unfold Retry.countRetry
  split
  · exact ⟨trivial, fun _ _ => ht⟩
  · exact ht

theorem concurrent_keeps {p : RetryPolicy} {i : Id} {t : Task α} (hp : p.limit = w.limit)
    (ht : ∀ failed, failed < w.limit → t.plan.Keeps w.protocol (TryEnds w failed) (.idle failed)) :
    (Retry.concurrent p i t).plan.Keeps w.protocol (Ends w) (.idle 0) := by
  have hpos : 1 ≤ p.limit := Nat.le_max_left 1 p.maxAttempts
  have hrun : (Retry.run p fun n => Retry.countRetry n t).Keeps w.protocol (RetryEnds w) (.idle 0) :=
    attempts_keeps (fun n failed hf => countRetry_keeps n (ht failed hf)) (by omega) _
  refine Plan.keeps_bind.2 (hrun.mono fun ph e he => ?_)
  cases e with
  | ok a => exact he
  | exhausted n f => exact ⟨trivial, fun _ _ => he⟩
  | fatal f => exact he
  | cancelled n => exact he
  | fault f => exact he

theorem modify_keeps {p : RetryPolicy} {transition : GoalSet → Task (GoalSet × α)} (hp : p.limit = w.limit)
    (ht : Transition w transition) :
    (GoalCommand.modify p w.set transition).plan.Keeps w.protocol (Ends w) (.idle 0) :=
  concurrent_keeps hp fun _ hf => modifyOnce_keeps ht hf

/-! ## Around the write -/

/-- what a writer does after its write -/
theorem keeps_bind_written {t : Task α} {k : α → Task β} (ht : t.plan.Keeps w.protocol (Ends w) ph)
    (hk : ∀ a, (k a).plan.Keeps w.protocol (Ends w) .written) : (t >>= k).plan.Keeps w.protocol (Ends w) ph := by
  refine Task.keeps_bind.2 (ht.mono fun ph e he => ?_)
  cases e with
  | value a =>
    obtain rfl : ph = .written := he
    exact hk a
  | _ => exact he

theorem announce_keeps (e : Event) : (GoalCommand.announce e).plan.Keeps w.protocol (Ends w) .written := by
  refine ⟨trivial, fun sent hsent => ?_⟩
  cases sent with
  | true => exact rfl
  | false => exact ⟨rfl, hsent.symm⟩

/-- a change of the set, announced -/
theorem change_keeps {p : RetryPolicy} {transition : GoalSet → Task (GoalSet × α)} {event : GoalSet × α → Event}
    {result : GoalSet × α → β} (hp : p.limit = w.limit) (ht : Transition w transition) :
    (GoalCommand.change p w.set transition event result).plan.Keeps w.protocol (Ends w) (.idle 0) :=
  keeps_bind_written (modify_keeps hp ht) fun _ => keeps_bind_written (announce_keeps _) fun _ => rfl

instance : w.protocol.Counting := ⟨fun _ _ => ⟨trivial, rfl⟩⟩

theorem giving_keeps {f : α → β} {t : Task α} (ht : t.plan.Keeps w.protocol (Ends w) ph) :
    (t.giving f).plan.Keeps w.protocol (Ends w) ph := keeps_bind_written ht fun _ => rfl

/-! ## Commands -/

/-- what the command makes of its set is what a writer may make of it -/
theorem changes_keep {c : Command} {p : RetryPolicy} {t : Task β} (h : c.Changes p w.set t) (hp : p.limit = w.limit)
    (ho : ∀ j o, c.op? (w.ids j) = some o → w.mine o) : t.plan.Keeps w.protocol (Ends w) (.idle 0) := by
  cases h with
  | operation op asked told => exact change_keeps hp (plain_transition (ho 0 op (asked _)))
  | addition a v asked => exact change_keeps hp (addGoal_transition fun j => ho j _ (asked _))
  | outOfRange r => exact Phase.noConfusion

/-- **One protocol for the eight commands.** A command that changes a goal set fetches and writes it as a writer does,
under every policy and whatever is replied. -/
theorem task_keeps {c : Command} {settings : Settings} (hset : c.goalSet? = some w.set)
    (hlimit : settings.retry.limit = w.limit) (ho : ∀ j o, c.op? (w.ids j) = some o → w.mine o) :
    (c.task settings).plan.Keeps w.protocol (Ends w) (.idle 0) := by
  obtain ⟨n, β, t, f, htask, hchanges⟩ := Command.task_of_goalSet hset settings
  rw [htask]
  refine giving_keeps (Task.counted_keeps (Task.checked_keeps (fun m => Phase.noConfusion) fun _ => ?_))
  exact changes_keep hchanges hlimit ho

end GoalSetWriter

end Brigade
