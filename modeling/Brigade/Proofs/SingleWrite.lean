/-
A command that runs to its end writes at most once, and announces what it wrote.

`Solo.Inv` says what each phase of the protocol means for the service: while a command prepares, the store and the events
are those from before; after its write the store has changed by that write; after its announcement there is one more
event. Every request that the protocol allows keeps it (`inv_answer`).
- `execute_writes_once`: how a command ends tells what became of the store and of the events, for every command, whatever
  is stored and however it is listed, whether or not somebody listens to events or the cancel signal was given.

That nobody listens makes no other difference: until it announces, a command does the same with an open channel
(`run_listened`), and after that it leaves the store alone.
-/
import Brigade.Proofs.Solo

namespace Brigade

namespace Service

variable {env : Surroundings} {l : Listing} {s : Service}

/-- the same service with somebody who listens to events -/
def listened (s : Service) : Service := { s with channelOpen := true }

/-- until something is announced, nobody notices who listens -/
theorem answerIn_listened (l : Listing) (env : Surroundings) {r : Request} (hpublish : ∀ e, r ≠ .publish e)
    (hpause : ∀ d, r ≠ .pause d) :
    answerIn l env r s.listened = ((answerIn l env r s).1, (answerIn l env r s).2.listened) := by
  cases r with
  | publish e => exact absurd rfl (hpublish e)
  | pause d => exact absurd rfl (hpause d)
  | add k a =>
    simp only [answerIn, answer, listened]
    generalize (s.store.repo k).add a = x
    obtain ⟨r | r, r'⟩ := x <;> rfl
  | update k a =>
    simp only [answerIn, answer, listened]
    cases (s.store.repo k).update a <;> rfl
  | _ => rfl

end Service

namespace Solo

variable {w : Solo} {ph : Phase} {s : Service} {α : Type}

/-- the world that the command meets -/
def world (w : Solo) : World Service := Service.answerIn w.listing w.env

/-- the command, run to its end -/
def outcome (w : Solo) : Ending CommandResult × Service :=
  w.before.executeIn w.listing w.env w.settings w.command

/-! ## What the phases mean -/

/-- what was drawn is what the surroundings gave since the command began -/
structure Drew (w : Solo) (d : Drawn) (s : Service) : Prop where
  ids : d.ids = (List.range' w.before.idsDrawn d.ids.length).map w.env.ids
  times : d.times = (List.range' w.before.timesRead d.times.length).map w.env.times
  idsDrawn : s.idsDrawn = w.before.idsDrawn + d.ids.length
  timesRead : s.timesRead = w.before.timesRead + d.times.length

/-- an identity that was drawn is one that the surroundings gave during the command -/
theorem Drew.exists_of_mem {d : Drawn} {i : Id} (h : w.Drew d s) (hi : i ∈ d.ids) :
    ∃ m, w.before.idsDrawn ≤ m ∧ m < s.idsDrawn ∧ i = w.env.ids m := by
  rw [h.ids] at hi
  obtain ⟨m, hm, rfl⟩ := List.mem_map.1 hi
  obtain ⟨hle, hlt⟩ := List.mem_range'_1.1 hm
  exact ⟨m, hle, h.idsDrawn ▸ hlt, rfl⟩

/-- the first time that was read is what the clock showed when the command began -/
theorem Drew.first_time {d : Drawn} {t : Timestamp} (h : w.Drew d s) (ht : d.times.head? = some t) :
    t = w.env.times w.before.timesRead := by
  rw [h.times] at ht
  cases hlength : d.times.length with
  | zero =>
    rw [hlength] at ht
    cases ht
  | succ n =>
    rw [hlength, List.range'_succ] at ht
    exact (Option.some.inj ht).symm

/-- the command may make this write after it has drawn `d` -/
def Allows (w : Solo) (d : Drawn) : Write → Prop
  | .added k a => w.Creates d k a
  | .changed .. => True

/-- the store has changed by one write that the command may make -/
def Wrote (w : Solo) (u : Write) (s : Service) : Prop :=
  w.before.store.Wrote u s.store ∧ ∃ d, w.Drew d s ∧ w.Allows d u

/-- what each phase means for the service -/
def Inv (w : Solo) : Phase → Service → Prop
  | .preparing d, s =>
    s.store = w.before.store ∧ s.events = w.before.events ∧ s.channelOpen = w.before.channelOpen ∧ w.Drew d s
  | .written u, s => w.Wrote u s ∧ s.events = w.before.events ∧ s.channelOpen = w.before.channelOpen
  | .announced, s => ∃ u e, w.Wrote u s ∧ u.Announces e ∧ s.events = w.before.events ++ [e]
  | .unheard, s => ∃ u, w.Wrote u s ∧ s.events = w.before.events ∧ w.before.channelOpen = false

theorem drew_start (w : Solo) : w.Drew ⟨[], []⟩ w.before := ⟨rfl, rfl, rfl, rfl⟩

theorem inv_start (w : Solo) : w.Inv w.protocol.first w.before := ⟨rfl, rfl, rfl, w.drew_start⟩

/-- nothing is drawn by what leaves both counts alone -/
theorem Drew.frame {d : Drawn} {t : Service} (h : w.Drew d s) (hids : t.idsDrawn = s.idsDrawn)
    (htimes : t.timesRead = s.timesRead) : w.Drew d t :=
  ⟨h.ids, h.times, hids.trans h.idsDrawn, htimes.trans h.timesRead⟩

theorem Drew.freshId {d : Drawn} (h : w.Drew d s) :
    w.Drew ⟨d.ids ++ [w.env.ids s.idsDrawn], d.times⟩ { s with idsDrawn := s.idsDrawn + 1 } := by
  refine ⟨?_, h.times, ?_, h.timesRead⟩
  · rw [List.length_append, List.length_singleton, List.range'_1_concat, List.map_append, ← h.ids, h.idsDrawn]
    rfl
  · simp [h.idsDrawn, Nat.add_assoc]

theorem Drew.clock {d : Drawn} (h : w.Drew d s) :
    w.Drew ⟨d.ids, d.times ++ [w.env.times s.timesRead]⟩ { s with timesRead := s.timesRead + 1 } := by
  refine ⟨h.ids, ?_, h.idsDrawn, ?_⟩
  · rw [List.length_append, List.length_singleton, List.range'_1_concat, List.map_append, ← h.times, h.timesRead]
    rfl
  · simp [h.timesRead, Nat.add_assoc]

/-! ## One request -/

/-- a request is answered as the protocol expects and leaves the service as the next phase says -/
def Step (w : Solo) (ph : Phase) (r : Request) (s : Service) : Prop :=
  w.protocol.answers r (w.world r s).1 ∧ w.Inv (w.protocol.after ph r (w.world r s).1) (w.world r s).2

theorem step_add {d : Drawn} {k : Kind} {a : k.Member} (h : w.Inv (.preparing d) s) (ha : w.Creates d k a) :
    w.Step (.preparing d) (.add k a) s := by
  obtain ⟨hstore, hevents, hopen, hdrew⟩ := h
  have hanswer : (w.world (.add k a) s).1 = (Service.answer w.env (.add k a) w.before).1 := by
    simp only [world, Service.answerIn, Service.answer, hstore]
    generalize (w.before.store.repo k).add a = x
    obtain ⟨r | r, r'⟩ := x <;> rfl
  refine ⟨hanswer, ?_⟩
  simp only [world, Service.answerIn, Service.answer, hstore]
  cases hadd : (w.before.store.repo k).add a with
  | mk r r' =>
    cases r with
    | ok u => exact ⟨⟨Store.wrote_of_add hadd, d, hdrew.frame rfl rfl, ha⟩, hevents, hopen⟩
    | error f =>
      have hr : r' = w.before.store.repo k := by
        have := Repository.add_of_error (congrArg Prod.fst hadd)
        rwa [hadd] at this
      refine ⟨?_, hevents, hopen, hdrew.frame rfl rfl⟩
      simp only [hr, Store.setRepo_repo]

theorem step_update {d : Drawn} {k : Kind} {a : k.Member} (h : w.Inv (.preparing d) s) (ha : w.Changes k a) :
    w.Step (.preparing d) (.update k a) s := by
  obtain ⟨hstore, hevents, hopen, hdrew⟩ := h
  obtain ⟨old, op, hget, hop⟩ := ha
  change (w.before.store.repo k).get? (Aggregate.id a) = some old at hget
  change _ = (Service.answer w.env (.update k a) w.before).1 ∧ w.Inv _ (Service.answer w.env (.update k a) s).2
  change (Service.answer w.env (.update k a) s).1 = _ ∧
    w.Inv (w.protocol.after _ _ (Service.answer w.env (.update k a) s).1) _
  cases hu : (w.before.store.repo k).update a with
  | ok p =>
    obtain ⟨b, r⟩ := p
    have hafter : w.protocol.after (.preparing d) (.update k a) (.value b) = .written (.changed k old b) := by
      simp only [protocol, repo, hget]
    have hu' : (s.store.repo k).update a = .ok (b, r) := by rw [hstore, hu]
    rw [Service.answer_update_of_ok hu, Service.answer_update_of_ok hu']
    dsimp only
    rw [hafter]
    refine ⟨rfl, ⟨?_, d, hdrew.frame rfl rfl, trivial⟩, hevents, hopen⟩
    rw [hstore]
    exact Store.wrote_of_update hget hop hu
  | refused f =>
    have hu' : (s.store.repo k).update a = .refused f := by rw [hstore, hu]
    rw [Service.answer_update_of_refused hu, Service.answer_update_of_refused hu']
    exact ⟨rfl, hstore, hevents, hopen, hdrew⟩
  | fault f =>
    have hu' : (s.store.repo k).update a = .fault f := by rw [hstore, hu]
    rw [Service.answer_update_of_fault hu, Service.answer_update_of_fault hu']
    exact ⟨rfl, hstore, hevents, hopen, hdrew⟩

theorem step_count {m : Metric} (h : w.Inv ph s) : w.Step ph (.count m) s := by
  refine ⟨trivial, ?_⟩
  cases ph with
  | preparing d =>
    obtain ⟨hstore, hevents, hopen, hdrew⟩ := h
    exact ⟨hstore, hevents, hopen, hdrew.frame rfl rfl⟩
  | written u =>
    obtain ⟨⟨hwrote, d, hdrew, hallows⟩, hrest⟩ := h
    exact ⟨⟨hwrote, d, hdrew.frame rfl rfl, hallows⟩, hrest⟩
  | announced =>
    obtain ⟨u, e, ⟨hwrote, d, hdrew, hallows⟩, hrest⟩ := h
    exact ⟨u, e, ⟨hwrote, d, hdrew.frame rfl rfl, hallows⟩, hrest⟩
  | unheard =>
    obtain ⟨u, ⟨hwrote, d, hdrew, hallows⟩, hrest⟩ := h
    exact ⟨u, ⟨hwrote, d, hdrew.frame rfl rfl, hallows⟩, hrest⟩

theorem step_publish {u : Write} {e : Event} (h : w.Inv (.written u) s) (he : u.Announces e) :
    w.Step (.written u) (.publish e) s := by
  obtain ⟨⟨hwrote, d, hdrew, hallows⟩, hevents, hopen⟩ := h
  refine ⟨trivial, ?_⟩
  cases hs : s.channelOpen with
  | true =>
    have hworld : w.world (.publish e) s = (true, { s with events := s.events ++ [e] }) := by
      simp [world, Service.answerIn, Service.answer, hs]
    rw [hworld]
    exact ⟨u, e, ⟨hwrote, d, hdrew.frame rfl rfl, hallows⟩, he, congrArg (· ++ [e]) hevents⟩
  | false =>
    have hworld : w.world (.publish e) s = (false, s) := by
      simp [world, Service.answerIn, Service.answer, hs]
    rw [hworld]
    exact ⟨u, ⟨hwrote, d, hdrew, hallows⟩, hevents, hopen.symm.trans hs⟩

/-- **One request.** What the protocol allows is answered as it expects, and the phase afterwards says what has become of
the service. -/
theorem inv_answer (ph : Phase) (r : Request) (s : Service) (h : w.Inv ph s) (hr : w.protocol.asks ph r) :
    w.Step ph r s := by
  cases r with
  | count m => exact step_count h
  | publish e =>
    cases ph with
    | written u => exact step_publish h hr
    | _ => exact hr.elim
  | add k a =>
    cases ph with
    | preparing d => exact step_add h hr
    | _ => exact hr.elim
  | update k a =>
    cases ph with
    | preparing d => exact step_update h hr
    | _ => exact hr.elim
  | get k i =>
    cases ph with
    | preparing d => exact ⟨congrArg (fun t : Store => Ending.value ((t.repo k).get? i)) h.1, h⟩
    | _ => exact hr.elim
  | list k =>
    cases ph with
    | preparing d => exact ⟨congrArg (fun t : Store => Ending.value (w.listing.list k (t.repo k).items)) h.1, h⟩
    | _ => exact hr.elim
  | freshId =>
    cases ph with
    | preparing d => exact ⟨trivial, h.1, h.2.1, h.2.2.1, h.2.2.2.freshId⟩
    | _ => exact hr.elim
  | clock =>
    cases ph with
    | preparing d => exact ⟨trivial, h.1, h.2.1, h.2.2.1, h.2.2.2.clock⟩
    | _ => exact hr.elim
  | isCancelled =>
    cases ph with
    | preparing d => exact ⟨trivial, h⟩
    | _ => exact hr.elim
  | pause d => cases ph <;> exact hr.elim

/-! ## A whole run -/

/-- a command ends as its last phase says, and so does the service -/
theorem outcome_ends (w : Solo) : ∃ ph, Ends ph w.outcome.1 ∧ w.Inv ph w.outcome.2 :=
  w.task_keeps.run w.inv_answer w.inv_start

/-- a command leaves the store as it was or makes one write that it may make, and draws from the surroundings -/
theorem outcome_wrote (w : Solo) :
    ∃ d, w.Drew d w.outcome.2 ∧
      (w.outcome.2.store = w.before.store ∨ ∃ u, w.Allows d u ∧ w.before.store.Wrote u w.outcome.2.store) := by
  obtain ⟨ph, -, hinv⟩ := w.outcome_ends
  cases ph with
  | preparing d => exact ⟨d, hinv.2.2.2, .inl hinv.1⟩
  | written u =>
    obtain ⟨⟨hwrote, d, hdrew, hallows⟩, -⟩ := hinv
    exact ⟨d, hdrew, .inr ⟨u, hallows, hwrote⟩⟩
  | announced =>
    obtain ⟨u, -, ⟨hwrote, d, hdrew, hallows⟩, -⟩ := hinv
    exact ⟨d, hdrew, .inr ⟨u, hallows, hwrote⟩⟩
  | unheard =>
    obtain ⟨u, ⟨hwrote, d, hdrew, hallows⟩, -⟩ := hinv
    exact ⟨d, hdrew, .inr ⟨u, hallows, hwrote⟩⟩

/-- after its announcement, heard or not, a plan leaves the store alone -/
theorem run_after_announcement {ends : Phase → α → Prop} {p : Plan α} (hph : ph = .announced ∨ ph = .unheard)
    (h : p.Keeps w.protocol ends ph) (s : Service) :
    ends ph (p.run w.world s).1 ∧ (p.run w.world s).2.store = s.store := by
  have hstep : ∀ ph' r t, (ph' = ph ∧ t.store = s.store) → w.protocol.asks ph' r →
      w.protocol.answers r (w.world r t).1 ∧
        (w.protocol.after ph' r (w.world r t).1 = ph ∧ (w.world r t).2.store = s.store) := by
    rintro ph' r t ⟨rfl, ht⟩ hr
    cases r with
    | count m =>
      rcases hph with rfl | rfl
      · exact ⟨trivial, rfl, ht⟩
      · exact ⟨trivial, rfl, ht⟩
    | _ => rcases hph with rfl | rfl <;> exact hr.elim
  obtain ⟨ph', hends, rfl, hstore⟩ := h.run hstep ⟨rfl, rfl⟩
  exact ⟨hends, hstore⟩

/-- with somebody who listens, a plan ends the same, or it is heard where it was not, and what it stores is the same -/
theorem run_listened {ends : Phase → α → Prop} {p : Plan α} (h : p.Keeps w.protocol ends ph) (hi : w.Inv ph s) :
    p.run w.world s.listened = ((p.run w.world s).1, (p.run w.world s).2.listened) ∨
      ends .announced (p.run w.world s.listened).1 ∧
        (p.run w.world s.listened).2.store = (p.run w.world s).2.store := by
  induction p generalizing ph s with
  | done a => exact .inl rfl
  | ask r next ih =>
    obtain ⟨hasks, hnext⟩ := h
    obtain ⟨hanswer, hinv⟩ := w.inv_answer ph r s hi hasks
    by_cases hr : ∃ e, r = .publish e
    · obtain ⟨e, rfl⟩ := hr
      cases ph with
      | written u =>
        right
        -- heard or not, the rest of the plan leaves the store alone
        obtain ⟨hends, hheard⟩ := run_after_announcement (.inl rfl) (hnext true trivial)
          { s.listened with events := s.events ++ [e] }
        refine ⟨hends, hheard.trans ?_⟩
        cases hs : s.channelOpen with
        | true =>
          have hworld : w.world (.publish e) s = (true, { s with events := s.events ++ [e] }) := by
            simp [world, Service.answerIn, Service.answer, hs]
          rw [Plan.run_ask, hworld]
          obtain ⟨-, hrest⟩ := run_after_announcement (.inl rfl) (hnext true trivial)
            { s with events := s.events ++ [e] }
          exact hrest.symm
        | false =>
          have hworld : w.world (.publish e) s = (false, s) := by
            simp [world, Service.answerIn, Service.answer, hs]
          rw [Plan.run_ask, hworld]
          obtain ⟨-, hrest⟩ := run_after_announcement (.inr rfl) (hnext false trivial) s
          exact hrest.symm
      | _ => exact hasks.elim
    · have hpause : ∀ d, r ≠ .pause d := by
        rintro d rfl
        cases ph <;> exact hasks
      have hsame : w.world r s.listened = ((w.world r s).1, (w.world r s).2.listened) :=
        Service.answerIn_listened w.listing w.env (fun e he => hr ⟨e, he⟩) hpause
      rw [Plan.run_ask, Plan.run_ask, hsame]
      exact ih _ (hnext _ hanswer) hinv

/-- a command that nobody heard would have given a result, and the same store, with somebody who listens -/
theorem outcome_of_unheard {m : String} (h : w.outcome.1 = .failure (.event m)) :
    ∃ r t, w.before.listened.executeIn w.listing w.env w.settings w.command = (.value r, t) ∧
      w.outcome.2.store = t.store := by
  let w' : Solo := { w with before := w.before.listened }
  rcases run_listened w.task_keeps w.inv_start with hsame | ⟨hends, hstore⟩
  · -- with the channel open no command fails for it
    have hfail : w'.outcome.1 = .failure (.event m) := (congrArg Prod.fst hsame).trans h
    obtain ⟨ph, hends, hinv⟩ := w'.outcome_ends
    rw [hfail] at hends
    obtain rfl : ph = .unheard := hends
    obtain ⟨u, -, -, hclosed⟩ := hinv
    cases hclosed
  · change Ends .announced w'.outcome.1 at hends
    cases he : w'.outcome.1 with
    | value r => exact ⟨r, w'.outcome.2, Prod.ext he rfl, hstore.symm⟩
    | failure f =>
      rw [he] at hends
      cases f with
      | event m => cases hends
      | _ =>
        obtain ⟨d, hd⟩ := hends
        cases hd
    | fault f =>
      rw [he] at hends
      obtain ⟨d, hd⟩ := hends
      cases hd
    | silence =>
      rw [he] at hends
      exact hends.elim

end Solo

namespace Service

open Solo

/-- **A command writes at most once.** A command that gives a result has added one aggregate under an identity and a key
that were free, or has put what an operation makes of one stored aggregate in its place under the next version; nothing
else in the five repositories or their key indexes is changed, and one event, which tells of the write, was announced. A
command that fails because nobody listens to events announces nothing and leaves the store that it would leave with
somebody who listens, and then it would give a result. After any other end the store and the events are what they were. -/
theorem execute_writes_once (l : Listing) (env : Surroundings) (settings : Settings) (c : Command) (s : Service) :
    match s.executeIn l env settings c with
    | (.value _, t) => ∃ u e, s.store.Wrote u t.store ∧ u.Announces e ∧ t.events = s.events ++ [e]
    | (.failure (.event _), t) =>
      t.events = s.events ∧ (∃ u, s.store.Wrote u t.store) ∧
        ∃ r t', s.listened.executeIn l env settings c = (.value r, t') ∧ t.store = t'.store
    | (.failure _, t) => t.store = s.store ∧ t.events = s.events
    | (.fault _, t) => t.store = s.store ∧ t.events = s.events
    | (.silence, _) => False := by
  let w : Solo := ⟨env, l, settings, c, s⟩
  obtain ⟨ph, hends, hinv⟩ := w.outcome_ends
  have hunheard : ∀ m, (s.executeIn l env settings c).1 = .failure (.event m) → ∃ r t,
      s.listened.executeIn l env settings c = (.value r, t) ∧ (s.executeIn l env settings c).2.store = t.store :=
    fun m h => w.outcome_of_unheard h
  change Ends ph (s.executeIn l env settings c).1 at hends
  change w.Inv ph (s.executeIn l env settings c).2 at hinv
  generalize s.executeIn l env settings c = out at hends hinv hunheard
  obtain ⟨e, t⟩ := out
  have hquiet : (∃ d, ph = .preparing d) → t.store = s.store ∧ t.events = s.events := by
    rintro ⟨d, rfl⟩
    exact ⟨hinv.1, hinv.2.1⟩
  cases e with
  | value r =>
    obtain rfl : ph = .announced := hends
    obtain ⟨u, e, ⟨hwrote, -⟩, he, hevents⟩ := hinv
    exact ⟨u, e, hwrote, he, hevents⟩
  | failure f =>
    cases f with
    | event m =>
      obtain rfl : ph = .unheard := hends
      obtain ⟨u, ⟨hwrote, -⟩, hevents, -⟩ := hinv
      exact ⟨hevents, ⟨u, hwrote⟩, hunheard m rfl⟩
    | _ => exact hquiet hends
  | fault f => exact hquiet hends
  | silence => exact hends

end Service

end Brigade
