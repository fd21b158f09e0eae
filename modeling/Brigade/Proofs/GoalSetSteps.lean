/-
What a command makes of the stored goal sets.

A command that has the service to itself leaves the goal sets as they are, or adds a blank one, or puts in the place of
its set what one operation makes of it; and the weights that it gives are between 1 and 100 (`SetWrite`).
- `task_keeps_sets`: all eighteen commands keep to one protocol as far as goal sets go. Eight keep to it because they keep
  to `GoalSetWriter.protocol`, eight because they keep to `Floor.protocol`, and the two that open a period or a set have
  no set to change.
- `setWrite_executeIn`: every command writes so or not at all, and one on a goal set has no value without its write.
- `kept_executeAllIn`: so what holds of new sets, and is kept by every change (`GoalSet.Kept`), holds of every set that is
  created in a run of commands.
-/
import Brigade.Proofs.FloorLog
import Brigade.Proofs.GoalAnswers
import Brigade.Proofs.GoalSetWriter

namespace Brigade

/-- the weights that a command lets pass -/
def GoalSet.Op.Weighed : GoalSet.Op → Prop
  | .addGoal _ _ _ _ p | .updateGoal _ _ _ _ p => 1 ≤ p.toInt ∧ p.toInt ≤ 100
  | _ => True

theorem GoalCommand.weighed_of_percentageComplaints {p : Int32} (h : percentageComplaints p = []) :
    1 ≤ p.toInt ∧ p.toInt ≤ 100 := by
  have hp := Validation.check_eq_nil.1 h
  simp only [Bool.and_eq_true, decide_eq_true_eq] at hp
  exact ⟨Int32.le_iff_toInt_le.1 hp.1, Int32.le_iff_toInt_le.1 hp.2⟩

/-- a command that does not complain of its input asks for such a weight -/
theorem Command.weighed_of_op? {c : Command} {i : Id} {o : GoalSet.Op} (h : c.goalComplaints = [])
    (ho : c.op? i = some o) : o.Weighed := by
  cases c with
  | addGoal a =>
    simp only [op?] at ho
    split at ho
    · obtain rfl := Option.some.inj ho
      exact GoalCommand.weighed_of_percentageComplaints (List.append_eq_nil_iff.1 h).2
    · cases ho
  | updateGoal u =>
    obtain rfl := Option.some.inj ho
    exact GoalCommand.weighed_of_percentageComplaints (List.append_eq_nil_iff.1 h).2
  | _ => cases ho <;> trivial

/-- a set as it is created -/
def GoalSet.Blank (s : GoalSet) : Prop := s.status = none ∧ s.goals = []

/-- what a command writes in the stored goal sets -/
inductive SetWrite (c : Command) (s t : Repository GoalSet) : Prop where
  | added (new : GoalSet) (opens : c.goalSet? = none) (blank : new.Blank) (unused : s.get? new.id = none)
      (stored : t.get? new.id = some new) (others : ∀ j, j ≠ new.id → t.get? j = s.get? j)
  | changed (old new : GoalSet) (op : GoalSet.Op) (set : c.goalSet? = some old.id) (asked : ∃ i, c.op? i = some op)
      (weighed : op.Weighed) (before : s.get? old.id = some old)
      (granted : old.apply op = .ok { new with version := old.version }) (stored : t.get? old.id = some new)
      (others : ∀ j, j ≠ old.id → t.get? j = s.get? j)

/-! ## Writes of the repository -/

namespace Repository

variable {α : Type} [Aggregate α] {r r' : Repository α} {a : α} {i : Id}

/-- a new aggregate is found under its identity, and all others where they were -/
theorem get?_of_add (h : r.add a = (.ok (), r')) :
    r.get? (Aggregate.id a) = none ∧ r'.get? (Aggregate.id a) = some a ∧
      ∀ j, j ≠ Aggregate.id a → r'.get? j = r.get? j := by
  cases h ▸ add_case r a with
  | stored free unused =>
    have hnone : r.items.find? (Aggregate.id · == Aggregate.id a) = none := unused
    refine ⟨unused, ?_, fun j hj => ?_⟩
    · simp [get?, List.find?_append, hnone]
    · have hne : (Aggregate.id a == j) = false := by simpa using hj.symm
      simp [get?, List.find?_append, hne]

/-- an update leaves what is stored under other identities -/
theorem get?_of_update_of_ne [LawfulAggregate α] {b : α} (h : r.update a = .ok (b, r')) (hi : i ≠ Aggregate.id a) :
    r'.get? i = r.get? i := by
  have hid := id_of_update h
  obtain ⟨stored, v, -, -, -, -, rfl⟩ := update_eq_ok h
  exact get?_replace_of_ne (hid ▸ hi.symm)

end Repository

/-! ## The protocol -/

/-- a command that has a service to itself, as far as goal sets go -/
structure SetUser where
  env : Surroundings
  listing : Listing
  command : Command
  /-- the service before the command -/
  before : Service

namespace SetUser

variable {α β ε : Type} {w : SetUser} {ph : GoalSetWriter.Phase} {r : Request} {s : Service}

/-- where a command is -/
inductive Phase where
  /-- nothing is written yet, and this set was fetched last -/
  | reading (held : Option GoalSet)
  | written

/-- the operations that the command may ask -/
def Mine (w : SetUser) (o : GoalSet.Op) : Prop := o.Weighed ∧ ∃ i, w.command.op? i = some o

/-- fetch the set of the command, and write once what one of its operations makes of it, or a blank set -/
def protocol (w : SetUser) : Protocol Phase where
  first := .reading none
  asks ph
    | .update .goalSet t =>
      ∃ s o, ph = .reading (some s) ∧ w.command.goalSet? = some (GoalSet.id s) ∧ w.Mine o ∧ GoalSet.apply s o = .ok t
    | .add .goalSet t => ph ≠ .written ∧ w.command.goalSet? = none ∧ GoalSet.Blank t
    | .update .menuItem _ | .add .menuItem _ => False
    | _ => True
  answers r x := ∃ s : Service, s.channelOpen = w.before.channelOpen ∧ s.store.menuItems = w.before.store.menuItems ∧
    x = (Service.answerIn w.listing w.env r s).1
  after ph
    | .get .goalSet _, x =>
      match ph, x with
      | .reading _, .value found => .reading found
      | _, _ => ph
    | .update .goalSet _, x | .add .goalSet _, x =>
      match x with
      | .value _ => .written
      | _ => .reading none
    | _, _ => ph

/-- a command on a goal set has no value before its write -/
def Ends (w : SetUser) (ph : Phase) (e : Ending α) : Prop :=
  ∀ a, e = .value a → w.command.goalSet? ≠ none → ph = .written

/-! ## Commands that change a set -/

/-- the command as a writer of its goal set -/
def writer (w : SetUser) (i : Id) (limit : Nat) : GoalSetWriter := ⟨w.env.ids, w.before.channelOpen, i, limit, w.Mine⟩

/-- the phases in which a command can be together -/
def AsWriter (i : Id) : GoalSetWriter.Phase → Phase → Prop
  | .holding _ s, ps => ps = .reading (some s) ∧ s.id = i
  | .written, ps => ps = .written
  | _, ps => ∃ held, ps = .reading held

/-- a service replies as a writer of its goal set expects -/
theorem answers_writer {i : Id} {limit : Nat} {x : r.Reply} (h : w.protocol.answers r x) :
    (w.writer i limit).protocol.answers r x := by
  obtain ⟨s, hopen, -, rfl⟩ := h
  cases r with
  | get k j => cases k <;> first | trivial | exact ⟨_, rfl⟩
  | update k a =>
    cases k with
    | goalSet =>
      change GoalSetWriter.protocol _ |>.answers _ (Service.answer w.env (.update .goalSet a) s).1
      cases hu : (s.store.repo .goalSet).update a with
      | ok p =>
        rw [Service.answer_update_of_ok hu]
        exact .inl ⟨_, rfl⟩
      | refused f =>
        rw [Service.answer_update_of_refused hu]
        rcases Repository.update_eq_refused hu with ⟨-, rfl⟩ | ⟨stored, -, -, rfl⟩
        · exact .inr (.inr (.inl ⟨_, rfl⟩))
        · exact .inr (.inl ⟨_, rfl⟩)
      | fault f =>
        rw [Service.answer_update_of_fault hu]
        exact .inr (.inr (.inr ⟨f, rfl⟩))
    | _ => trivial
  | publish e =>
    change (Service.answer w.env (.publish e) s).1 = w.before.channelOpen
    rw [Service.answer_publish, hopen]
  | freshId => exact ⟨s.idsDrawn, rfl⟩
  | _ => trivial

/-- wherever a writer keeps to its protocol, it keeps to this one -/
theorem keeps_of_writer {i : Id} {limit : Nat} {p : Plan (Ending α)} (hset : w.command.goalSet? = some i)
    (h : p.Keeps (w.writer i limit).protocol (w.writer i limit).Ends (.idle 0)) :
    p.Keeps w.protocol w.Ends (.reading none) := by
  have hrel : AsWriter i (.idle 0) (.reading none) := ⟨none, rfl⟩
  refine h.simulated (AsWriter i) ?_ (fun _ _ => answers_writer) ?_ ?_ hrel
  · intro ph ps r hrel hasks
    cases r with
    | update k t =>
      cases k with
      | goalSet =>
        obtain ⟨failed, s, o, rfl, ho, happly⟩ := hasks
        obtain ⟨rfl, rfl⟩ := hrel
        exact ⟨s, o, rfl, hset, ho, happly⟩
      | _ => exact hasks.elim
    | add k t => exact hasks.elim
    | _ => trivial
  · intro ph ps r x hrel hasks hanswers
    cases r with
    | get k j =>
      cases k with
      | goalSet =>
        obtain ⟨hj, failed, -, rfl⟩ := hasks
        obtain rfl : j = i := hj
        obtain ⟨held, rfl⟩ := hrel
        obtain ⟨s, -, -, hx⟩ := hanswers
        obtain rfl : x = .value (s.store.goalSets.get? j) := hx
        cases hget : s.store.goalSets.get? j with
        | none => exact ⟨none, rfl⟩
        | some c => exact ⟨rfl, Repository.id_of_get? hget⟩
      | _ => exact hasks.elim
    | update k t =>
      cases k with
      | goalSet =>
        obtain ⟨failed, s, o, rfl, -⟩ := hasks
        cases x with
        | value t => exact rfl
        | failure f => cases f <;> exact ⟨none, rfl⟩
        | _ => exact ⟨none, rfl⟩
      | _ => exact hasks.elim
    | add k t => exact hasks.elim
    | list k => exact hasks.elim
    | _ => exact hrel
  · rintro ph ps e hrel hends a rfl -
    obtain rfl : ph = .written := hends
    exact hrel

instance : w.protocol.Counting := ⟨fun _ _ => ⟨trivial, rfl⟩⟩

theorem giving_keeps {f : α → β} {t : Task α} {ps : Phase} (h : t.plan.Keeps w.protocol w.Ends ps) :
    (t.giving f).plan.Keeps w.protocol w.Ends ps := by
  refine Task.keeps_bind.2 (h.mono fun ps e he => ?_)
  cases e with
  | value a => exact fun b hb hset => he a rfl hset
  | _ => exact fun b hb => by cases hb

theorem writer_keeps (settings : Settings) {i : Id} (hset : w.command.goalSet? = some i) :
    (w.command.task settings).plan.Keeps w.protocol w.Ends (.reading none) := by
  by_cases hcomplaints : w.command.goalComplaints = []
  · have hmine : ∀ j o, w.command.op? ((w.writer i settings.retry.limit).ids j) = some o →
        (w.writer i settings.retry.limit).mine o := fun j o ho => ⟨Command.weighed_of_op? hcomplaints ho, _, ho⟩
    exact keeps_of_writer hset (GoalSetWriter.task_keeps hset rfl hmine)
  · obtain ⟨n, hname⟩ := Command.goalName?_of_goalSet? hset
    rw [Command.task_of_complaining hname hcomplaints settings]
    exact ⟨trivial, fun _ _ => nofun⟩

/-! ## Commands on orders and tables -/

/-- a command on the floor holds an order or a table -/
def AsFloor (ph : Floor.Phase) (ps : Phase) : Prop :=
  ps = .reading none ∧ ∀ k i found, ph = .holding k i found → k = .order ∨ k = .table

/-- the command as one on the floor -/
def floor (w : SetUser) : Floor := ⟨w.before.channelOpen, w.before.store.menuItems, fun _ => True⟩

theorem answers_floor {x : r.Reply} (h : w.protocol.answers r x) : w.floor.protocol.answers r x := by
  obtain ⟨s, hopen, hmenu, rfl⟩ := h
  have hanswer : w.floor.protocol.answers r (Service.answer w.env r s).1 := Floor.answers_answer hopen hmenu r
  cases r with
  | list k => trivial
  | _ => exact hanswer

theorem asks_of_floor {fph : Floor.Phase} {ps : Phase} (hrel : AsFloor fph ps) (hasks : w.floor.protocol.asks fph r) :
    w.protocol.asks ps r := by
  by_cases hr : r.isWrite = true
  · obtain ⟨k, i, found, rfl, hw⟩ := Floor.holding_of_isWrite hasks hr
    cases hw with
    | update hk hversion => rcases hrel.2 _ _ _ rfl with rfl | rfl <;> trivial
    | add hplaced havailable htable => trivial
  · cases r with
    | add k a => exact absurd rfl hr
    | update k a => exact absurd rfl hr
    | _ => trivial

/-- a command on the floor fetches no goal set -/
theorem not_asks_goalSet {f : Floor} {fph : Floor.Phase} {i : Id} : ¬f.protocol.asks fph (.get .goalSet i) := by
  intro hasks
  cases fph with
  | arriving =>
    obtain hq | ⟨j, hr | hr⟩ := hasks
    · cases hq
    · cases hr
    · cases hr
  | holding k j found =>
    obtain hq | hw := hasks
    · cases hq
    · cases hw
  | written =>
    obtain ⟨e, hr⟩ | ⟨m, hr⟩ := hasks
    · cases hr
    · cases hr
  | refused =>
    obtain ⟨m, hr⟩ := hasks
    cases hr

theorem floor_keeps (settings : Settings) (hfloor : w.command.onFloor = true) :
    (w.command.task settings).plan.Keeps w.protocol w.Ends (.reading none) := by
  have hset : w.command.goalSet? = none := by
    cases hc : w.command <;> first | rfl | (rw [hc] at hfloor; cases hfloor)
  have hkeeps := Floor.task_keeps_floor (w := w.floor) settings hfloor fun _ _ => trivial
  refine hkeeps.simulated AsFloor (fun _ _ _ => asks_of_floor) (fun _ _ => answers_floor) ?_
    (fun _ _ _ _ _ a _ hne => absurd hset hne) ⟨rfl, nofun⟩
  rintro fph ps r x ⟨rfl, hheld⟩ hasks -
  by_cases hr : r.isWrite = true
  · obtain ⟨k, i, found, rfl, hw⟩ := Floor.holding_of_isWrite hasks hr
    cases hw with
    | update hk hversion =>
      refine ⟨?_, fun k' i' found' h => ?_⟩
      · rcases hheld _ _ _ rfl with rfl | rfl <;> rfl
      · cases x <;> cases h
    | add hplaced havailable htable =>
      refine ⟨rfl, fun k' i' found' h => ?_⟩
      cases x <;> cases h
  · cases r with
    | get k i =>
      cases k with
      | order =>
        refine ⟨rfl, fun k' i' found' h => ?_⟩
        cases x with
        | value found => exact .inl (by cases h; rfl)
        | _ => exact hheld _ _ _ h
      | table =>
        refine ⟨rfl, fun k' i' found' h => ?_⟩
        cases x with
        | value found => exact .inr (by cases h; rfl)
        | _ => exact hheld _ _ _ h
      | goalSet => exact absurd hasks not_asks_goalSet
      | _ => exact ⟨rfl, hheld⟩
    | add k a => exact absurd rfl hr
    | update k a => exact absurd rfl hr
    | _ => exact ⟨rfl, hheld⟩

/-! ## Commands that open a period or a set -/

/-- a new aggregate is added and announced, and the command ends -/
theorem addAnnounced_keeps {k : Kind} {a : k.Member} {reword : Failure → Failure} {e : k.Member → Event}
    {result : k.Member → β} (hset : w.command.goalSet? = none) (hasks : w.protocol.asks (.reading none) (.add k a)) :
    (Task.mapFailure reword (Task.add k a) >>= fun b => GoalCommand.announce (e b) >>= fun _ =>
      pure (result b)).plan.Keeps w.protocol w.Ends (.reading none) := by
  have hends : ∀ ps (x : Ending β), w.Ends ps x := fun ps x b _ hne => absurd hset hne
  refine Task.keeps_bind.2 (Task.keeps_mapFailure.2 ⟨hasks, fun x _ => ?_⟩)
  cases x with
  | value b =>
    refine Task.keeps_bind.2 ⟨trivial, fun sent _ => ?_⟩
    cases sent <;> exact hends _ _
  | _ => exact hends _ _

theorem addGoalPeriod_keeps {c : AddGoalPeriod} (hc : w.command = .addGoalPeriod c) :
    c.body.plan.Keeps w.protocol w.Ends (.reading none) := by
  have hset : w.command.goalSet? = none := by rw [hc]; rfl
  have hends : ∀ (x : Ending AddGoalPeriodResult), w.Ends (.reading none) x := fun x b _ hne => absurd hset hne
  refine Task.keeps_bind.2 (Task.keeps_unless?.2 ⟨fun _ => ?_, fun f _ => hends _⟩)
  refine Task.keeps_bind.2 ⟨trivial, fun i _ => ?_⟩
  refine Task.keeps_bind.2 (Task.keeps_ofOutcome.2 ⟨fun p _ => ?_, fun e _ => hends _, fun f _ => hends _⟩)
  exact addAnnounced_keeps (k := .goalPeriod) hset trivial

theorem createGoalSet_keeps {c : CreateGoalSet} (hc : w.command = .createGoalSet c) :
    c.body.plan.Keeps w.protocol w.Ends (.reading none) := by
  have hset : w.command.goalSet? = none := by rw [hc]; rfl
  have hends : ∀ (x : Ending CreateGoalSetResult), w.Ends (.reading none) x := fun x b _ hne => absurd hset hne
  refine Task.keeps_bind.2 (Task.keeps_unless?.2 ⟨fun _ => ?_, fun f _ => hends _⟩)
  refine Task.keeps_bind.2 ⟨trivial, fun periods _ => ?_⟩
  cases periods with
  | value periods =>
    refine Task.keeps_bind.2 (Task.keeps_orFail.2 ⟨fun _ => hends _, fun p _ => ?_⟩)
    refine Task.keeps_bind.2 ⟨trivial, fun i _ => ?_⟩
    refine Task.keeps_bind.2 (Task.keeps_ofOutcome.2 ⟨fun s hs => ?_, fun e _ => hends _, fun f _ => hends _⟩)
    obtain rfl := GoalSet.create_eq_ok hs
    exact addAnnounced_keeps (k := .goalSet) hset ⟨Phase.noConfusion, hset, rfl, rfl⟩
  | _ => exact hends _

/-- **One protocol for the goal sets.** Every command keeps to it, under all settings. -/
theorem task_keeps_sets (w : SetUser) (settings : Settings) :
    (w.command.task settings).plan.Keeps w.protocol w.Ends w.protocol.first := by
  cases hset : w.command.goalSet? with
  | some i => exact writer_keeps settings hset
  | none =>
    by_cases hfloor : w.command.onFloor = true
    · exact floor_keeps settings hfloor
    · cases hc : w.command with
      | addGoalPeriod c => exact giving_keeps (Task.counted_keeps (addGoalPeriod_keeps hc))
      | createGoalSet c => exact giving_keeps (Task.counted_keeps (createGoalSet_keeps hc))
      | _ =>
        rw [hc] at hset hfloor
        first | exact absurd rfl hfloor | cases hset

/-! ## What the phases mean -/

/-- while a command reads, the goal sets are those from before; afterwards they have changed by one step -/
def Inv (w : SetUser) (ps : Phase) (s : Service) : Prop :=
  s.channelOpen = w.before.channelOpen ∧ s.store.menuItems = w.before.store.menuItems ∧
    match ps with
    | .reading held => s.store.goalSets = w.before.store.goalSets ∧
        ∀ c, held = some c → w.before.store.goalSets.get? c.id = some c
    | .written => SetWrite w.command w.before.store.goalSets s.store.goalSets

/-- what leaves the store alone, and the held set, changes nothing -/
theorem Inv.frame {ps : Phase} {t : Service} (h : w.Inv ps s) (hopen : t.channelOpen = s.channelOpen)
    (hmenu : t.store.menuItems = s.store.menuItems) (hsets : t.store.goalSets = s.store.goalSets) : w.Inv ps t := by
  obtain ⟨h₁, h₂, h₃⟩ := h
  refine ⟨hopen.trans h₁, hmenu.trans h₂, ?_⟩
  cases ps with
  | reading held => exact ⟨hsets.trans h₃.1, h₃.2⟩
  | written => exact hsets.symm ▸ h₃

/-- a request that is no write is answered from the store, and leaves it alone -/
theorem inv_of_read {ps : Phase} (h : w.Inv ps s) (hr : r.isWrite = false) :
    w.Inv (w.protocol.after ps r (Service.answerIn w.listing w.env r s).1) (Service.answerIn w.listing w.env r s).2 := by
  have hstore : (Service.answerIn w.listing w.env r s).2.store = s.store := Service.store_answerIn hr
  have hframe : w.Inv ps (Service.answerIn w.listing w.env r s).2 :=
    h.frame (Service.channelOpen_answerIn r) (by rw [hstore]) (by rw [hstore])
  cases r with
  | get k i =>
    cases k with
    | goalSet =>
      cases ps with
      | reading held =>
        obtain ⟨hopen, hmenu, hsets, -⟩ := h
        refine ⟨hopen, hmenu, hsets, fun c hc => ?_⟩
        have hget : s.store.goalSets.get? i = some c := hc
        have hid : c.id = i := Repository.id_of_get? hget
        rw [← hsets, hid]
        exact hget
      | written => exact hframe
    | _ => exact hframe
  | add k a => cases hr
  | update k a => cases hr
  | _ => exact hframe

theorem inv_of_add {ps : Phase} {k : Kind} {a : k.Member} (h : w.Inv ps s) (hasks : w.protocol.asks ps (.add k a)) :
    w.Inv (w.protocol.after ps (.add k a) (Service.answer w.env (.add k a) s).1)
      (Service.answer w.env (.add k a) s).2 := by
  have hopen : (Service.answer w.env (.add k a) s).2.channelOpen = s.channelOpen := Service.channelOpen_answer _
  rcases hadd : (s.store.repo k).add a with ⟨f | u, r'⟩
  · rw [Service.answer_add_of_error (congrArg Prod.fst hadd)]
    cases k with
    | goalSet =>
      obtain ⟨hps, -⟩ := hasks
      cases ps with
      | reading held => exact ⟨h.1, h.2.1, h.2.2.1, nofun⟩
      | written => exact absurd rfl hps
    | _ => exact h
  · rw [Service.answer_add_of_ok hadd] at hopen ⊢
    cases k with
    | goalSet =>
      obtain ⟨hps, hopens, hblank⟩ := hasks
      cases ps with
      | reading held =>
        have hsets : s.store.repo .goalSet = w.before.store.goalSets := h.2.2.1
        rw [hsets] at hadd
        obtain ⟨hunused, hstored, hothers⟩ := Repository.get?_of_add hadd
        exact ⟨h.1, h.2.1, .added a hopens hblank hunused hstored hothers⟩
      | written => exact absurd rfl hps
    | menuItem => exact hasks.elim
    | _ => exact h.frame hopen rfl rfl

theorem inv_of_update {ps : Phase} {k : Kind} {a : k.Member} (h : w.Inv ps s)
    (hasks : w.protocol.asks ps (.update k a)) :
    w.Inv (w.protocol.after ps (.update k a) (Service.answer w.env (.update k a) s).1)
      (Service.answer w.env (.update k a) s).2 := by
  have hunchanged : ∀ e : Ending k.Member, (∀ b, e ≠ .value b) → w.Inv (w.protocol.after ps (.update k a) e) s := by
    intro e he
    cases k with
    | goalSet =>
      obtain ⟨c, o, rfl, -⟩ := hasks
      cases e with
      | value b => exact absurd rfl (he b)
      | _ => exact ⟨h.1, h.2.1, h.2.2.1, nofun⟩
    | _ => exact h
  cases hu : (s.store.repo k).update a with
  | ok p =>
    rw [Service.answer_update_of_ok hu]
    cases k with
    | goalSet =>
      obtain ⟨c, o, rfl, hset, ⟨hweighed, hasked⟩, happly⟩ := hasks
      obtain ⟨hopen, hmenu, hsets, hheld⟩ := h
      have hsets : s.store.repo .goalSet = w.before.store.goalSets := hsets
      rw [hsets] at hu
      obtain ⟨hid, hversion⟩ := (GoalSet.change_of_apply happly).id_version
      have hstored := Repository.get?_of_update hu
      have hothers := fun j hj => Repository.get?_of_update_of_ne (i := j) hu hj
      obtain ⟨b, r'⟩ := p
      obtain ⟨-, v, -, -, -, rfl, -⟩ := Repository.update_eq_ok hu
      have hid : Aggregate.id a = c.id := hid
      rw [hid] at hstored hothers
      refine ⟨hopen, hmenu, .changed c _ o hset hasked hweighed (hheld c rfl) ?_ hstored hothers⟩
      rw [happly, ← hversion]
      rfl
    | menuItem => exact hasks.elim
    | _ => exact h.frame rfl rfl rfl
  | refused f =>
    rw [Service.answer_update_of_refused hu]
    exact hunchanged _ nofun
  | fault f =>
    rw [Service.answer_update_of_fault hu]
    exact hunchanged _ nofun

theorem inv_answerIn (ps : Phase) (r : Request) (s : Service) (h : w.Inv ps s) (hasks : w.protocol.asks ps r) :
    w.protocol.answers r (Service.answerIn w.listing w.env r s).1 ∧
      w.Inv (w.protocol.after ps r (Service.answerIn w.listing w.env r s).1)
        (Service.answerIn w.listing w.env r s).2 := by
  refine ⟨⟨s, h.1, h.2.1, rfl⟩, ?_⟩
  cases r with
  | add k a => exact inv_of_add h hasks
  | update k a => exact inv_of_update h hasks
  | _ => exact inv_of_read h rfl

end SetUser

/-- **One command.** It leaves the stored goal sets as they are or writes one of them once; and a command on a goal set that
ends with a value has written. -/
theorem Service.setWrite_executeIn (l : Listing) (env : Surroundings) (settings : Settings) (c : Command) (s : Service) :
    ((s.executeIn l env settings c).2.store.goalSets = s.store.goalSets ∨
      SetWrite c s.store.goalSets (s.executeIn l env settings c).2.store.goalSets) ∧
      ∀ a, (s.executeIn l env settings c).1 = .value a → c.goalSet? ≠ none →
        SetWrite c s.store.goalSets (s.executeIn l env settings c).2.store.goalSets := by
  let w : SetUser := ⟨env, l, c, s⟩
  have hstart : w.Inv w.protocol.first w.before := ⟨rfl, rfl, rfl, nofun⟩
  obtain ⟨ps, hends, hinv⟩ := (w.task_keeps_sets settings).run w.inv_answerIn hstart
  cases ps with
  | reading held => exact ⟨.inl hinv.2.2.1, fun a ha hset => nomatch hends a ha hset⟩
  | written => exact ⟨.inr hinv.2.2, fun _ _ _ => hinv.2.2⟩

/-! ## What holds of every set that is created in a run -/

/-- a condition that holds of new sets, that every weighed operation keeps, and for which the version does not count -/
structure GoalSet.Kept (P : GoalSet → Prop) : Prop where
  blank : ∀ s, s.Blank → P s
  change : ∀ s t o, P s → Change s o t → o.Weighed → P t
  version : ∀ (s : GoalSet) (v : Int32), P { s with version := v } → P s

/-- what is stored after a command keeps such a condition; so does a set that the command adds -/
theorem SetWrite.kept {P : GoalSet → Prop} (hP : GoalSet.Kept P) {c : Command} {before after : Repository GoalSet} {i : Id}
    (h : SetWrite c before after) (hs : ∀ s, before.get? i = some s → P s) : ∀ s, after.get? i = some s → P s := by
  intro s hget
  cases h with
  | added new opens blank unused stored others =>
    by_cases hi : i = new.id
    · subst hi
      rw [stored] at hget
      exact Option.some.inj hget ▸ hP.blank new blank
    · exact hs s (others i hi ▸ hget)
  | changed old new op set asked weighed found granted stored others =>
    by_cases hi : i = old.id
    · subst hi
      rw [stored] at hget
      obtain rfl := Option.some.inj hget
      exact hP.version new old.version (hP.change old _ op (hs old found) (GoalSet.change_of_apply granted) weighed)
    · exact hs s (others i hi ▸ hget)

/-- such a condition holds of every set that was created in a run of commands -/
theorem Service.kept_executeAllIn {P : GoalSet → Prop} (hP : GoalSet.Kept P) {env : Surroundings} {settings : Settings}
    {start : Service} {cs : List (Listing × Command)} {i : Id} (hnew : start.store.goalSets.get? i = none) :
    ∀ s, (start.executeAllIn env settings cs).store.goalSets.get? i = some s → P s := by
  induction cs using List.reverseRecOn with
  | nil =>
    intro s hs
    cases hnew.symm.trans hs
  | append_singleton cs c ih =>
    obtain ⟨l, c⟩ := c
    rw [executeAllIn_snoc]
    rcases (setWrite_executeIn l env settings c (start.executeAllIn env settings cs)).1 with heq | hwrite
    · rw [heq]
      exact ih
    · exact hwrite.kept hP ih

end Brigade
