/-
Moves of an order under an expected version, among any number of other writers.

The command looks at the version of the copy that it loads, decides the move on that copy, and leaves the rest to the
repository, which looks at the version once more. What it does is told by `MoveOrder.protocol`: after the load it holds a
copy that it may write, or it has failed (`MoveOrder.judge`), and what it has failed with is how it ends.
- `moves_guarded`: for every placement of the other requests. A turn of the command changes the store only over the
  expected version and along the table of moves; and the loaded copy, with what has been written since, tells how it ends.

That both checks together are enough rests on the copies of the log (`CopiesDated`): a stored order with the version of
the copy is the copy.
-/
import Brigade.Proofs.Additions
import Brigade.Proofs.OptimisticLocking

namespace Brigade

namespace MoveOrder

variable {c : MoveOrder} {v : Int32} {o : Order} {settings : Settings} {n : Nat}

/-! ## What the command asks -/

/-- where a move is -/
inductive Phase where
  | arriving
  /-- a copy with the expected version was loaded, and it may move -/
  | holding (o : Order)
  | written
  | failed (f : Failure)
  | faulted (f : Fault)

/-- what is made of a loaded copy: the version is looked at first, then the table of moves -/
def judge (c : MoveOrder) (v : Int32) (o : Order) : Phase :=
  if o.version ≠ v then .failed (.staleWrite c.orderId)
  else if o.status.canMoveTo c.status then .holding o
  else .failed (.domain (OrderCommand.refusal (.noMove o.status c.status)))

/-- load the order once, write the moved copy once, and announce it -/
def protocol (c : MoveOrder) (v : Int32) : Protocol Phase where
  first := .arriving
  asks
    | .arriving, r => r = .get .order c.orderId
    | .holding o, r => r = .update .order { o with status := c.status }
    | .written, r => (∃ e, r = .publish e) ∨ ∃ m, r = .count m
    | _, r => ∃ m, r = .count m
  answers
    | .get _ _, x => ∃ found, x = .value found
    | .update _ _, x => x ≠ .silence
    | _, _ => True
  after
    | .arriving, .get .order i, .value (some o) => if i = c.orderId then c.judge v o else .arriving
    | .arriving, .get .order _, .value none => .failed (.notFound ("Order " ++ c.orderId.text ++ " not found"))
    | .holding _, .update _ _, .value _ => .written
    | .holding _, .update _ _, .failure f => .failed f
    | .holding _, .update _ _, .fault f => .faulted f
    | ph, _, _ => ph

/-- in which phase a move ends how -/
def Ends {α : Type} : Phase → Ending α → Prop
  | .written, e => (∃ a, e = .value a) ∨ ∃ m, e = .failure (.event m)
  | .failed f, e => e = .failure f
  | .faulted f, e => e = .fault f
  | _, _ => False

/-- in which phase the order has been stored, or not -/
def StoreEnds {α : Type} : Phase → Ending α → Prop
  | .written, e => ∃ a, e = .value a
  | .failed f, e => e = .failure f
  | .faulted f, e => e = .fault f
  | _, _ => False

theorem asks_count {ph : Phase} {α : Type} {e : Ending α} (h : StoreEnds ph e) (m : Metric) :
    (c.protocol v).asks ph (.count m) ∧ (c.protocol v).after ph (.count m) () = ph := by
  cases ph with
  | written => exact ⟨.inr ⟨m, rfl⟩, rfl⟩
  | failed f => exact ⟨⟨m, rfl⟩, rfl⟩
  | faulted f => exact ⟨⟨m, rfl⟩, rfl⟩
  | _ => exact h.elim

theorem store_keeps (hv : c.version = some v) : c.store.plan.Keeps (c.protocol v) StoreEnds .arriving := by
  refine Task.keeps_bind.2 (Task.keeps_bind.2 ⟨rfl, fun x hx => ?_⟩)
  obtain ⟨found, rfl⟩ := hx
  refine Task.keeps_orFail.2 ⟨fun hnone => ?_, fun o ho => ?_⟩
  · subst hnone
    exact rfl
  · subst ho
    have hjudged : (c.protocol v).after .arriving (.get .order c.orderId) (.value (some o)) = c.judge v o := if_pos rfl
    have hexpected : c.version.all (· == o.version) = decide (v = o.version) := by
      rw [hv]
      rfl
    rw [hjudged]
    change Plan.Keeps _ _ (if c.version.all (· == o.version) then _ else _ : Task (OrderStatus × Order)).plan _
    rw [hexpected, judge]
    by_cases hversion : o.version = v
    · have heq : decide (v = o.version) = true := decide_eq_true hversion.symm
      rw [if_pos heq, if_neg (not_not.2 hversion)]
      cases hallowed : o.status.canMoveTo c.status with
      | true =>
        have hmoved : o.moveTo c.status = .ok { o with status := c.status } := if_pos hallowed
        rw [hmoved]
        refine ⟨rfl, fun x hx => ?_⟩
        cases x with
        | value b => exact ⟨_, rfl⟩
        | failure f => exact rfl
        | fault f => exact rfl
        | silence => exact absurd rfl hx
      | false =>
        have hrefused : o.moveTo c.status = .refused (.noMove o.status c.status) := if_neg (by simp [hallowed])
        rw [hrefused]
        exact rfl
    · have hne : decide (v = o.version) = false := decide_eq_false fun h => hversion h.symm
      rw [hne, if_pos hversion]
      exact rfl

/-- a move keeps to its protocol, whatever is replied -/
theorem task_keeps (hv : c.version = some v) :
    ((Command.moveOrder c).task settings).plan.Keeps (c.protocol v) Ends (c.protocol v).first := by
  refine Task.keeps_bind.2 (Task.keeps_bind.2 (Task.keeps_counted.2 ((store_keeps hv).mono fun ph e he => ?_)))
  refine Plan.keeps_counting _ (asks_count he) ?_
  cases ph with
  | written =>
    obtain ⟨x, rfl⟩ := he
    refine Task.keeps_bind.2 (Task.keeps_counted.2 ⟨.inl ⟨_, rfl⟩, fun sent _ => ?_⟩)
    cases sent with
    | true => exact ⟨.inr ⟨_, rfl⟩, fun _ _ => .inl ⟨_, rfl⟩⟩
    | false => exact ⟨.inr ⟨_, rfl⟩, fun _ _ => .inr ⟨_, rfl⟩⟩
  | failed f =>
    obtain rfl := he
    exact rfl
  | faulted f =>
    obtain rfl := he
    exact rfl
  | _ => exact he.elim

/-- it makes at most four requests: two for the order, one to announce it, and one to count how it ended -/
theorem task_within : ((Command.moveOrder c).task settings).plan.Within 4 := by
  intro x
  cases x with
  | value found =>
    cases found with
    | none => exact fun _ => trivial
    | some o =>
      change Plan.Within 3 (Plan.bind (Plan.bind (Plan.bind
        (if c.version.all (· == o.version) then _ else _ : Task (OrderStatus × Order)) _) _) _)
      cases c.version.all (· == o.version) with
      | false => exact fun _ => trivial
      | true =>
        change Plan.Within 3 (Plan.bind (Plan.bind (Plan.bind (Plan.bind
          (Task.ofOutcome OrderCommand.refusal (o.moveTo c.status)) _) _) _) _)
        cases o.moveTo c.status with
        | refused e => exact fun _ => trivial
        | fault f => trivial
        | ok moved =>
          intro x
          cases x with
          | value b =>
            intro sent
            cases sent with
            | true => exact fun _ => trivial
            | false => exact fun _ => trivial
          | failure f => exact fun _ => trivial
          | fault f => trivial
          | silence => trivial
  | failure f => exact fun _ => trivial
  | fault f => trivial
  | silence => trivial

/-! ## What the phases tell -/

theorem answers_answer (env : Surroundings) (r : Request) (s : Service) :
    (c.protocol v).answers r (Service.answer env r s).1 := by
  cases r with
  | get k i => exact ⟨_, rfl⟩
  | update k a =>
    intro h
    cases hu : (s.store.repo k).update a with
    | ok p => rw [Service.answer_update_of_ok hu] at h; cases h
    | refused f => rw [Service.answer_update_of_refused hu] at h; cases h
    | fault f => rw [Service.answer_update_of_fault hu] at h; cases h
  | _ => trivial

/-- a move asks for the order only when it arrives -/
theorem arriving_of_asks_get {ph : Phase} {k : Kind} {i : Id} (h : (c.protocol v).asks ph (.get k i)) : ph = .arriving := by
  cases ph with
  | arriving => rfl
  | holding o => cases h
  | written => obtain ⟨e, he⟩ | ⟨m, hm⟩ := h <;> contradiction
  | failed f =>
    obtain ⟨m, hm⟩ := h
    cases hm
  | faulted f =>
    obtain ⟨m, hm⟩ := h
    cases hm

/-- the write of the held copy is the only write it asks for -/
theorem quiet_or_holding_of_asks {ph : Phase} {r : Request} (h : (c.protocol v).asks ph r) :
    r.isWrite = false ∨ ∃ o : Order, ph = .holding o ∧ r = .update .order { o with status := c.status } := by
  cases ph with
  | arriving =>
    obtain rfl : r = _ := h
    exact .inl rfl
  | holding o => exact .inr ⟨o, rfl, h⟩
  | written =>
    left
    obtain ⟨e, rfl⟩ | ⟨m, rfl⟩ := h <;> rfl
  | failed f =>
    obtain ⟨m, rfl⟩ := h
    exact .inl rfl
  | faulted f =>
    obtain ⟨m, rfl⟩ := h
    exact .inl rfl

theorem judge_of_other (h : o.version ≠ v) : c.judge v o = .failed (.staleWrite c.orderId) := if_pos h

theorem judge_of_expected (h : o.version = v) :
    c.judge v o = if o.status.canMoveTo c.status then .holding o
      else .failed (.domain (OrderCommand.refusal (.noMove o.status c.status))) := if_neg (not_not.2 h)

theorem judge_eq_holding {o' : Order} (h : c.judge v o' = .holding o) :
    o' = o ∧ o.version = v ∧ o.status.canMoveTo c.status = true := by
  by_cases hversion : o'.version = v
  · rw [judge_of_expected hversion] at h
    split at h
    · obtain rfl := Phase.holding.inj h
      exact ⟨rfl, hversion, ‹_›⟩
    · cases h
  · rw [judge_of_other hversion] at h
    cases h

/-- a copy is held since it was loaded -/
theorem after_eq_holding {ph : Phase} {r : Request} {x : r.Reply} (h : (c.protocol v).after ph r x = .holding o) :
    ph = .holding o ∨ (⟨r, x⟩ : Answered) = ⟨.get .order c.orderId, .value (some o)⟩ ∧ c.judge v o = .holding o := by
  cases ph with
  | arriving =>
    right
    cases r with
    | get k i =>
      cases k with
      | order =>
        cases x with
        | value found =>
          cases found with
          | none => cases h
          | some o' =>
            change (if i = c.orderId then c.judge v o' else .arriving) = .holding o at h
            split at h
            · obtain ⟨rfl, -⟩ := judge_eq_holding h
              exact ⟨by rw [‹i = c.orderId›], h⟩
            · cases h
        | _ => cases h
      | _ => cases h
    | _ => cases h
  | holding o' =>
    left
    cases r with
    | update k a =>
      cases x with
      | silence => exact h
      | _ => cases h
    | _ => exact h
  | written => cases h
  | failed f => cases h
  | faulted f => cases h

theorem loaded_of_holding {log : List Exchange} (h : Sessions.phase (c.protocol v) n log = .holding o) :
    ⟨.get .order c.orderId, .value (some o)⟩ ∈ Sessions.own n log ∧ o.version = v ∧
      o.status.canMoveTo c.status = true := by
  induction log using List.reverseRecOn with
  | nil => cases h
  | append_singleton log e ih =>
    obtain ⟨m, r, x⟩ := e
    by_cases hm : m = n
    · subst hm
      rw [Sessions.phase_snoc_self] at h
      rw [Sessions.own_snoc_self]
      rcases after_eq_holding h with hbefore | ⟨hload, hjudge⟩
      · obtain ⟨hmem, hrest⟩ := ih hbefore
        exact ⟨List.mem_append_left _ hmem, hrest⟩
      · rw [hload]
        exact ⟨List.mem_append_right _ (List.mem_singleton.2 rfl), (judge_eq_holding hjudge).2⟩
    · rw [Sessions.phase_snoc_of_ne _ log hm] at h
      rw [Sessions.own_snoc_of_ne hm]
      exact ih h

/-- the stored order has the version `v` and may move; the moved one takes its place under the next version -/
def Moves (c : MoveOrder) (v : Int32) (s t : Store) : Prop :=
  ∃ (o : Order) (v' : Int32), s.orders.get? c.orderId = some o ∧ o.version = v ∧ o.status.canMoveTo c.status = true ∧
    v'.toInt = v.toInt + 1 ∧ t.orders.get? c.orderId = some { o with status := c.status, version := v' } ∧
    t = { s with orders := s.orders.replace { o with status := c.status, version := v' } }

end MoveOrder

namespace Service

open Sessions MoveOrder

variable {env : Surroundings} {settings : Settings} {s : Service} {plans : List (Plan (Ending CommandResult))} {n : Nat}
  {c : MoveOrder} {v : Int32} {o : Order} {schedule : List Nat} {f : Failure}

/-- however far a schedule has gone, a client can only end with `f`, and none of its turns has changed the store -/
structure Thwarts (env : Surroundings) (plans : List (Plan (Ending CommandResult))) (s : Service) (schedule : List Nat)
    (n : Nat) (f : Failure) : Prop where
  ends : ∀ e, ((Sessions.start plans s).interleave (answer env) schedule).Ended n e → e = .failure f
  quiet : ∀ front, front ++ [n] <+: schedule →
    (((Sessions.start plans s).interleave (answer env) front).turn (answer env) n).world.store =
      ((Sessions.start plans s).interleave (answer env) front).world.store

/-- the loaded copy is one of the order that was asked for -/
theorem id_of_load {pre since : List Exchange}
    (hlog : ((Sessions.start plans s).interleave (answer env) schedule).log =
      pre ++ ⟨n, .get .order c.orderId, .value (some o)⟩ :: since) : o.id = c.orderId := by
  obtain ⟨front, -, -, -, hx⟩ := cut_interleave hlog
  exact Repository.id_of_get? (Ending.value.inj hx).symm

section Move

variable (hplan : plans[n]? = some ((Command.moveOrder c).task settings).plan) (hversion : c.version = some v)

include hplan hversion

variable (env s) in
/-- the command keeps to its protocol wherever it stands -/
theorem stands_move (schedule : List Nat) :
    ∃ q, ((Sessions.start plans s).interleave (answer env) schedule).plans[n]? = some q ∧
      q.Keeps (c.protocol v) Ends (phase (c.protocol v) n ((Sessions.start plans s).interleave (answer env) schedule).log) :=
  keeps_interleave hplan (task_keeps hversion) (answers_answer env)

variable (env s) in
/-- a turn of the command leaves the store alone, or is its write -/
theorem turn_move (schedule : List Nat) :
    let run := (Sessions.start plans s).interleave (answer env) schedule
    (run.turn (answer env) n).world.store = run.world.store ∨
      c.Moves v run.world.store (run.turn (answer env) n).world.store ∧
        phase (c.protocol v) n (run.turn (answer env) n).log = .written := by
  intro run
  obtain ⟨q, hq, hkeeps⟩ := stands_move env s hplan hversion schedule
  change run.plans[n]? = some q at hq
  change q.Keeps (c.protocol v) Ends (phase (c.protocol v) n run.log) at hkeeps
  cases q with
  | done e =>
    left
    unfold turn
    rw [hq]
  | ask r next =>
    obtain hquiet | ⟨o, hph, rfl⟩ := quiet_or_holding_of_asks hkeeps.1
    · left
      rw [turn_of_ask hq]
      exact store_answer hquiet
    · cases hu : (run.world.store.repo .order).update ({ o with status := c.status } : Order) with
      | ok p =>
        right
        obtain ⟨b, r'⟩ := p
        obtain ⟨hload, hv, hallowed⟩ := loaded_of_holding hph
        obtain ⟨stored, v', hget, hcurrent, hnext, rfl, rfl⟩ := Repository.update_eq_ok hu
        have hstored := Repository.get?_of_update hu
        -- what is stored has the version of the copy, so it is the copy
        obtain ⟨pre, since, hlog⟩ := exists_of_mem_own hload
        have hid : Aggregate.id ({ o with status := c.status } : Order) = c.orderId := id_of_load (o := o) hlog
        rw [hid] at hget hstored
        obtain rfl : stored = o := eq_copy (k := .order) copiesDated hload hget hcurrent
        rw [turn_of_ask hq, answer_update_of_ok hu]
        refine ⟨⟨stored, v', hget, hv, hallowed, hv ▸ hnext, hstored, rfl⟩, ?_⟩
        rw [phase_snoc_self, hph]
        rfl
      | refused f =>
        left
        rw [turn_of_ask hq, answer_update_of_refused hu]
      | fault f =>
        left
        rw [turn_of_ask hq, answer_update_of_fault hu]

/-- a move that has failed, or still holds its copy, has changed nothing -/
theorem thwarts_of_phase
    (h : phase (c.protocol v) n ((Sessions.start plans s).interleave (answer env) schedule).log = .failed f ∨
      ∃ o, phase (c.protocol v) n ((Sessions.start plans s).interleave (answer env) schedule).log = .holding o) :
    Thwarts env plans s schedule n f where
  ends e he := by
    obtain ⟨q, hq, hkeeps⟩ := stands_move env s hplan hversion schedule
    obtain rfl : q = .done e := Option.some.inj (hq.symm.trans he)
    rcases h with hph | ⟨o, hph⟩
    · rw [hph] at hkeeps
      exact hkeeps
    · rw [hph] at hkeeps
      exact hkeeps.elim
  quiet front hfront := by
    rcases turn_move env s hplan hversion front with hsame | ⟨-, hwritten⟩
    · exact hsame
    · -- once written, always written
      rw [← interleave_snoc] at hwritten
      obtain ⟨more, hmore⟩ := log_prefix_interleave (answer env) (Sessions.start plans s) hfront
      have hlast : phase (c.protocol v) n ((Sessions.start plans s).interleave (answer env) schedule).log = .written := by
        rw [← hmore]
        exact phase_append_of_last (fun _ _ => rfl) hwritten more
      rcases h with hph | ⟨o, hph⟩ <;> cases hlast.symm.trans hph

/-- the load of the command tells how it goes on -/
theorem phase_of_load {pre since : List Exchange}
    (hlog : ((Sessions.start plans s).interleave (answer env) schedule).log =
      pre ++ ⟨n, .get .order c.orderId, .value (some o)⟩ :: since) :
    phase (c.protocol v) n (pre ++ [⟨n, .get .order c.orderId, .value (some o)⟩]) = c.judge v o := by
  obtain ⟨front, -, hpre, ⟨next, hnext⟩, -⟩ := cut_interleave hlog
  obtain ⟨q, hq, hkeeps⟩ := stands_move env s hplan hversion front
  obtain rfl := Option.some.inj (hnext.symm.trans hq)
  rw [hpre] at hkeeps
  rw [phase_snoc_self, arriving_of_asks_get hkeeps.1]
  exact if_pos rfl

/-- a copy that the command cannot use is the end of it -/
theorem thwarts_of_judge {pre since : List Exchange}
    (hlog : ((Sessions.start plans s).interleave (answer env) schedule).log =
      pre ++ ⟨n, .get .order c.orderId, .value (some o)⟩ :: since) (hjudge : c.judge v o = .failed f) :
    Thwarts env plans s schedule n f := by
  refine thwarts_of_phase hplan hversion (.inl ?_)
  have hload := phase_of_load hplan hversion hlog
  rw [List.append_cons] at hlog
  rw [hlog]
  exact phase_append_of_last (fun _ _ => rfl) (hload.trans hjudge) since

/-- after the load of a copy that it can use the command holds it until its next turn -/
theorem holding_of_load {pre mid : List Exchange} {front : List Nat}
    (hlog : ((Sessions.start plans s).interleave (answer env) front).log =
      pre ++ ⟨n, .get .order c.orderId, .value (some o)⟩ :: mid) (hjudge : c.judge v o = .holding o)
    (hmid : ∀ e ∈ mid, e.client ≠ n) :
    phase (c.protocol v) n ((Sessions.start plans s).interleave (answer env) front).log = .holding o ∧
      ∃ next, ((Sessions.start plans s).interleave (answer env) front).plans[n]? =
        some (.ask (.update .order ({ o with status := c.status } : Order)) next) := by
  have hload := phase_of_load hplan hversion hlog
  have hph : phase (c.protocol v) n ((Sessions.start plans s).interleave (answer env) front).log = .holding o := by
    rw [List.append_cons] at hlog
    rw [hlog, phase_append_of_others _ hmid, hload, hjudge]
  obtain ⟨q, hq, hkeeps⟩ := stands_move env s hplan hversion front
  rw [hph] at hkeeps
  refine ⟨hph, ?_⟩
  cases q with
  | done e => exact hkeeps.elim
  | ask r next =>
    obtain rfl : r = _ := hkeeps.1
    exact ⟨next, hq⟩

/-- a copy that was written over before the next turn of the command is the end of it too -/
theorem thwarts_of_overwritten {pre mid post : List Exchange}
    (hlog : ((Sessions.start plans s).interleave (answer env) schedule).log =
      pre ++ ⟨n, .get .order c.orderId, .value (some o)⟩ :: (mid ++ post)) (hjudge : c.judge v o = .holding o)
    (hmid : ∀ e ∈ mid, e.client ≠ n) (hwritten : writers .order c.orderId mid ≠ []) :
    Thwarts env plans s schedule n (.staleWrite c.orderId) := by
  refine thwarts_of_phase hplan hversion ?_
  cases hfind : post.find? (·.client == n) with
  | none =>
    -- the command has had no turn since
    right
    have hpost : ∀ e ∈ mid ++ post, e.client ≠ n := by
      intro e he
      rcases List.mem_append.1 he with he | he
      · exact hmid e he
      · simpa using List.find?_eq_none.1 hfind e he
    exact ⟨o, (holding_of_load hplan hversion hlog hjudge hpost).1⟩
  | some e =>
    left
    obtain ⟨he, before, after, rfl, hbefore⟩ := List.find?_eq_some_iff_append.1 hfind
    obtain ⟨m, r, x⟩ := e
    obtain rfl : m = n := by simpa using he
    have hothers : ∀ e ∈ mid ++ before, e.client ≠ m := by
      intro e he
      rcases List.mem_append.1 he with he | he
      · exact hmid e he
      · simpa using hbefore e he
    have hcut : ((Sessions.start plans s).interleave (answer env) schedule).log =
        (pre ++ ⟨m, .get .order c.orderId, .value (some o)⟩ :: (mid ++ before)) ++ ⟨m, r, x⟩ :: after := by
      rw [hlog]
      simp
    obtain ⟨front, -, hfront, ⟨next, hnext⟩, hx⟩ := cut_interleave hcut
    obtain ⟨hph, next', hnext'⟩ := holding_of_load hplan hversion hfront hjudge hothers
    obtain ⟨rfl, -⟩ := Plan.ask.inj (Option.some.inj (hnext.symm.trans hnext'))
    have hsince : Since .order c.orderId o (mid ++ before) ((Sessions.start plans s).interleave (answer env) front).world :=
      copiesDated _ _ _ _ _ _ hfront
    have hstill : writers .order c.orderId (mid ++ before) ≠ [] := by
      simp only [writers, List.filter_append, List.map_append, ne_eq, List.append_eq_nil_iff] at hwritten ⊢
      exact fun h => hwritten h.1
    obtain ⟨hstale, -⟩ := turn_of_written hsince hstill hnext (id_of_load (o := o) hfront) rfl
    rw [turn_of_ask hnext] at hstale
    obtain ⟨-, -, hreply⟩ := Exchange.mk.inj (List.singleton_inj.1 (List.append_cancel_left hstale))
    have hx : x = .failure (.staleWrite c.orderId) := hx.trans (eq_of_heq hreply)
    subst hx
    rw [hcut, List.append_cons, ← hfront]
    refine phase_append_of_last (fun _ _ => rfl) ?_ after
    rw [phase_snoc_self, hph]
    rfl

/-- a copy that nobody has written over is written in the next turn of the command -/
theorem moves_of_current {pre mid : List Exchange}
    (hlog : ((Sessions.start plans s).interleave (answer env) schedule).log =
      pre ++ ⟨n, .get .order c.orderId, .value (some o)⟩ :: mid) (hjudge : c.judge v o = .holding o)
    (hmid : ∀ e ∈ mid, e.client ≠ n) (hcurrent : writers .order c.orderId mid = [])
    (hroom : v.toInt < Int32.maxValue.toInt) :
    c.Moves v ((Sessions.start plans s).interleave (answer env) schedule).world.store
      (((Sessions.start plans s).interleave (answer env) schedule).turn (answer env) n).world.store := by
  obtain ⟨hph, next, hnext⟩ := holding_of_load hplan hversion hlog hjudge hmid
  obtain ⟨-, rfl, hallowed⟩ := judge_eq_holding hjudge
  have hsince : Since .order c.orderId o mid ((Sessions.start plans s).interleave (answer env) schedule).world :=
    copiesDated _ _ _ _ _ _ hlog
  have hget : ((Sessions.start plans s).interleave (answer env) schedule).world.store.orders.get? c.orderId = some o := by
    obtain ⟨t, hget, -, hcopy⟩ := hsince
    rwa [← hcopy hcurrent]
  obtain ⟨v', hv', -, hworld, hstored⟩ := turn_of_unwritten hsince hcurrent hnext (id_of_load (o := o) hlog) rfl hroom
  refine ⟨o, v', hget, rfl, hallowed, hv', hstored, ?_⟩
  rw [hworld]
  rfl

end Move

/-- **Guarded moves.** A command that moves an order under an expected version takes its turns among any number of other
clients, which may ask for anything. After four turns it is done. A turn of it leaves the store alone, or puts in the place
of an order that has the expected version and may move the same order with the new status and the next version. And once it
has loaded the order,
- it can only end with a stale write of that order, and changes nothing, if the copy has another version;
- it can only end with the refusal of the move, and changes nothing, if the copy has that version but may not move;
- else, if anybody writes the order before the next turn of the command, it can only end with a stale write of that order,
  and changes nothing; and if nobody does, that turn is the write. -/
theorem moves_guarded (env : Surroundings) (settings : Settings) (s : Service)
    {plans : List (Plan (Ending CommandResult))} {n : Nat} {c : MoveOrder} {v : Int32}
    (hplan : plans[n]? = some ((Command.moveOrder c).task settings).plan) (hversion : c.version = some v)
    (schedule : List Nat) :
    let run := (Sessions.start plans s).interleave (answer env) schedule
    (4 ≤ schedule.count n → ∃ e, run.Ended n e) ∧
    ((run.turn (answer env) n).world.store = run.world.store ∨
      c.Moves v run.world.store (run.turn (answer env) n).world.store) ∧
    ∀ pre o since, run.log = pre ++ ⟨n, .get .order c.orderId, .value (some o)⟩ :: since →
      (o.version ≠ v → Thwarts env plans s schedule n (.staleWrite c.orderId)) ∧
      (o.version = v → o.status.canMoveTo c.status = false →
        Thwarts env plans s schedule n (.domain (OrderCommand.refusal (.noMove o.status c.status)))) ∧
      (o.version = v → o.status.canMoveTo c.status = true →
        ∀ mid post, since = mid ++ post → (∀ e ∈ mid, e.client ≠ n) →
          (writers .order c.orderId mid ≠ [] → Thwarts env plans s schedule n (.staleWrite c.orderId)) ∧
          (writers .order c.orderId mid = [] → post = [] → v.toInt < Int32.maxValue.toInt →
            c.Moves v run.world.store (run.turn (answer env) n).world.store)) := by
  intro run
  refine ⟨ended_interleave task_within hplan, (turn_move env s hplan hversion schedule).imp_right And.left, ?_⟩
  intro pre o since hlog
  refine ⟨fun hother => ?_, fun hexpected hforbidden => ?_, fun hexpected hallowed mid post hsince hmid => ?_⟩
  · exact thwarts_of_judge hplan hversion hlog (judge_of_other hother)
  · refine thwarts_of_judge hplan hversion hlog ?_
    rw [judge_of_expected hexpected, if_neg (by simp [hforbidden])]
  · subst hsince
    have hjudge : c.judge v o = .holding o := by rw [judge_of_expected hexpected, if_pos hallowed]
    refine ⟨thwarts_of_overwritten hplan hversion hlog hjudge hmid, fun hcurrent hpost hroom => ?_⟩
    subst hpost
    rw [List.append_nil] at hlog
    exact moves_of_current hplan hversion hlog hjudge hmid hcurrent hroom

/-- an order that was changed twice and waits to be confirmed -/
def waiting : Order := ⟨.ofNat 1, "ORD-1", .ofNat 2, .epoch, .pending, [], .zero, none, 3⟩

def waitingRoom : Service := { start with store := { Store.empty with orders := ⟨[waiting], []⟩ } }

/-- one client confirms the order, another one cancels it, and a third one expects an older version of it -/
def rivals : List (Plan (Ending CommandResult)) :=
  [MoveOrder.mk (.ofNat 1) .confirmed (some 3), ⟨.ofNat 1, .cancelled, some 3⟩, ⟨.ofNat 1, .confirmed, some 2⟩].map
    fun c => ((Command.moveOrder c).task .standard).plan

/-- the order is cancelled between the load of the first client and its write, and neither it nor the third one moves it -/
theorem moves_guarded_rivals :
    let schedule := [0, 1, 2, 1, 0, 1, 1, 2, 0, 0, 2, 2]
    let run := (Sessions.start rivals waitingRoom).interleave (answer .standstill) schedule
    (∃ e, run.Ended 0 e) ∧ Thwarts .standstill rivals waitingRoom schedule 0 (.staleWrite (.ofNat 1)) ∧
      Thwarts .standstill rivals waitingRoom schedule 2 (.staleWrite (.ofNat 1)) := by
  intro schedule run
  have hfirst : rivals[0]? = some ((Command.moveOrder ⟨.ofNat 1, .confirmed, some 3⟩).task .standard).plan := rfl
  have hthird : rivals[2]? = some ((Command.moveOrder ⟨.ofNat 1, .confirmed, some 2⟩).task .standard).plan := rfl
  obtain ⟨hends, -, hload⟩ := moves_guarded .standstill .standard waitingRoom hfirst rfl schedule
  obtain ⟨-, -, hload'⟩ := moves_guarded .standstill .standard waitingRoom hthird rfl schedule
  refine ⟨hends (by decide), ?_, ?_⟩
  · obtain ⟨-, -, hallowed⟩ := hload [] waiting (run.log.drop 1) rfl
    obtain ⟨hovertaken, -⟩ := hallowed rfl rfl ((run.log.drop 1).take 3) ((run.log.drop 1).drop 3) rfl (by decide)
    exact hovertaken (by decide)
  · obtain ⟨hother, -⟩ := hload' (run.log.take 2) waiting (run.log.drop 3) rfl
    exact hother (by decide)

end Service

end Brigade
