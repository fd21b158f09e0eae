/-
What is replied to the two commands that add periods and sets, and to the query for the set of a user.

Both commands end in an add whose failures they put in their own words, and in an announcement that can fail in one way
only (`addAnnounced_fails_iff`). So a command on input that passes its checks fails as the repository of its kind does
(`addGoalPeriod_fails_iff`, `createGoalSet_fails_iff`), but for the set of a year without a period. The query reads twice
and changes nothing (`queryIn_goalSet`).
-/
import Brigade.Proofs.Listing
import Brigade.Proofs.Repository

namespace Brigade

variable {α β σ : Type} {w : World σ} {e : Failure}

/-! ## Running tasks -/

namespace Task

theorem run_bind (t : Task α) (k : α → Task β) (s : σ) :
    (t >>= k).plan.run w s =
      match t.plan.run w s with
      | (.value a, s') => (k a).plan.run w s'
      | (.failure f, s') => (.failure f, s')
      | (.fault f, s') => (.fault f, s')
      | (.silence, s') => (.silence, s') := by
  refine (Plan.run_bind w t _ s).trans ?_
  generalize hx : t.plan.run w s = x
  change Plan.run w t s = x at hx
  rw [hx]
  obtain ⟨x, s'⟩ := x
  cases x <;> rfl

theorem run_mapFailure (g : Failure → Failure) (t : Task α) (s : σ) :
    (mapFailure g t).plan.run w s =
      match t.plan.run w s with
      | (.failure f, s') => (.failure (g f), s')
      | x => x := by
  refine (Plan.run_bind w t _ s).trans ?_
  generalize hx : t.plan.run w s = x
  change Plan.run w t s = x at hx
  rw [hx]
  obtain ⟨x, s'⟩ := x
  cases x <;> rfl

/-- counting changes nothing about how a task ends -/
theorem run_counted (metrics : Ending α → List Metric) (t : Task α) (s : σ) :
    ((counted metrics t).plan.run w s).1 = (t.plan.run w s).1 := by
  refine (congrArg Prod.fst (Plan.run_bind w t _ s)).trans ?_
  rw [Plan.run_bind]
  rfl

/-- a task fails as it did before its value was put under a constructor -/
theorem run_giving_fails_iff {f : α → β} {t : Task α} {s : σ} :
    ((t.giving f).plan.run w s).1 = .failure e ↔ (t.plan.run w s).1 = .failure e := by
  unfold giving
  rw [run_bind]
  generalize t.plan.run w s = x
  obtain ⟨x, s'⟩ := x
  cases x with
  | value a =>
    change Ending.value (f a) = .failure e ↔ Ending.value a = .failure e
    simp
  | _ => simp

end Task

/-! ## Failures of an add -/

namespace Repository

variable [Aggregate α] {r : Repository α} {a : α}

/-- an add fails in a command's words because its key is taken, if the command keeps the kinds of failures -/
theorem add_reworded_iff {reword : Failure → Failure} (hreword : ∀ f, (reword f).kind = f.kind) :
    (∃ m f, (r.add a).1 = .error f ∧ .alreadyExists m = reword f) ↔
      ∃ key, Aggregate.key a = some key ∧ key ∈ r.claimed := by
  rw [← add_alreadyExists_iff]
  constructor
  · rintro ⟨m, f, hf, heq⟩
    have hkind := hreword f
    rw [← heq] at hkind
    cases f with
    | alreadyExists m => exact ⟨m, hf⟩
    | _ => cases hkind
  · rintro ⟨m, hm⟩
    have hkind := hreword (.alreadyExists m)
    cases heq : reword (.alreadyExists m) with
    | alreadyExists m' => exact ⟨m', _, hm, heq.symm⟩
    | _ => rw [heq] at hkind; cases hkind

/-- under an unused identity an add fails only because its key is taken -/
theorem kind_of_add_error {f : Failure} (hunused : r.get? (Aggregate.id a) = none) (h : (r.add a).1 = .error f) :
    f.kind = .alreadyExists := by
  generalize hx : r.add a = x at h
  cases hx ▸ add_case r a with
  | keyTaken key hkey taken =>
    obtain rfl := Except.error.inj h
    rfl
  | idTaken free stored =>
    rw [hunused] at stored
    cases stored
  | stored free unused => cases h

end Repository

theorem AddGoalPeriod.kind_reword (c : AddGoalPeriod) (f : Failure) : (c.reword f).kind = f.kind := by
  cases f <;> rfl

theorem CreateGoalSet.kind_reword (c : CreateGoalSet) (f : Failure) : (c.reword f).kind = f.kind := by
  cases f <;> rfl

/-! ## Adding and announcing -/

section Adding

variable {l : Listing} {env : Surroundings} {s : Service} {k : Kind} {a : k.Member}

theorem run_add :
    ((Task.add k a).plan.run (Service.answerIn l env) s).1 =
      match ((s.store.repo k).add a).1 with
      | .ok _ => .value a
      | .error f => .failure f := by
  change (Service.answer env (.add k a) s).1 = _
  simp only [Service.answer]
  generalize (s.store.repo k).add a = x
  obtain ⟨r | r, r'⟩ := x <;> rfl

/-- an announcement fails only because nobody listens -/
theorem announced_fails {event : Event} {b : β}
    (h : ((GoalCommand.announce event >>= fun _ => pure b : Task β).plan.run (Service.answerIn l env) s).1 =
      .failure e) : e.kind = .event := by
  obtain ⟨m, hm⟩ : ∃ m, ((GoalCommand.announce event).plan.run (Service.answerIn l env) s).1 =
      if s.channelOpen then .value () else .failure (.event m) := by
    refine ⟨"Failed to send goal event: " ++ Task.channelClosed, ?_⟩
    have hheard : (Service.answer env (.publish event) s).1 = s.channelOpen := Service.answer_publish event
    rw [← hheard]
    rfl
  rw [Task.run_bind] at h
  generalize (GoalCommand.announce event).plan.run (Service.answerIn l env) s = x at h hm
  obtain ⟨x, s'⟩ := x
  obtain rfl : x = _ := hm
  cases hs : s.channelOpen with
  | true =>
    rw [hs] at h
    change Ending.value b = .failure e at h
    cases h
  | false =>
    rw [hs] at h
    rw [← Ending.failure.inj h]
    rfl

/-- an add that is announced fails as the repository fails, in the words of the command, or because nobody listens -/
theorem addAnnounced_fails_iff {reword : Failure → Failure} {event : k.Member → Event} {result : k.Member → β}
    (he : e.kind ≠ .event) :
    ((Task.mapFailure reword (Task.add k a) >>= fun b => GoalCommand.announce (event b) >>= fun _ =>
        pure (result b)).plan.run (Service.answerIn l env) s).1 = .failure e ↔
      ∃ f, ((s.store.repo k).add a).1 = .error f ∧ e = reword f := by
  have hadd := @run_add l env s k a
  rw [Task.run_bind, Task.run_mapFailure]
  generalize (Task.add k a).plan.run (Service.answerIn l env) s = x at hadd
  obtain ⟨x, s'⟩ := x
  generalize ((s.store.repo k).add a).1 = y at hadd
  cases y with
  | error f =>
    obtain rfl : x = .failure f := hadd
    constructor
    · intro h
      exact ⟨f, rfl, (Ending.failure.inj h).symm⟩
    · rintro ⟨f', hf', rfl⟩
      obtain rfl := Except.error.inj hf'
      rfl
  | ok u =>
    obtain rfl : x = .value a := hadd
    refine ⟨fun h => absurd (announced_fails h) he, fun ⟨f, hf, _⟩ => nomatch hf⟩

theorem run_freshId {cont : Id → Task β} :
    (Task.freshId >>= cont).plan.run (Service.answerIn l env) s =
      (cont (env.ids s.idsDrawn)).plan.run (Service.answerIn l env) { s with idsDrawn := s.idsDrawn + 1 } := rfl

theorem run_list {cont : List k.Member → Task β} :
    (Task.list k >>= cont).plan.run (Service.answerIn l env) s =
      (cont (l.list k (s.store.repo k).items)).plan.run (Service.answerIn l env) s := rfl

theorem run_ofOutcome {ε : Type} {refusal : ε → Refusal} {x : Outcome ε α} {b : α} (h : x = .ok b) {cont : α → Task β}
    {t : σ} : (Task.ofOutcome refusal x >>= cont).plan.run w t = (cont b).plan.run w t := by
  subst h
  rfl

/-! ## Input that passes its checks -/

/-- a command goes on after its checks if there are no complaints -/
theorem run_unless {cs : List Complaint} (h : cs = []) {cont : Unit → Task β} {s : σ} :
    (Task.unless? (Validation.failure? cs) >>= cont).plan.run w s = (cont ()).plan.run w s := by
  subst h
  rfl

theorem Int32.not_le_zero {n : Int32} (h : 1 ≤ n) : ¬n ≤ 0 := by
  rw [Int32.le_iff_toInt_le] at h ⊢
  have hone : (1 : Int32).toInt = 1 := rfl
  have hzero : (0 : Int32).toInt = 0 := rfl
  omega

theorem GoalPeriod.create_of_valid {c : AddGoalPeriod} (h : c.complaints = []) (i : Id) :
    GoalPeriod.create i c.teamId c.year = .ok ⟨i, c.teamId, c.year, 1⟩ := by
  obtain ⟨hteam, hyear⟩ := List.append_eq_nil_iff.1 h
  have hteam : 1 ≤ c.teamId := by simpa using Validation.check_eq_nil.1 hteam
  have hyear : 2000 ≤ c.year ∧ c.year ≤ 2100 := by simpa using Validation.check_eq_nil.1 hyear
  have hproblems : GoalPeriod.problems c.teamId c.year = [] := by
    unfold GoalPeriod.problems
    rw [if_neg (Int32.not_le_zero hteam)]
    exact if_pos hyear
  simp only [GoalPeriod.create, hproblems]

theorem GoalSet.create_of_valid {c : CreateGoalSet} (h : c.complaints = []) (i p : Id) :
    GoalSet.create i c.teamId p c.userId = .ok ⟨i, c.teamId, p, c.userId, none, [], 1⟩ := by
  obtain ⟨hteam, huser⟩ := List.append_eq_nil_iff.1 h
  have hteam : 1 ≤ c.teamId := by simpa using Validation.check_eq_nil.1 hteam
  have huser : 1 ≤ c.userId := by simpa using Validation.check_eq_nil.1 huser
  have hproblems : GoalSet.problems c.teamId c.userId = [] := by
    unfold GoalSet.problems
    rw [if_neg (Int32.not_le_zero hteam), if_neg (Int32.not_le_zero huser)]
    rfl
  simp only [GoalSet.create, hproblems]

/-! ## The commands -/

/-- opening a period fails as adding it fails -/
theorem addGoalPeriod_fails_iff {c : AddGoalPeriod} (h : c.complaints = []) (settings : Settings)
    (he : e.kind ≠ .event) :
    (s.executeIn l env settings (.addGoalPeriod c)).1 = .failure e ↔
      ∃ f, (s.store.goalPeriods.add ⟨env.ids s.idsDrawn, c.teamId, c.year, 1⟩).1 = .error f ∧ e = c.reword f := by
  change ((c.task.giving CommandResult.period).plan.run (Service.answerIn l env) s).1 = _ ↔ _
  rw [Task.run_giving_fails_iff, AddGoalPeriod.task, GoalCommand.recorded, Task.run_counted, AddGoalPeriod.body,
    run_unless h, run_freshId, run_ofOutcome (GoalPeriod.create_of_valid h _)]
  exact addAnnounced_fails_iff (k := .goalPeriod) he

/-- creating a set fails if there is no period of the year, and otherwise as adding it fails -/
theorem createGoalSet_fails_iff {c : CreateGoalSet} (h : c.complaints = []) (settings : Settings)
    (he : e.kind ≠ .event) :
    (s.executeIn l env settings (.createGoalSet c)).1 = .failure e ↔
      match (l.list .goalPeriod s.store.goalPeriods.items).find? fun p => GoalPeriod.isFor p c.teamId c.year with
      | none => e = c.noPeriod
      | some p =>
        ∃ f, (s.store.goalSets.add ⟨env.ids s.idsDrawn, c.teamId, p.id, c.userId, none, [], 1⟩).1 = .error f ∧
          e = c.reword f := by
  change ((c.task.giving CommandResult.goalSet).plan.run (Service.answerIn l env) s).1 = _ ↔ _
  rw [Task.run_giving_fails_iff, CreateGoalSet.task, GoalCommand.recorded, Task.run_counted, CreateGoalSet.body,
    run_unless h, run_list]
  change ((Task.orFail c.noPeriod ((l.list .goalPeriod s.store.goalPeriods.items).find? fun p =>
    GoalPeriod.isFor p c.teamId c.year) >>= _).plan.run (Service.answerIn l env) s).1 = _ ↔ _
  cases (l.list .goalPeriod s.store.goalPeriods.items).find? fun p => GoalPeriod.isFor p c.teamId c.year with
  | none =>
    change Ending.failure c.noPeriod = .failure e ↔ e = c.noPeriod
    rw [Ending.failure.injEq, eq_comm]
  | some p =>
    change ((Task.freshId >>= _).plan.run (Service.answerIn l env) s).1 = _ ↔ _
    rw [run_freshId, run_ofOutcome (GoalSet.create_of_valid h _ _)]
    exact addAnnounced_fails_iff (k := .goalSet) he

/-- the query for the set of a user, in any arrangement of what is stored -/
theorem queryIn_goalSet (t y u : Int32) :
    s.queryIn l env (.goalSet t y u) =
      (.value (.goalSet (((l.list .goalPeriod s.store.goalPeriods.items).find? fun p => GoalPeriod.isFor p t y).bind
        fun p => (l.list .goalSet s.store.goalSets.items).find? fun (g : GoalSet) =>
          g.teamId == t && g.periodId == p.id && g.userId == u)), s) := by
  change ((Task.list .goalPeriod >>= _ : Task QueryResult).plan.run (Service.answerIn l env) s) = _
  rw [run_list]
  change (Task.plan (match (l.list .goalPeriod s.store.goalPeriods.items).find? fun p => GoalPeriod.isFor p t y with
    | none => _
    | some p => _)).run (Service.answerIn l env) s = _
  cases (l.list .goalPeriod s.store.goalPeriods.items).find? fun p => GoalPeriod.isFor p t y with
  | none => rfl
  | some p => rfl

end Adding

end Brigade
