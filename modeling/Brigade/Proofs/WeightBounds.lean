/-
The weights of a set can be added, as long as it does not have more than 21474836 goals.

A goal set accepts every weight; only commands look at it, and let weights from 1 to 100 pass. So the goals of a set that
was created in a run of commands weigh from 1 to 100 each (`Moderate`), and all of them together at most 100 times their
number. Up to 21474836 goals that is a 32-bit number, and so is every sum on the way, the sum without one of the goals,
and that sum with a new weight in its place (`Moderate.summable`, `Moderate.weighable`).
- `weights_bounded`: so no operation on such a set faults, and a command on it faults at most because the set already has
  the last version there is. After a new definition of a goal the set weighs at most 100.
-/
import Brigade.Proofs.GoalRedefinition
import Brigade.Proofs.OverweightSets

namespace Brigade

namespace GoalSet

variable {s t : GoalSet} {o : Op} {i : Id} {percentage : Int32}

/-! ## Bounds -/

/-- every goal weighs at least 1 and at most 100 -/
def Moderate (s : GoalSet) : Prop := ∀ g ∈ s.goals, 1 ≤ g.percentage.toInt ∧ g.percentage.toInt ≤ 100

theorem Moderate.of_definitions (hs : s.Moderate) (h : t.definitions = s.definitions) : t.Moderate := by
  intro g hg
  obtain ⟨g', hg', heq⟩ := mem_of_definitions h hg
  exact heq ▸ hs g' hg'

theorem Moderate.change (hs : s.Moderate) (h : Change s o t) (ho : o.Weighed) : t.Moderate := by
  cases h with
  | added i title type value percentage editable =>
    intro g hg
    rcases List.mem_append.1 hg with hg | hg
    · exact hs g hg
    · obtain rfl := List.mem_singleton.1 hg
      exact ho
  | redefined i title type valueType percentage g value editable =>
    intro g' hg'
    rcases mem_updateFirst hg' with hg' | ⟨g', -, rfl⟩
    · exact hs g' hg'
    · exact ho
  | submitted i actual comment g found => exact hs.of_definitions (definitions_changeGoal fun _ => rfl)
  | progressApproved i g p found there => exact hs.of_definitions (definitions_changeGoal fun _ => rfl)
  | progressRejected i g p found there => exact hs.of_definitions (definitions_changeGoal fun _ => rfl)
  | sent ready full => exact hs
  | approved u waiting => exact hs
  | returned u waiting => exact hs

theorem kept_moderate : Kept Moderate where
  blank s h g hg := by
    rw [h.2] at hg
    cases hg
  change _ _ _ hs h ho := hs.change h ho
  version _ _ h := h

/-- weights from 1 to 100 add up to no less than their number and no more than 100 times it -/
theorem sum_between {xs : List Int32} (h : ∀ x ∈ xs, 1 ≤ x.toInt ∧ x.toInt ≤ 100) :
    (xs.length : Int) ≤ (xs.map Int32.toInt).sum ∧ (xs.map Int32.toInt).sum ≤ 100 * xs.length := by
  constructor
  · have := List.card_nsmul_le_sum (xs.map Int32.toInt) 1 (by simpa using fun x hx => (h x hx).1)
    simpa using this
  · have := List.sum_le_card_nsmul (xs.map Int32.toInt) 100 (by simpa using fun x hx => (h x hx).2)
    simpa [mul_comm] using this

theorem Moderate.percentages (hs : s.Moderate) : ∀ x ∈ s.goals.map (·.percentage), 1 ≤ x.toInt ∧ x.toInt ≤ 100 := by
  intro x hx
  obtain ⟨g, hg, rfl⟩ := List.mem_map.1 hx
  exact hs g hg

theorem Moderate.weight_between (hs : s.Moderate) :
    (s.goals.length : Int) ≤ s.weight ∧ s.weight ≤ 100 * s.goals.length := by
  have h := sum_between hs.percentages
  rwa [List.map_map, List.length_map] at h

/-! ## Sums that fit -/

theorem fits_of_between {n : Int} (hmin : 0 ≤ n) (hmax : n ≤ 2147483600) : Word.Fits n := by
  have hleast : Int32.minValue.toInt = -2147483648 := rfl
  have hlast : Int32.maxValue.toInt = 2147483647 := rfl
  exact ⟨by omega, by omega⟩

/-- every sum on the way is one of weights from 1 to 100, no more of them than goals -/
theorem Moderate.summable (hs : s.Moderate) (hfew : s.goals.length ≤ 21474836) : s.Summable := by
  intro ps hps
  have hfront := (List.mem_inits _ _).1 hps
  have hlength : ps.length ≤ s.goals.length := by simpa using hfront.length_le
  obtain ⟨hmin, hmax⟩ := sum_between fun x hx => hs.percentages x (hfront.subset hx)
  exact fits_of_between (by omega) (by omega)

/-- without one of its goals a set weighs at most 100 less than 100 times their number -/
theorem Moderate.others_between (hs : s.Moderate) {g : Goal} (hg : g ∈ s.goals) :
    0 ≤ s.weight - g.percentage.toInt ∧ s.weight - g.percentage.toInt ≤ 100 * s.goals.length - 100 := by
  obtain ⟨pre, post, hgoals⟩ := List.append_of_mem hg
  have hothers : ({ s with goals := pre ++ post } : GoalSet).Moderate := by
    intro g' hg'
    refine hs g' ?_
    rw [hgoals]
    rcases List.mem_append.1 hg' with hg' | hg'
    · exact List.mem_append_left _ hg'
    · exact List.mem_append_right _ (List.mem_cons_of_mem _ hg')
  have hweight : s.weight - g.percentage.toInt = ({ s with goals := pre ++ post } : GoalSet).weight := by
    simp only [weight, hgoals, List.map_append, List.map_cons, List.sum_append, List.sum_cons]
    ring
  have hlength : (s.goals.length : Int) = (pre ++ post).length + 1 := by
    simp [hgoals, add_assoc]
  obtain ⟨hmin, hmax⟩ := hothers.weight_between
  rw [hweight, hlength]
  change ((pre ++ post).length : Int) ≤ _ at hmin
  change _ ≤ 100 * ((pre ++ post).length : Int) at hmax
  exact ⟨by omega, by omega⟩

theorem Moderate.weighable (hs : s.Moderate) (hfew : s.goals.length ≤ 21474836) (i : Id)
    (hp : 1 ≤ percentage.toInt ∧ percentage.toInt ≤ 100) : s.Weighable i percentage := by
  refine ⟨hs.summable hfew, fun g hg _ => ?_⟩
  obtain ⟨hmin, hmax⟩ := hs.others_between hg
  exact ⟨fits_of_between (by omega) (by omega), fits_of_between (by omega) (by omega)⟩

/-! ## No operation faults -/

theorem updateGoal_ne_fault (hw : s.Weighable i percentage) (title : String) (type : GoalType) (valueType : GoalValueType)
    (f : Fault) : s.updateGoal i title type valueType percentage ≠ .fault f := by
  cases he : s.isEditable with
  | false => simp [updateGoal, he]
  | true =>
    cases hfound : s.goal? i with
    | none => simp [updateGoal, he, hfound]
    | some g =>
      obtain ⟨hg, hi⟩ := mem_of_goal? hfound
      obtain ⟨w, hw, -⟩ := hw.reweighed hg hi
      by_cases hroom : w ≤ 100
      · rw [updateGoal_eq title type valueType he hfound hw hroom]
        cases ({ g.value with type := valueType } : GoalValue).violated? <;> simp
      · rw [updateGoal_of_heavy title type valueType he hfound hw (Int32.not_le.1 hroom)]
        simp

theorem sendToApproval_ne_fault (hs : s.Summable) (f : Fault) : s.sendToApproval ≠ .fault f := by
  obtain ⟨w, hw, -⟩ := hs.totalPercentage (ε := GoalSetError)
  unfold sendToApproval
  rw [hw, Outcome.ok_bind]
  split_ifs <;> simp

theorem reviewProgress_ne_fault (decision : ProgressStatus) (f : Fault) : s.reviewProgress i decision ≠ .fault f := by
  unfold reviewProgress
  cases s.goal? i with
  | none => simp
  | some g => cases hp : g.progress <;> simp [hp]

/-- the weights of a set can be added, so nothing that is asked of it faults -/
theorem Moderate.apply_ne_fault (hs : s.Moderate) (hfew : s.goals.length ≤ 21474836) (ho : o.Weighed) (f : Fault) :
    s.apply o ≠ .fault f := by
  cases o with
  | addGoal i title type value percentage =>
    simp only [apply, addGoal]
    split_ifs <;> simp
  | updateGoal i title type valueType percentage => exact updateGoal_ne_fault (hs.weighable hfew i ho) title type valueType f
  | submitProgress i actual comment =>
    simp only [apply, submitProgress]
    cases s.goal? i <;> simp
  | approveProgress i => exact reviewProgress_ne_fault .approved f
  | rejectProgress i => exact reviewProgress_ne_fault .rejected f
  | sendToApproval => exact sendToApproval_ne_fault (hs.summable hfew) f
  | approve u =>
    simp only [apply, approve]
    split_ifs <;> simp
  | reject u =>
    simp only [apply, reject]
    split_ifs <;> simp

end GoalSet

/-! ## No command faults, but for the version -/

namespace Solo

variable {α β : Type} {w : Solo} {ph : Phase} {d : Drawn} {s : GoalSet} {i : Id}

/-- a task on the set `s` ends in a fault only if `s` has the last version there is -/
def FaultsLast (s : GoalSet) : Ending α → Prop
  | .fault _ => s.version = Int32.maxValue
  | _ => True

/-- the set is fetched and written; a transition that does not fault leaves the fault to the write -/
theorem modify_faultsLast {p : RetryPolicy} {transition : GoalSet → Task (GoalSet × α)} {event : GoalSet × α → Event}
    (hget : (w.repo .goalSet).get? i = some s) (ht : Transition w transition event)
    (hsafe : (transition s).plan.Keeps w.protocol (fun _ x => ∀ f, x ≠ .fault f) (.preparing d)) :
    (GoalCommand.modify p i transition).plan.Keeps w.protocol
      (fun ph x => WriteEnds event ph x ∧ FaultsLast s x) (.preparing d) := by
  have honce : (GoalCommand.modifyOnce i transition).plan.Keeps w.protocol
      (fun ph x => (WriteEnds event ph x ∧ FaultsLast s x) ∧ Lasting x) (.preparing d) := by
    refine fetch_keeps (k := .goalSet) ⟨⟨⟨FailureKind.noConfusion, d, rfl⟩, trivial⟩, rfl⟩ fun s' hs' => ?_
    obtain rfl := Option.some.inj (hget.symm.trans hs')
    refine Task.keeps_bind.2 (((ht s d).and hsafe).mono fun ph x hx => ?_)
    obtain ⟨hgives, hx⟩ := hx
    cases x with
    | value x =>
      obtain ⟨⟨d', rfl⟩, op, hop, he⟩ := hgives
      refine update_keeps op hget hop (fun b hb hgranted => ?_) fun f hf => ?_
      · exact ⟨⟨⟨_, rfl, op, hgranted, he b⟩, trivial⟩, trivial⟩
      · exact ⟨⟨⟨d', rfl⟩, hop.version_eq.symm.trans (Repository.update_eq_fault hf)⟩, trivial⟩
    | failure f =>
      obtain ⟨hkind, hretry, hph⟩ := hgives
      exact ⟨⟨⟨hkind, hph⟩, trivial⟩, hretry⟩
    | fault f => exact absurd rfl (hx f)
    | silence => exact hgives.elim
  have hlasting := Retry.concurrent_keeps_once (p := p) (i := i) ⟨trivial, fun _ => rfl⟩ honce (fun _ _ h => h.2)
    (fun _ h => h.1.1) fun _ => ⟨⟨⟨FailureKind.noConfusion, d, rfl⟩, trivial⟩, rfl⟩
  exact Plan.Keeps.mono hlasting fun _ _ h => h.1

/-- announcing the change does not fault -/
theorem change_faultsLast {p : RetryPolicy} {transition : GoalSet → Task (GoalSet × α)} {event : GoalSet × α → Event}
    {result : GoalSet × α → β} (hget : (w.repo .goalSet).get? i = some s) (ht : Transition w transition event)
    (hsafe : (transition s).plan.Keeps w.protocol (fun _ x => ∀ f, x ≠ .fault f) (.preparing d)) :
    (GoalCommand.change p i transition event result).plan.Keeps w.protocol (fun _ => FaultsLast s) (.preparing d) := by
  refine Task.keeps_bind.2 ((modify_faultsLast hget ht hsafe).mono fun ph x hx => ?_)
  cases x with
  | value x =>
    obtain ⟨⟨u, rfl, hu⟩, -⟩ := hx
    exact Task.keeps_bind.2 (publish_keeps hu trivial fun _ => trivial)
  | failure f => trivial
  | fault f => exact hx.2
  | silence => trivial

theorem ofOutcome_ne_fault {ε : Type} {refusal : ε → Refusal} {x : Outcome ε GoalSet} {give : GoalSet → GoalSet × α}
    (h : ∀ f, x ≠ .fault f) :
    (Task.ofOutcome refusal x >>= fun t => pure (give t)).plan.Keeps w.protocol (fun _ x => ∀ f, x ≠ .fault f) ph :=
  Task.keeps_bind.2 (Task.keeps_ofOutcome.2 ⟨fun _ _ => nofun, fun _ _ => nofun, fun f hf => absurd hf (h f)⟩)

theorem changes_faultsLast {p : RetryPolicy} {t : Task β} (hc : w.command.Changes p i t)
    (hget : (w.repo .goalSet).get? i = some s) (h : ∀ j o f, w.command.op? j = some o → s.apply o ≠ .fault f) :
    t.plan.Keeps w.protocol (fun _ => FaultsLast s) (.preparing d) := by
  cases hc with
  | operation op asked told =>
    exact change_faultsLast hget (plain_transition told) (ofOutcome_ne_fault fun f => h (.ofNat 0) op f (asked _))
  | addition a v asked =>
    exact change_faultsLast hget (addGoal_transition a v)
      (freshId_keeps fun j => ofOutcome_ne_fault fun f => h j _ f (asked j))
  | outOfRange r => trivial

theorem counting_faultsLast {c : GoalCommandName} {f : α → β} {t : Task α}
    (h : t.plan.Keeps w.protocol (fun _ => FaultsLast s) ph) :
    ((GoalCommand.recorded c t).giving f).plan.Keeps w.protocol (fun _ => FaultsLast s) ph := by
  refine Task.keeps_bind.2 (Plan.Keeps.mono (Task.counted_keeps h) fun ph e he => ?_)
  cases e with
  | fault f => exact he
  | _ => trivial

/-- a command on a set that no operation makes fault -/
theorem task_faultsLast (hset : w.command.goalSet? = some i) (hget : (w.repo .goalSet).get? i = some s)
    (h : ∀ o f, o.Weighed → s.apply o ≠ .fault f) :
    (w.command.task w.settings).plan.Keeps w.protocol (fun _ => FaultsLast s) w.protocol.first := by
  obtain ⟨n, γ, t, f, htask, hchanges⟩ := Command.task_of_goalSet hset w.settings
  rw [htask]
  refine counting_faultsLast (Task.checked_keeps (fun m => trivial) fun hcomplaints => ?_)
  exact changes_faultsLast hchanges hget fun j o f ho => h o f (Command.weighed_of_op? hcomplaints ho)

end Solo

/-! ## Sets that were created in a run -/

/-- after a new definition of one of its goals a set weighs at most 100 -/
theorem SetWrite.weight_updateGoal {u : UpdateGoal} {before after : Repository GoalSet}
    (h : SetWrite (.updateGoal u) before after) : ∃ t, after.get? u.goalSetId = some t ∧ t.weight ≤ 100 := by
  cases h with
  | added new opens => cases opens
  | changed old new op set asked weighed found granted stored others =>
    obtain ⟨i, hop⟩ := asked
    obtain rfl := Option.some.inj hop
    have hid : u.goalSetId = old.id := Option.some.inj set
    refine ⟨new, hid ▸ stored, ?_⟩
    change ({ new with version := old.version } : GoalSet).weight ≤ 100
    generalize ({ new with version := old.version } : GoalSet) = t at granted
    cases GoalSet.change_of_apply granted with
    | redefined i title type valueType percentage g value editable found room fits =>
      obtain ⟨pre, post, hgoals, hchange⟩ := GoalSet.changeGoal_split (fun g =>
        { g with title := u.title, type := u.type, value := value, percentage := u.percentage }) found
      rw [hchange, GoalSet.weight_replaced hgoals]
      exact room

namespace Service

variable {start : Service} {i : Id} {s : GoalSet}

/-- **Weights can be added.** The goals of a set that was created in a run of commands weigh together at least their number
and at most 100 times it. If there are not more than 21474836 of them,
- the total is found, and every sum on the way fits a 32-bit word, also with another weight from 1 to 100 in the place of
  that of a goal;
- no operation with such a weight faults on the set;
- a command on the set ends in a fault only if the set already has the last version there is.

And after a command that gives a goal of the set another definition the total is found and at most 100. -/
theorem weights_bounded (env : Surroundings) (settings : Settings) (start : Service) (cs : List (Listing × Command))
    (hnew : start.store.goalSets.get? i = none)
    (hget : (start.executeAllIn env settings cs).store.goalSets.get? i = some s) :
    ((s.goals.length : Int) ≤ s.weight ∧ s.weight ≤ 100 * s.goals.length) ∧
    (s.goals.length ≤ 21474836 →
      (∃ w : Int32, s.totalPercentage = Outcome.ok (ε := GoalSetError) w ∧ w.toInt = s.weight) ∧
      (∀ (j : Id) (p : Int32), 1 ≤ p.toInt ∧ p.toInt ≤ 100 → s.Weighable j p) ∧
      (∀ (o : GoalSet.Op) (f : Fault), o.Weighed → s.apply o ≠ .fault f) ∧
      ∀ (l : Listing) (c : Command) (f : Fault), c.goalSet? = some i →
        ((start.executeAllIn env settings cs).executeIn l env settings c).1 = .fault f → s.version = Int32.maxValue) ∧
    ∀ (l : Listing) (u : UpdateGoal) (a : CommandResult), u.goalSetId = i →
      ((start.executeAllIn env settings cs).executeIn l env settings (.updateGoal u)).1 = .value a →
        ∃ (t : GoalSet) (w : Int32),
          ((start.executeAllIn env settings cs).executeIn l env settings (.updateGoal u)).2.store.goalSets.get? i = some t ∧
            t.totalPercentage = Outcome.ok (ε := GoalSetError) w ∧ w.toInt = t.weight ∧ w.toInt ≤ 100 := by
  have hs : s.Moderate := kept_executeAllIn GoalSet.kept_moderate hnew s hget
  refine ⟨hs.weight_between, fun hfew => ⟨(hs.summable hfew).totalPercentage, fun j p hp => hs.weighable hfew j hp,
    fun o f ho => hs.apply_ne_fault hfew ho f, fun l c f hset hf => ?_⟩, fun l u a hu ha => ?_⟩
  · let w : Solo := ⟨env, l, settings, c, start.executeAllIn env settings cs⟩
    have hkeeps := Solo.task_faultsLast (w := w) hset hget fun o f ho => hs.apply_ne_fault hfew ho f
    obtain ⟨-, hends, -⟩ := hkeeps.run w.inv_answer w.inv_start
    change Solo.FaultsLast s ((start.executeAllIn env settings cs).executeIn l env settings c).1 at hends
    rw [hf] at hends
    exact hends
  · have hwrite := (setWrite_executeIn l env settings (.updateGoal u) _).2 a ha (Option.some_ne_none _)
    obtain ⟨t, ht, hlight⟩ := hwrite.weight_updateGoal
    rw [hu] at ht
    have hkept : t.Moderate := hwrite.kept GoalSet.kept_moderate (i := i)
      (fun s' hs' => Option.some.inj (hget.symm.trans hs') ▸ hs) t ht
    obtain ⟨hmin, -⟩ := hkept.weight_between
    obtain ⟨w, hw, hsum⟩ := (hkept.summable (by omega)).totalPercentage (ε := GoalSetError)
    exact ⟨t, w, ht, hw, hsum, hsum.trans_le hlight⟩

/-- a user gets a set with two goals that weigh 130 together -/
def unbalanced : List (Listing × Command) :=
  [(.arrival, .addGoalPeriod ⟨1, 2030⟩), (.arrival, .createGoalSet ⟨1, 5, 2030⟩),
    (.arrival, .addGoal ⟨.ofNat 1, "Ship it", .team, 1, 2, 3, .number, 60⟩),
    (.latest, .addGoal ⟨.ofNat 1, "Call back", .individual, 1, 2, 3, .number, 70⟩)]

/-- they can be added, no command on the set faults, and with a weight of 40 for the second one the set weighs 100 -/
theorem weights_bounded_unbalanced :
    let run := Service.start.executeAllIn .standstill .standard unbalanced
    let lighten : UpdateGoal := ⟨.ofNat 1, .ofNat 3, "Call back", .individual, .number, 40⟩
    ∃ s, run.store.goalSets.get? (.ofNat 1) = some s ∧
      (∃ w : Int32, s.totalPercentage = Outcome.ok (ε := GoalSetError) w ∧ w.toInt = s.weight) ∧
      (∀ f, (run.executeIn .arrival .standstill .standard (.sendToApproval ⟨.ofNat 1⟩)).1 ≠ .fault f) ∧
      ∃ (t : GoalSet) (w : Int32),
        (run.executeIn .arrival .standstill .standard (.updateGoal lighten)).2.store.goalSets.get? (.ofNat 1) = some t ∧
          t.totalPercentage = Outcome.ok (ε := GoalSetError) w ∧ w.toInt = t.weight ∧ w.toInt ≤ 100 := by
  intro run lighten
  have hget : run.store.goalSets.get? (.ofNat 1) = some ⟨.ofNat 1, 1, .ofNat 0, 5, none,
      [⟨.ofNat 2, "Ship it", .team, ⟨1, 2, 3, .number⟩, 60, none⟩,
        ⟨.ofNat 3, "Call back", .individual, ⟨1, 2, 3, .number⟩, 70, none⟩], 3⟩ := by decide +kernel
  have hupdate : (run.executeIn .arrival .standstill .standard (.updateGoal lighten)).1 =
      .value (.goal ⟨.ofNat 1, .ofNat 3, 4⟩) := by decide +kernel
  obtain ⟨-, hfew, hlight⟩ := weights_bounded .standstill .standard Service.start unbalanced rfl hget
  obtain ⟨htotal, -, -, hfault⟩ := hfew (by decide)
  exact ⟨_, hget, htotal, fun f hf => absurd (hfault .arrival (.sendToApproval ⟨.ofNat 1⟩) f rfl hf) (by decide),
    hlight .arrival _ _ rfl hupdate⟩

end Service

end Brigade
