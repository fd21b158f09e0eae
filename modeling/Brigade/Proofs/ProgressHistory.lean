/-
The progress of a goal and the operations that made it, along whole runs: any operations with any arguments, refused ones
included.

`granted` lists the operations of a run that succeed. Of these a submission says what was reached, and each of the three
operations on progress says how the record stands (`Op.submission?`, `Op.verdict?`); `lastOf` is the last thing said.
- `progress?_of_change`: an operation that is not about the progress of a goal leaves it as it was.
- `recorded_of_change`, `recorded_granted`: the record of a goal is what was said last, after one operation and after a
  run.
- `progress_of_run`: so it is for every goal of a set made by a run in which no goal identity is given twice.
-/
import Brigade.Proofs.GoalSetChange

namespace Brigade.GoalSet

variable {s t s₀ : GoalSet} {o : Op} {done os ps : List Op} {i j : Id} {g : Goal}

/-! ## Operations that succeed -/

/-- the operations of a run that succeed, in their order -/
def granted (s : GoalSet) : List Op → List Op
  | [] => []
  | o :: os =>
    match s.apply o with
    | .ok t => o :: granted t os
    | .refused _ => granted s os
    | .fault _ => []

theorem granted_append (h : s.run os = .ok t) : granted s (os ++ ps) = granted s os ++ granted t ps := by
  induction os generalizing s with
  | nil =>
    obtain rfl := Except.ok.inj h
    rfl
  | cons o os ih =>
    rw [← List.singleton_append] at h
    obtain ⟨m, hm, hrest⟩ := run_append.1 h
    rw [run_singleton, step] at hm
    simp only [List.cons_append, granted]
    cases ha : s.apply o with
    | fault f => rw [ha] at hm; cases hm
    | ok u =>
      rw [ha] at hm
      obtain rfl := Except.ok.inj hm
      simp [ih hrest]
    | refused e =>
      rw [ha] at hm
      obtain rfl := Except.ok.inj hm
      simp [ih hrest]

/-- what holds at the start of a run, and is kept by every change, holds of its end and of the operations that led there -/
theorem granted_induction {motive : GoalSet → List Op → Prop} (start : motive s₀ [])
    (change : ∀ s t o done, motive s done → Change s o t → motive t (done ++ [o])) (h : s₀.run os = .ok s) :
    motive s (granted s₀ os) := by
  induction os using List.reverseRecOn generalizing s with
  | nil => exact Except.ok.inj h ▸ start
  | append_singleton os o ih =>
    obtain ⟨m, hm, hstep⟩ := run_snoc.1 h
    rw [granted_append hm, granted]
    rw [step] at hstep
    cases ha : m.apply o with
    | fault f => rw [ha] at hstep; cases hstep
    | ok u =>
      rw [ha] at hstep
      obtain rfl := Except.ok.inj hstep
      exact change m u o _ (ih hm) (change_of_apply ha)
    | refused e =>
      rw [ha] at hstep
      obtain rfl := Except.ok.inj hstep
      simpa [granted] using ih hm

/-! ## What operations say -/

/-- the identity given to a new goal -/
def Op.added? : Op → Option Id
  | .addGoal i _ _ _ _ => some i
  | _ => none

/-- the goal whose progress an operation is about -/
def Op.progressOf? : Op → Option Id
  | .submitProgress i _ _ | .approveProgress i | .rejectProgress i => some i
  | _ => none

/-- what an operation says was reached of a goal, with its comment -/
def Op.submission? (j : Id) : Op → Option (Int32 × Option String)
  | .submitProgress i actual comment => if i = j then some (actual, comment) else none
  | _ => none

/-- how the record of a goal stands by an operation -/
def Op.verdict? (j : Id) : Op → Option ProgressStatus
  | .submitProgress i _ _ => if i = j then some .waitingForApproval else none
  | .approveProgress i => if i = j then some .approved else none
  | .rejectProgress i => if i = j then some .rejected else none
  | _ => none

/-- an operation says nothing of the progress of a goal that it is not about -/
theorem Op.silent (h : o.progressOf? ≠ some j) : o.submission? j = none ∧ o.verdict? j = none := by
  cases o with
  | submitProgress i actual comment =>
    have hne : i ≠ j := fun he => h (congrArg some he)
    exact ⟨if_neg hne, if_neg hne⟩
  | approveProgress i => exact ⟨rfl, if_neg fun he => h (congrArg some he)⟩
  | rejectProgress i => exact ⟨rfl, if_neg fun he => h (congrArg some he)⟩
  | _ => exact ⟨rfl, rfl⟩

/-- the last thing that a list of operations says -/
def lastOf {β : Type} (view : Op → Option β) (os : List Op) : Option β := (os.filterMap view).getLast?

theorem lastOf_snoc {β : Type} (view : Op → Option β) (os : List Op) (o : Op) :
    lastOf view (os ++ [o]) = (view o).or (lastOf view os) := by
  unfold lastOf
  rw [List.filterMap_append]
  cases h : view o <;> simp [h]

theorem lastOf_eq_none {β : Type} {view : Op → Option β} : lastOf view os = none ↔ ∀ o ∈ os, view o = none := by
  rw [lastOf, List.getLast?_eq_none_iff, List.filterMap_eq_nil_iff]

/-! ## One operation and one goal -/

/-- the progress of the first goal with an identity; a goal that is not there has none -/
def progress? (s : GoalSet) (j : Id) : Option GoalProgress := (s.goal? j).bind (·.progress)

/-- the goal that is changed is found as it was changed -/
theorem goal?_changeGoal {f : Goal → Goal} (found : s.goal? i = some g) (hid : (f g).id = g.id) :
    (s.changeGoal i f).goal? i = some (f g) :=
  find?_updateFirst found (by simpa [hid] using List.find?_some found)

theorem goal?_changeGoal_of_ne {f : Goal → Goal} (hid : ∀ g, (f g).id = g.id) (h : i ≠ j) :
    (s.changeGoal i f).goal? j = s.goal? j := by
  refine find?_updateFirst_of_ne fun g hg => ?_
  have hne : g.id ≠ j := fun he => h ((beq_iff_eq.1 hg).symm.trans he)
  exact ⟨beq_false_of_ne hne, beq_false_of_ne (hid g ▸ hne)⟩

theorem progress?_changeGoal_of_ne {f : Goal → Goal} (hid : ∀ g, (f g).id = g.id) (h : i ≠ j) :
    (s.changeGoal i f).progress? j = s.progress? j := by
  rw [progress?, goal?_changeGoal_of_ne hid h, progress?]

/-- **Frame.** An operation that is not about the progress of a goal leaves it as it was. -/
theorem progress?_of_change (h : Change s o t) (ho : o.progressOf? ≠ some j) : t.progress? j = s.progress? j := by
  cases h with
  | added i title type value percentage editable =>
    unfold progress? goal?
    rw [List.find?_append]
    cases s.goals.find? (·.id == j) with
    | some g => rfl
    | none =>
      -- a new goal has no progress, and one that was not there had none
      by_cases hij : i = j <;> simp [hij]
  | redefined i title type valueType percentage g value editable found room fits =>
    by_cases hij : i = j
    · subst hij
      rw [progress?, goal?_changeGoal found rfl, progress?, found]
      rfl
    · exact progress?_changeGoal_of_ne (fun _ => rfl) hij
  | submitted i actual comment g found => exact progress?_changeGoal_of_ne (fun _ => rfl) fun he => ho (congrArg some he)
  | progressApproved i g p found there =>
    exact progress?_changeGoal_of_ne (fun _ => rfl) fun he => ho (congrArg some he)
  | progressRejected i g p found there =>
    exact progress?_changeGoal_of_ne (fun _ => rfl) fun he => ho (congrArg some he)
  | _ => rfl

/-- the record of a goal says what a list of operations said last of it -/
structure Recorded (done : List Op) (j : Id) (p : Option GoalProgress) : Prop where
  reached : p.map (fun p => (p.actual, p.comment)) = lastOf (Op.submission? j) done
  stands : p.map (·.status) = lastOf (Op.verdict? j) done

/-- a decision on a record that is there: what was reached stays, and the record stands as was decided -/
theorem Recorded.review {p : GoalProgress} {d : ProgressStatus} (h : Recorded done j (some p))
    (hs : o.submission? j = none) (hv : o.verdict? j = some d) :
    Recorded (done ++ [o]) j (some { p with status := d }) where
  reached := by rw [lastOf_snoc, hs, Option.none_or, ← h.reached]; rfl
  stands := by rw [lastOf_snoc, hv]; rfl

/-- **One operation.** What the record of a goal says is what was said last, by the operation or before it. -/
theorem recorded_of_change (h : Change s o t) (hr : Recorded done j (s.progress? j)) :
    Recorded (done ++ [o]) j (t.progress? j) := by
  by_cases ho : o.progressOf? = some j
  · cases h with
    | submitted i actual comment g found =>
      obtain rfl := Option.some.inj ho
      rw [progress?, goal?_changeGoal found rfl]
      exact ⟨by simp [lastOf_snoc, Op.submission?, GoalProgress.submitted],
        by simp [lastOf_snoc, Op.verdict?, GoalProgress.submitted]⟩
    | progressApproved i g p found there =>
      obtain rfl := Option.some.inj ho
      rw [progress?, found, Option.bind_some, there] at hr
      rw [progress?, goal?_changeGoal found rfl, Option.bind_some, there]
      exact hr.review rfl (if_pos rfl)
    | progressRejected i g p found there =>
      obtain rfl := Option.some.inj ho
      rw [progress?, found, Option.bind_some, there] at hr
      rw [progress?, goal?_changeGoal found rfl, Option.bind_some, there]
      exact hr.review rfl (if_pos rfl)
    | _ => cases ho
  · obtain ⟨hs, hv⟩ := Op.silent ho
    rw [progress?_of_change h ho]
    exact ⟨by rw [lastOf_snoc, hs, Option.none_or, hr.reached], by rw [lastOf_snoc, hv, Option.none_or, hr.stands]⟩

/-! ## Runs -/

theorem ids_changeGoal {f : Goal → Goal} (hid : ∀ g, (f g).id = g.id) :
    (s.changeGoal i f).goals.map (·.id) = s.goals.map (·.id) := map_updateFirst hid

/-- the goals of a set keep their identities and their order, and a new one comes last -/
theorem ids_of_change (h : Change s o t) : t.goals.map (·.id) = s.goals.map (·.id) ++ [o].filterMap Op.added? := by
  cases h with
  | added i title type value percentage editable => simp [Op.added?]
  | redefined i title type valueType percentage g value editable found room fits => simp [ids_changeGoal, Op.added?]
  | submitted i actual comment g found => simp [ids_changeGoal, Op.added?]
  | progressApproved i g p found there => simp [ids_changeGoal, Op.added?]
  | progressRejected i g p found there => simp [ids_changeGoal, Op.added?]
  | _ => simp [Op.added?]

section FromNothing

variable {p : Id} {team user : Int32}

/-- the goals of a set are those that were added to it -/
theorem ids_granted (h₀ : create i team p user = .ok s₀) (h : s₀.run os = .ok s) :
    s.goals.map (·.id) = (granted s₀ os).filterMap Op.added? := by
  refine granted_induction (motive := fun s done => s.goals.map (·.id) = done.filterMap Op.added?) ?_ ?_ h
  · rw [create_eq_ok h₀]
    rfl
  · intro s t o done hs hc
    rw [ids_of_change hc, hs, List.filterMap_append]

theorem recorded_granted (h₀ : create i team p user = .ok s₀) (h : s₀.run os = .ok s) (j : Id) :
    Recorded (granted s₀ os) j (s.progress? j) := by
  refine granted_induction (motive := fun s done => Recorded done j (s.progress? j)) ?_ ?_ h
  · rw [create_eq_ok h₀]
    exact ⟨rfl, rfl⟩
  · intro s t o done hs hc
    exact recorded_of_change hc hs

/-- a goal whose identity no other goal of the set has is the one that is found under it -/
theorem progress?_of_mem (hn : (s.goals.map (·.id)).Nodup) (hg : g ∈ s.goals) : s.progress? g.id = g.progress := by
  have hsome : (s.goal? g.id).isSome := by
    rw [goal?, List.find?_isSome]
    exact ⟨g, hg, beq_self_eq_true _⟩
  obtain ⟨g', hg'⟩ := Option.isSome_iff_exists.1 hsome
  have hid : g'.id = g.id := by simpa using List.find?_some hg'
  rw [progress?, hg', List.inj_on_of_nodup_map hn (List.mem_of_find?_eq_some hg') hg hid]
  rfl

/-- **Progress tells its history.** In a set made by any run from a new one, with no goal identity given twice, a goal has
no record exactly if no submission for it succeeded. A record says what the last submission that succeeded said, and it
stands as the last operation on the progress of this goal left it. No other operation changes the progress of the
goal. -/
theorem progress_of_run (h₀ : create i team p user = .ok s₀) (h : s₀.run os = .ok s)
    (fresh : ((granted s₀ os).filterMap Op.added?).Nodup) :
    (∀ g ∈ s.goals,
      (g.progress = none ↔ ∀ o ∈ granted s₀ os, o.submission? g.id = none) ∧
      ∀ r, g.progress = some r →
        lastOf (Op.submission? g.id) (granted s₀ os) = some (r.actual, r.comment) ∧
        lastOf (Op.verdict? g.id) (granted s₀ os) = some r.status) ∧
    ∀ pre o post b a, os = pre ++ o :: post → s₀.run pre = .ok b → b.step o = .ok a →
      ∀ g ∈ b.goals, o.progressOf? ≠ some g.id → ∃ g' ∈ a.goals, g'.id = g.id ∧ g'.progress = g.progress := by
  refine ⟨fun g hg => ?_, fun pre o post b a hos hb hstep g hg ho => ?_⟩
  · have hn : (s.goals.map (·.id)).Nodup := ids_granted h₀ h ▸ fresh
    have hr := recorded_granted h₀ h g.id
    rw [progress?_of_mem hn hg] at hr
    refine ⟨?_, fun r hgr => ?_⟩
    · rw [← lastOf_eq_none, ← hr.reached, Option.map_eq_none_iff]
    · rw [← hr.reached, ← hr.stands, hgr]
      exact ⟨rfl, rfl⟩
  · rcases step_eq_ok hstep with rfl | ha
    · exact ⟨g, hg, rfl, rfl⟩
    · have hc := change_of_apply ha
      -- the run up to the operation has given no identity twice either
      have ha : s₀.run (pre ++ [o]) = .ok a := run_snoc.2 ⟨b, hb, hstep⟩
      have hna : (a.goals.map (·.id)).Nodup := by
        rw [hos, List.append_cons, granted_append ha, List.filterMap_append] at fresh
        exact ids_granted h₀ ha ▸ fresh.of_append_left
      have hids := ids_of_change hc
      have hnb : (b.goals.map (·.id)).Nodup := (hids ▸ hna).of_append_left
      obtain ⟨g', hg', hid⟩ : ∃ g' ∈ a.goals, g'.id = g.id :=
        List.mem_map.1 (hids ▸ List.mem_append_left _ (List.mem_map_of_mem hg))
      refine ⟨g', hg', hid, ?_⟩
      calc g'.progress = a.progress? g'.id := (progress?_of_mem hna hg').symm
        _ = a.progress? g.id := by rw [hid]
        _ = b.progress? g.id := progress?_of_change hc ho
        _ = g.progress := progress?_of_mem hnb hg

end FromNothing

/-- two goals; the progress of the first is rejected, submitted anew and approved, and an operation on a goal that is not
there is refused -/
def resubmitted : List Op :=
  [.addGoal (.ofNat 7) "Ship it" .team ⟨1, 2, 3, .number⟩ 60, .addGoal (.ofNat 8) "Learn" .individual ⟨1, 2, 3, .number⟩ 40,
    .submitProgress (.ofNat 7) 2 none, .rejectProgress (.ofNat 7), .submitProgress (.ofNat 9) 1 none,
    .submitProgress (.ofNat 7) 3 (some "done"), .updateGoal (.ofNat 7) "Ship" .team .percentage 60,
    .approveProgress (.ofNat 8), .approveProgress (.ofNat 7)]

theorem progress_of_run_resubmitted :
    ∃ s₀ s, create (.ofNat 1) 1 (.ofNat 2) 5 = .ok s₀ ∧ s₀.run resubmitted = .ok s ∧
      ((granted s₀ resubmitted).filterMap Op.added?).Nodup ∧
      s.goals.map (·.progress) = [some ⟨3, some "done", .approved⟩, none] ∧
      ∀ g ∈ s.goals, g.progress = none ↔ ∀ o ∈ granted s₀ resubmitted, o.submission? g.id = none := by
  have h₀ : create (.ofNat 1) 1 (.ofNat 2) 5 = .ok ⟨.ofNat 1, 1, .ofNat 2, 5, none, [], 1⟩ := rfl
  refine ⟨_, _, h₀, rfl, by decide, by decide, fun g hg => ?_⟩
  exact ((progress_of_run h₀ rfl (by decide)).1 g hg).1

end Brigade.GoalSet
