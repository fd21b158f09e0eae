/-
Approval of goal sets, along whole runs: any operations with any arguments, refused ones included.

A set that waits for approval or is approved is frozen.
- `frozen_run`: a frozen set has goals, their weights add up to 100, and its definitions are those of the last editable
  state of the run. It is approved only out of waiting, it waits only when it has been sent, and once it has a status it
  keeps one.
- `progress_approved_iff`: every frozen state of a run has approved progress on all of its goals, exactly when the run
  withdraws no progress while the set is frozen. Progress is withdrawn by submitting it anew or by rejecting it, and
  nothing in these two operations looks at the status of the set.
- `approved_with_rejected_progress`: a run that sends a set, rejects the progress of its only goal and approves the set
  all the same.
-/
import Brigade.Proofs.GoalSetChange

namespace Brigade.GoalSet

variable {s t : GoalSet} {o : Op}

/-! ## The status, step by step -/

/-- the status moves only by the three operations on the whole set -/
theorem status_of_change (h : Change s o t) :
    t.status = s.status ∨ o = .sendToApproval ∧ t.status = some .waitingForApproval ∨
      s.status = some .waitingForApproval ∧
        ((∃ u, o = .approve u) ∧ t.status = some .approved ∨ (∃ u, o = .reject u) ∧ t.status = some .returned) := by
  cases h with
  | sent ready full => exact Or.inr (Or.inl ⟨rfl, rfl⟩)
  | approved u waiting => exact Or.inr (Or.inr ⟨waiting, Or.inl ⟨⟨u, rfl⟩, rfl⟩⟩)
  | returned u waiting => exact Or.inr (Or.inr ⟨waiting, Or.inr ⟨⟨u, rfl⟩, rfl⟩⟩)
  | _ => exact Or.inl rfl

/-- approval is entered from waiting, by `approve` -/
theorem approved_entered (h : s.step o = .ok t) (ht : t.status = some .approved) (hs : s.status ≠ some .approved) :
    s.status = some .waitingForApproval ∧ ∃ u, o = .approve u ∧ s.approve u = .ok t := by
  rcases step_eq_ok h with rfl | ha
  · exact absurd ht hs
  · rcases status_of_change (change_of_apply ha) with hst | ⟨_, hst⟩ | ⟨hw, ⟨⟨u, rfl⟩, _⟩ | ⟨_, hst⟩⟩
    · exact absurd (hst ▸ ht) hs
    · rw [ht] at hst; cases hst
    · exact ⟨hw, u, rfl, ha⟩
    · rw [ht] at hst; cases hst

/-- waiting is entered by sending the set -/
theorem waiting_entered (h : s.step o = .ok t) (ht : t.status = some .waitingForApproval)
    (hs : s.status ≠ some .waitingForApproval) : o = .sendToApproval ∧ s.sendToApproval = .ok t := by
  rcases step_eq_ok h with rfl | ha
  · exact absurd ht hs
  · rcases status_of_change (change_of_apply ha) with hst | ⟨rfl, _⟩ | ⟨hw, _⟩
    · exact absurd (hst ▸ ht) hs
    · exact ⟨rfl, ha⟩
    · exact absurd hw hs

theorem status_kept_step (h : s.step o = .ok t) (hs : s.status ≠ none) : t.status ≠ none := by
  rcases step_eq_ok h with rfl | ha
  · exact hs
  · rcases status_of_change (change_of_apply ha) with hst | ⟨_, hst⟩ | ⟨_, ⟨_, hst⟩ | ⟨_, hst⟩⟩
    · rwa [hst]
    all_goals rw [hst]; simp

/-- a status is never lost -/
theorem status_kept_run {os : List Op} (h : s.run os = .ok t) (hs : s.status ≠ none) : t.status ≠ none := by
  induction os using List.reverseRecOn generalizing t with
  | nil => exact Except.ok.inj h ▸ hs
  | append_singleton os o ih =>
    obtain ⟨m, hm, hstep⟩ := run_snoc.1 h
    exact status_kept_step hstep (ih hm)

/-! ## Frozen states -/

/-- what an operation on a frozen set can do: its goals keep their definitions -/
theorem definitions_of_change (h : Change s o t) (hs : s.Frozen) : t.definitions = s.definitions := by
  cases h with
  | added i title type value percentage editable => exact absurd hs (not_frozen_of_isEditable editable)
  | redefined i title type valueType percentage g value editable => exact absurd hs (not_frozen_of_isEditable editable)
  | submitted i actual comment g found => exact definitions_changeGoal fun _ => rfl
  | progressApproved i g p found there => exact definitions_changeGoal fun _ => rfl
  | progressRejected i g p found there => exact definitions_changeGoal fun _ => rfl
  | _ => rfl

/-- an operation leads into a frozen state out of a frozen one, or by sending an editable set -/
theorem frozen_of_change (h : Change s o t) (ht : t.Frozen) : s.Frozen ∨ o = .sendToApproval ∧ s.isEditable = true := by
  by_cases hs : s.Frozen
  · exact Or.inl hs
  · right
    have he : s.isEditable = true := by
      cases he : s.isEditable with
      | true => rfl
      | false => exact absurd ((isEditable_eq_false_iff s).1 he) hs
    rcases status_of_change h with hst | ⟨rfl, _⟩ | ⟨hw, _⟩
    · exact absurd ((frozen_congr hst).1 ht) hs
    · exact ⟨rfl, he⟩
    · exact absurd (Or.inl hw) hs

theorem weight_of_sent (h : Change s .sendToApproval t) : s.weight = 100 := by
  cases h with
  | sent ready full => exact full

/-- `held` is the last editable state of the run of `os` from `s`: an operation leaves it, and every later state is
frozen -/
def LastEditable (s : GoalSet) (os : List Op) (held : GoalSet) : Prop :=
  ∃ pre o post next, os = pre ++ o :: post ∧ s.run pre = .ok held ∧ held.isEditable = true ∧ held.step o = .ok next ∧
    ∀ q r m, post = q ++ r → next.run q = .ok m → m.Frozen

/-- one more operation that ends in a frozen state leaves the last editable state what it was -/
theorem lastEditable_snoc {os : List Op} {held u : GoalSet} (h : LastEditable s os held) (hs : s.run os = .ok t)
    (ht : t.step o = .ok u) (hu : u.Frozen) : LastEditable s (os ++ [o]) held := by
  obtain ⟨pre, o', post, next, rfl, hpre, hheld, hnext, hfrozen⟩ := h
  refine ⟨pre, o', post ++ [o], next, by simp, hpre, hheld, hnext, fun q r m hqr hm => ?_⟩
  have hlast : next.run (post ++ [o]) = .ok u := by
    obtain ⟨held', hheld', hrest⟩ := run_append.1 hs
    rw [hpre] at hheld'
    obtain rfl := Except.ok.inj hheld'
    rw [← List.singleton_append] at hrest
    obtain ⟨next', hnext', hpost⟩ := run_append.1 hrest
    rw [run_singleton, hnext] at hnext'
    obtain rfl := Except.ok.inj hnext'
    exact run_snoc.2 ⟨t, hpost, ht⟩
  rcases List.eq_nil_or_concat r with rfl | ⟨r', o'', rfl⟩
  · rw [List.append_nil] at hqr
    rw [← hqr, hlast] at hm
    exact Except.ok.inj hm ▸ hu
  · rw [List.concat_eq_append, ← List.append_assoc] at hqr
    exact hfrozen q r' m (List.append_inj_left' hqr rfl) hm

/-- the history of a frozen state: the last editable state had its definitions, and their weights add up to 100 -/
theorem frozen_history {s₀ : GoalSet} {os : List Op} (h₀ : ¬s₀.Frozen) (h : s₀.run os = .ok s) (hs : s.Frozen) :
    ∃ held, LastEditable s₀ os held ∧ s.definitions = held.definitions ∧ held.weight = 100 := by
  induction os using List.reverseRecOn generalizing s with
  | nil => exact absurd (Except.ok.inj h ▸ hs) h₀
  | append_singleton os o ih =>
    obtain ⟨m, hm, hstep⟩ := run_snoc.1 h
    rcases step_eq_ok hstep with rfl | ha
    · obtain ⟨held, hlast, hdef, hw⟩ := ih hm hs
      exact ⟨held, lastEditable_snoc hlast hm hstep hs, hdef, hw⟩
    · have hc := change_of_apply ha
      rcases frozen_of_change hc hs with hf | ⟨rfl, he⟩
      · obtain ⟨held, hlast, hdef, hw⟩ := ih hm hf
        exact ⟨held, lastEditable_snoc hlast hm hstep hs, (definitions_of_change hc hf).trans hdef, hw⟩
      · refine ⟨m, ⟨os, _, [], s, rfl, hm, he, hstep, fun q r m' hqr hm' => ?_⟩, ?_, weight_of_sent hc⟩
        · rw [(List.append_eq_nil_iff.1 hqr.symm).1] at hm'
          exact Except.ok.inj hm' ▸ hs
        · cases hc with
          | sent ready full => rfl

theorem goals_ne_nil_of_weight (h : s.weight = 100) : s.goals ≠ [] := by
  intro hnil
  rw [weight, hnil] at h
  simp at h

theorem not_frozen_of_create {i p : Id} {team user : Int32} (h : create i team p user = .ok s) : ¬s.Frozen := by
  rw [create_eq_ok h]
  simp [Frozen]

/-- **Frozen runs.** Along every run from a new set: a frozen state has goals, their weights add up to 100, and its
definitions are those of the last editable state. Approval is entered only from waiting, by `approve`; waiting only by
sending the set; and a status is never lost. -/
theorem frozen_run {i p : Id} {team user : Int32} {s₀ : GoalSet} {os : List Op}
    (h₀ : create i team p user = .ok s₀) (h : s₀.run os = .ok s) :
    (s.Frozen → s.goals ≠ [] ∧ s.weight = 100 ∧ ∃ held, LastEditable s₀ os held ∧ s.definitions = held.definitions) ∧
    (∀ pre o post b a, os = pre ++ o :: post → s₀.run pre = .ok b → b.step o = .ok a →
      (a.status = some .approved → b.status ≠ some .approved →
        b.status = some .waitingForApproval ∧ ∃ u, o = .approve u ∧ b.approve u = .ok a) ∧
      (a.status = some .waitingForApproval → b.status ≠ some .waitingForApproval →
        o = .sendToApproval ∧ b.sendToApproval = .ok a)) ∧
    ∀ pre post m, os = pre ++ post → s₀.run pre = .ok m → m.status ≠ none → s.status ≠ none := by
  refine ⟨fun hs => ?_, fun pre o post b a _ _ hstep => ?_, fun pre post m hos hm hne => ?_⟩
  · obtain ⟨held, hlast, hdef, hw⟩ := frozen_history (not_frozen_of_create h₀) h hs
    have hweight : s.weight = 100 := (weight_eq_of_definitions hdef).trans hw
    exact ⟨goals_ne_nil_of_weight hweight, hweight, held, hlast, hdef⟩
  · exact ⟨approved_entered hstep, waiting_entered hstep⟩
  · rw [hos] at h
    obtain ⟨m', hm', hrest⟩ := run_append.1 h
    rw [hm] at hm'
    obtain rfl := Except.ok.inj hm'
    exact status_kept_run hrest hne

/-- one goal of the whole weight, with approved progress, handed in -/
def handedIn : List Op :=
  [.addGoal (.ofNat 7) "Ship it" .team ⟨1, 2, 3, .number⟩ 100, .submitProgress (.ofNat 7) 80 none,
    .approveProgress (.ofNat 7), .sendToApproval]

theorem frozen_run_handedIn :
    ∃ s₀ s, create (.ofNat 1) 1 (.ofNat 2) 5 = .ok s₀ ∧ s₀.run handedIn = .ok s ∧ s.Frozen ∧ s.goals ≠ [] ∧
      s.weight = 100 ∧ ∃ held, LastEditable s₀ handedIn held ∧ s.definitions = held.definitions := by
  have h₀ : create (.ofNat 1) 1 (.ofNat 2) 5 = .ok ⟨.ofNat 1, 1, .ofNat 2, 5, none, [], 1⟩ := rfl
  refine ⟨_, _, h₀, rfl, by decide, ?_⟩
  exact (frozen_run h₀ rfl).1 (by decide)

/-! ## Progress of frozen sets -/

/-- every goal of the set has approved progress -/
def FullyApproved (s : GoalSet) : Prop := ∀ g ∈ s.goals, g.hasApprovedProgress = true

/-- the operation puts progress that is not approved in the place of whatever was there -/
def Op.withdraws : Op → Bool
  | .submitProgress _ _ _ => true
  | .rejectProgress _ => true
  | _ => false

/-- the rule that a run may keep or break: frozen states, and those that are approved next, are fully approved -/
def ApprovedInTime (s₀ : GoalSet) (os : List Op) : Prop :=
  ∀ pre m, pre <+: os → s₀.run pre = .ok m →
    (m.Frozen → m.FullyApproved) ∧ ∀ u a, m.approve u = .ok a → m.FullyApproved

/-- no operation of the run withdraws progress of a set that is frozen -/
def KeepsFrozenProgress (s₀ : GoalSet) (os : List Op) : Prop :=
  ∀ pre o post m a, os = pre ++ o :: post → s₀.run pre = .ok m → m.Frozen → m.apply o = .ok a → o.withdraws = false

theorem hasApprovedProgress_approved {g : Goal} (h : g.hasApprovedProgress = true) :
    ({ g with progress := g.progress.map fun p => { p with status := .approved } } : Goal).hasApprovedProgress =
      true := by
  obtain ⟨i, title, type, value, percentage, progress⟩ := g
  cases progress with
  | none => cases h
  | some p => rfl

/-- a change that withdraws nothing leads to frozen states that are fully approved -/
theorem fullyApproved_of_change (h : Change s o t) (ho : o.withdraws = false) (hs : s.Frozen → s.FullyApproved)
    (ht : t.Frozen) : t.FullyApproved := by
  cases h with
  | added i title type value percentage editable => exact absurd ht (not_frozen_of_isEditable editable)
  | redefined i title type valueType percentage g value editable => exact absurd ht (not_frozen_of_isEditable editable)
  | submitted i actual comment g found => cases ho
  | progressRejected i g p found there => cases ho
  | progressApproved i g p found there =>
    intro g' hg'
    rcases mem_updateFirst hg' with hg' | ⟨g₀, hg₀, rfl⟩
    · exact hs ht g' hg'
    · exact hasApprovedProgress_approved (hs ht g₀ hg₀)
  | sent ready full => exact ready
  | approved u waiting => exact hs (Or.inl waiting)
  | returned u waiting => rcases ht with ht | ht <;> cases ht

/-- progress withdrawn from a frozen set leaves it frozen, and not fully approved -/
theorem not_fullyApproved_of_withdraws (h : Change s o t) (ho : o.withdraws = true) (hs : s.Frozen) :
    t.Frozen ∧ ¬t.FullyApproved := by
  cases h with
  | submitted i actual comment g found =>
    refine ⟨hs, fun hall => ?_⟩
    have := hall _ (mem_updateFirst_of_find? found)
    cases this
  | progressRejected i g p found there =>
    refine ⟨hs, fun hall => ?_⟩
    have := hall _ (mem_updateFirst_of_find? found)
    rw [Goal.hasApprovedProgress, there] at this
    cases this
  | _ => cases ho

theorem frozen_of_approve {u : Int32} (h : s.approve u = .ok t) : s.Frozen := by
  cases change_of_apply (o := .approve u) h with
  | approved _ waiting => exact Or.inl waiting

/-- **Approved progress of frozen sets.** Along a run from a new set the frozen states, and the states in which `approve`
succeeds, are fully approved exactly when the run withdraws no progress while the set is frozen. -/
theorem progress_approved_iff {i p : Id} {team user : Int32} {s₀ : GoalSet} (os : List Op)
    (h₀ : create i team p user = .ok s₀) : ApprovedInTime s₀ os ↔ KeepsFrozenProgress s₀ os := by
  constructor
  · intro h pre o post m a hos hm hf ha
    cases ho : o.withdraws with
    | false => rfl
    | true =>
      obtain ⟨hfa, hna⟩ := not_fullyApproved_of_withdraws (change_of_apply ha) ho hf
      have hpre : pre ++ [o] <+: os := ⟨post, by rw [hos]; simp⟩
      exact absurd ((h _ a hpre (run_snoc.2 ⟨m, hm, step_of_apply ha⟩)).1 hfa) hna
  · intro h pre m hpre hm
    have key : m.Frozen → m.FullyApproved := by
      induction pre using List.reverseRecOn generalizing m with
      | nil => exact fun hf => absurd (Except.ok.inj hm ▸ hf) (not_frozen_of_create h₀)
      | append_singleton pre o ih =>
        obtain ⟨b, hb, hstep⟩ := run_snoc.1 hm
        have hb' := ih b ((List.prefix_append pre [o]).trans hpre) hb
        rcases step_eq_ok hstep with rfl | ha
        · exact hb'
        · intro hf
          have hc := change_of_apply ha
          obtain ⟨post, hpost⟩ := hpre
          -- an operation on an editable set that leads into a frozen one is the sending itself
          have ho : o.withdraws = false := by
            rcases frozen_of_change hc hf with hfb | ⟨rfl, _⟩
            · exact h pre o post b m (by rw [← hpost]; simp) hb hfb ha
            · rfl
          exact fullyApproved_of_change hc ho hb' hf
    exact ⟨key, fun u a ha => key (frozen_of_approve ha)⟩

/-- a set that is handed in, whose only goal is then rejected, and which is approved after that -/
def rejectedInTheMeantime : List Op := handedIn ++ [.rejectProgress (.ofNat 7), .approve 9]

theorem progress_approved_iff_rejectedInTheMeantime :
    ∃ s₀, create (.ofNat 1) 1 (.ofNat 2) 5 = .ok s₀ ∧ ¬ApprovedInTime s₀ rejectedInTheMeantime := by
  have h₀ : create (.ofNat 1) 1 (.ofNat 2) 5 = .ok ⟨.ofNat 1, 1, .ofNat 2, 5, none, [], 1⟩ := rfl
  refine ⟨_, h₀, (progress_approved_iff rejectedInTheMeantime h₀).not.2 fun h => ?_⟩
  have := h handedIn (.rejectProgress (.ofNat 7)) [.approve 9] _ _ rfl rfl (by decide) rfl
  cases this

/-- **A set approved with rejected progress.** It is not so that every frozen state of every run has approved progress on
all of its goals: the set of `rejectedInTheMeantime` ends approved. -/
theorem approved_with_rejected_progress :
    ¬∀ (i p : Id) (team user : Int32) (s₀ s : GoalSet) (os : List Op), create i team p user = .ok s₀ →
      s₀.run os = .ok s → s.status = some .waitingForApproval ∨ s.status = some .approved →
      ∀ g ∈ s.goals, g.hasApprovedProgress = true := by
  intro h
  have h₀ : create (.ofNat 1) 1 (.ofNat 2) 5 = .ok ⟨.ofNat 1, 1, .ofNat 2, 5, none, [], 1⟩ := rfl
  have := h _ _ _ _ _ _ rejectedInTheMeantime h₀ rfl (by decide) _ List.mem_cons_self
  revert this
  decide

end Brigade.GoalSet
