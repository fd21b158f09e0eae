/-
What one operation can do to a goal set, and how a run is cut into operations.

`Change s o t` lists the ways in which `o` takes `s` to `t`, one constructor for each operation, with the conditions under
which it is granted. `change_of_apply`: an operation that is granted is such a change. What holds along runs is proved
from the changes alone.

A run is cut at its end (`run_snoc`) or at a place in it (`run_append`). `definitions` is the set without the progress of
its goals: operations on progress, and on the status, leave it alone.
-/
import Brigade.Proofs.First
import Brigade.Goal.GoalSet

namespace Brigade

/-! ## Exact sums -/

theorem Word.foldlM_addExact_eq_ok {ε : Type} (xs : List Int32) (a w : Int32)
    (h : (xs.foldlM addExact a : Outcome ε Int32) = .ok w) : w.toInt = a.toInt + (xs.map Int32.toInt).sum := by
  induction xs generalizing a with
  | nil =>
    simp only [List.foldlM_nil, Outcome.pure_eq_ok, Outcome.ok.injEq] at h
    simp [h]
  | cons x xs ih =>
    rw [List.foldlM_cons] at h
    obtain ⟨b, hb, hw⟩ := Outcome.bind_eq_ok.1 h
    rw [ih b hw, addExact_eq_ok hb, List.map_cons, List.sum_cons]
    ring

/-- a sum that is found is the integer sum -/
theorem Word.sumExact_eq_ok {ε : Type} {xs : List Int32} {w : Int32} (h : (sumExact xs : Outcome ε Int32) = .ok w) :
    w.toInt = (xs.map Int32.toInt).sum := by
  have := Word.foldlM_addExact_eq_ok xs 0 w h
  simpa using this

theorem Word.subExact_eq_ok {ε : Type} {a b w : Int32} (h : (subExact a b : Outcome ε Int32) = .ok w) :
    w.toInt = a.toInt - b.toInt := by
  unfold subExact at h
  split at h
  · rename_i hs
    obtain rfl := Outcome.ok.inj h
    exact toInt_of_ofInt? hs
  · cases h

/-- the word that has the sum is the exact sum -/
theorem Word.addExact_of_toInt {ε : Type} {a b w : Int32} (h : w.toInt = a.toInt + b.toInt) :
    (addExact a b : Outcome ε Int32) = .ok w := by
  unfold addExact
  rw [← h, ofInt?_toInt]

instance {ε : Type} : LawfulMonad (Outcome ε) := LawfulMonad.mk' _
  (fun x => by cases x <;> rfl) (fun _ _ => rfl) (fun x _ _ => by cases x <;> rfl)

theorem Outcome.mapRefusal_eq_ok {ε ε' α : Type} {g : ε → ε'} {x : Outcome ε α} {a : α} :
    x.mapRefusal g = .ok a ↔ x = .ok a := by
  cases x <;> simp [mapRefusal]

/-- a goal without its progress: what is to be reached, and its weight -/
def Goal.definition (g : Goal) : Goal := { g with progress := none }

namespace GoalSet

/-- identities, titles, kinds, ranges and weights of the goals, in their order -/
def definitions (s : GoalSet) : List Goal := s.goals.map Goal.definition

/-- the sum of all weights, as an integer -/
def weight (s : GoalSet) : Int := (s.goals.map fun g => g.percentage.toInt).sum

theorem weight_of_totalPercentage {ε : Type} {s : GoalSet} {w : Int32}
    (h : (s.totalPercentage : Outcome ε Int32) = .ok w) : s.weight = w.toInt := by
  rw [Word.sumExact_eq_ok h, List.map_map]
  rfl

theorem weight_eq_of_definitions {s t : GoalSet} (h : s.definitions = t.definitions) : s.weight = t.weight := by
  have key : ∀ u : GoalSet, u.weight = (u.definitions.map fun g => g.percentage.toInt).sum := by
    intro u
    simp only [weight, definitions, List.map_map]
    rfl
  rw [key s, key t, h]

theorem definitions_changeGoal {s : GoalSet} {i : Id} {f : Goal → Goal} (h : ∀ g, (f g).definition = g.definition) :
    (s.changeGoal i f).definitions = s.definitions := map_updateFirst h

/-! ## Changes -/

/-- the set waits for approval or is approved -/
def Frozen (s : GoalSet) : Prop := s.status = some .waitingForApproval ∨ s.status = some .approved

instance (s : GoalSet) : Decidable s.Frozen := inferInstanceAs (Decidable (_ ∨ _))

theorem isEditable_eq_false_iff (s : GoalSet) : s.isEditable = false ↔ s.Frozen := by
  unfold isEditable Frozen
  cases s.status with
  | none => simp
  | some st => cases st <;> simp

theorem not_frozen_of_isEditable {s : GoalSet} (h : s.isEditable = true) : ¬s.Frozen := by
  rw [← isEditable_eq_false_iff, h]
  simp

theorem frozen_congr {s t : GoalSet} (h : s.status = t.status) : s.Frozen ↔ t.Frozen := by
  unfold Frozen
  rw [h]

/-- the ways in which an operation that is granted takes a set to another -/
inductive Change (s : GoalSet) : Op → GoalSet → Prop where
  | added (i : Id) (title : String) (type : GoalType) (value : GoalValue) (percentage : Int32)
      (editable : s.isEditable = true) :
      Change s (.addGoal i title type value percentage)
        { s with goals := s.goals ++ [⟨i, title, type, value, percentage, none⟩] }
  | redefined (i : Id) (title : String) (type : GoalType) (valueType : GoalValueType) (percentage : Int32) (g : Goal)
      (value : GoalValue) (editable : s.isEditable = true) (found : s.goal? i = some g)
      (room : s.weight - g.percentage.toInt + percentage.toInt ≤ 100)
      (fits : g.value.withType valueType = .ok value) :
      Change s (.updateGoal i title type valueType percentage)
        (s.changeGoal i fun g => { g with title := title, type := type, value := value, percentage := percentage })
  | submitted (i : Id) (actual : Int32) (comment : Option String) (g : Goal) (found : s.goal? i = some g) :
      Change s (.submitProgress i actual comment)
        (s.changeGoal i fun g => { g with progress := some (.submitted actual comment) })
  | progressApproved (i : Id) (g : Goal) (p : GoalProgress) (found : s.goal? i = some g) (there : g.progress = some p) :
      Change s (.approveProgress i)
        (s.changeGoal i fun g => { g with progress := g.progress.map fun p => { p with status := .approved } })
  | progressRejected (i : Id) (g : Goal) (p : GoalProgress) (found : s.goal? i = some g) (there : g.progress = some p) :
      Change s (.rejectProgress i)
        (s.changeGoal i fun g => { g with progress := g.progress.map fun p => { p with status := .rejected } })
  | sent (ready : ∀ g ∈ s.goals, g.hasApprovedProgress = true) (full : s.weight = 100) :
      Change s .sendToApproval { s with status := some .waitingForApproval }
  | approved (u : Int32) (waiting : s.status = some .waitingForApproval) :
      Change s (.approve u) { s with status := some .approved }
  | returned (u : Int32) (waiting : s.status = some .waitingForApproval) :
      Change s (.reject u) { s with status := some .returned }

theorem reviewProgress_eq_ok {s t : GoalSet} {i : Id} {d : ProgressStatus} (h : s.reviewProgress i d = .ok t) :
    ∃ g p, s.goal? i = some g ∧ g.progress = some p ∧
      t = s.changeGoal i fun g => { g with progress := g.progress.map fun p => { p with status := d } } := by
  unfold reviewProgress at h
  cases hg : s.goal? i with
  | none => rw [hg] at h; cases h
  | some g =>
    rw [hg] at h
    cases hp : g.progress with
    | none => simp only [hp] at h; cases h
    | some p =>
      simp only [hp, Outcome.ok.injEq] at h
      exact ⟨g, p, rfl, hp, h.symm⟩

theorem updateGoal_eq_ok {s t : GoalSet} {i : Id} {title : String} {type : GoalType} {valueType : GoalValueType}
    {percentage : Int32} (h : s.updateGoal i title type valueType percentage = .ok t) :
    Change s (.updateGoal i title type valueType percentage) t := by
  unfold updateGoal at h
  cases he : s.isEditable with
  | false => simp only [he, Bool.not_false, if_true] at h; cases h
  | true =>
    simp only [he, Bool.not_true, Bool.false_eq_true, if_false] at h
    cases hg : s.goal? i with
    | none => simp only [hg] at h; cases h
    | some g =>
      simp only [hg] at h
      obtain ⟨total, htotal, h⟩ := Outcome.bind_eq_ok.1 h
      obtain ⟨others, hothers, h⟩ := Outcome.bind_eq_ok.1 h
      obtain ⟨newTotal, hnew, h⟩ := Outcome.bind_eq_ok.1 h
      split at h
      · cases h
      · rename_i hroom
        obtain ⟨value, hvalue, h⟩ := Outcome.bind_eq_ok.1 h
        obtain rfl := Outcome.ok.inj h
        refine .redefined i title type valueType percentage g value he hg ?_ (Outcome.mapRefusal_eq_ok.1 hvalue)
        have hle : newTotal.toInt ≤ 100 := Int32.le_iff_toInt_le.1 (Int32.not_lt.1 hroom)
        rw [weight_of_totalPercentage htotal, ← Word.subExact_eq_ok hothers, ← Word.addExact_eq_ok hnew]
        exact hle

theorem sendToApproval_eq_ok {s t : GoalSet} (h : s.sendToApproval = .ok t) : Change s .sendToApproval t := by
  unfold sendToApproval at h
  cases hall : s.goals.all Goal.hasApprovedProgress with
  | false => simp only [hall, Bool.not_false, if_true] at h; cases h
  | true =>
    simp only [hall, Bool.not_true, Bool.false_eq_true, if_false] at h
    obtain ⟨total, htotal, h⟩ := Outcome.bind_eq_ok.1 h
    split at h
    · cases h
    · rename_i hfull
      obtain rfl := Outcome.ok.inj h
      have hw : s.weight = 100 := by
        rw [weight_of_totalPercentage htotal, not_not.1 hfull]
        rfl
      exact .sent (fun g hg => List.all_eq_true.1 hall g hg) hw

theorem isWaitingForApproval_iff (s : GoalSet) :
    s.isWaitingForApproval = true ↔ s.status = some .waitingForApproval := beq_iff_eq

/-- **What an operation can do.** An operation that is granted is one of the changes. -/
theorem change_of_apply {s t : GoalSet} {o : Op} (h : s.apply o = .ok t) : Change s o t := by
  cases o with
  | addGoal i title type value percentage =>
    simp only [apply, addGoal] at h
    split at h
    · cases h
    · rename_i he
      obtain rfl := Outcome.ok.inj h
      exact .added i title type value percentage (by simpa using he)
  | updateGoal i title type valueType percentage => exact updateGoal_eq_ok h
  | submitProgress i actual comment =>
    simp only [apply, submitProgress] at h
    split at h
    · cases h
    · rename_i g hg
      obtain rfl := Outcome.ok.inj h
      exact .submitted i actual comment g hg
  | approveProgress i =>
    obtain ⟨g, p, hg, hp, rfl⟩ := reviewProgress_eq_ok h
    exact .progressApproved i g p hg hp
  | rejectProgress i =>
    obtain ⟨g, p, hg, hp, rfl⟩ := reviewProgress_eq_ok h
    exact .progressRejected i g p hg hp
  | sendToApproval => exact sendToApproval_eq_ok h
  | approve u =>
    simp only [apply, approve] at h
    split at h
    · cases h
    · rename_i hw
      obtain rfl := Outcome.ok.inj h
      exact .approved u ((isWaitingForApproval_iff s).1 (by simpa using hw))
  | reject u =>
    simp only [apply, reject] at h
    split at h
    · cases h
    · rename_i hw
      obtain rfl := Outcome.ok.inj h
      exact .returned u ((isWaitingForApproval_iff s).1 (by simpa using hw))

/-- no operation touches the identity or the version -/
theorem Change.id_version {s t : GoalSet} {o : Op} (h : Change s o t) : t.id = s.id ∧ t.version = s.version := by
  cases h <;> exact ⟨rfl, rfl⟩

/-! ## Runs -/

theorem step_eq_ok {s t : GoalSet} {o : Op} (h : s.step o = .ok t) : t = s ∨ s.apply o = .ok t :=
  Outcome.settle_eq_ok h

theorem step_of_apply {s t : GoalSet} {o : Op} (h : s.apply o = .ok t) : s.step o = .ok t := by
  unfold step
  rw [h]
  rfl

theorem run_append {s t : GoalSet} {as bs : List Op} :
    s.run (as ++ bs) = .ok t ↔ ∃ m, s.run as = .ok m ∧ m.run bs = .ok t := by
  unfold run
  rw [List.foldlM_append]
  cases as.foldlM step s with
  | ok m => exact ⟨fun h => ⟨m, rfl, h⟩, fun ⟨m', hm, h⟩ => Except.ok.inj hm ▸ h⟩
  | error f =>
    refine ⟨fun h => ?_, fun ⟨m, hm, _⟩ => ?_⟩
    · cases h
    · cases hm

theorem run_singleton {s t : GoalSet} {o : Op} : s.run [o] = .ok t ↔ s.step o = .ok t := by
  unfold run
  rw [List.foldlM_cons]
  cases s.step o <;> exact Iff.rfl

theorem run_snoc {s t : GoalSet} {os : List Op} {o : Op} :
    s.run (os ++ [o]) = .ok t ↔ ∃ m, s.run os = .ok m ∧ m.step o = .ok t := by
  rw [run_append]
  exact exists_congr fun m => and_congr_right fun _ => run_singleton

/-- a new set has no status and no goals -/
theorem create_eq_ok {i p : Id} {t u : Int32} {s : GoalSet} (h : create i t p u = .ok s) :
    s = ⟨i, t, p, u, none, [], 1⟩ := by
  unfold create at h
  split at h
  · exact (Outcome.ok.inj h).symm
  · cases h

end GoalSet

end Brigade
