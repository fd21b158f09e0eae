/-
Goal sets that can never be handed in.

Adding a goal does not look at the sum of the weights, and nothing takes a goal away. A new weight for a goal is refused
while the others already weigh 100. So once every goal could be left out and 100 would still be there (`Overweight`), no
command changes a weight any more, except to add another goal, and the sum stays above 100 for good.
- `overweight_for_good`: such a set stays editable along every further sequence of commands, no change of one of its goals
  is ever granted, and it is never handed in.

The inductive condition is `Stuck`. It is kept by every write that a command can make (`SetWrite`), because commands let
only weights from 1 to 100 pass; sets with such weights, which are frozen with 100 only, are `Sane`.
-/
import Brigade.Proofs.Additions
import Brigade.Proofs.Approval
import Brigade.Proofs.GoalSetSteps

namespace Brigade

namespace GoalSet

variable {s t : GoalSet} {o : Op}

/-- the set has goals, and without any one of them the others still weigh 100 -/
def Overweight (s : GoalSet) : Prop := s.goals ≠ [] ∧ ∀ g ∈ s.goals, 100 ≤ s.weight - g.percentage.toInt

instance (s : GoalSet) : Decidable s.Overweight := inferInstanceAs (Decidable (_ ∧ _))

/-- every goal weighs something, and what waits or is approved weighs 100 -/
structure Sane (s : GoalSet) : Prop where
  weighs : ∀ g ∈ s.goals, 1 ≤ g.percentage.toInt
  full : s.Frozen → s.weight = 100

/-- the set is editable and overweight, and weighs more than 100 -/
structure Stuck (s : GoalSet) : Prop where
  editable : ¬s.Frozen
  heavy : 100 < s.weight
  overweight : s.Overweight

theorem sane_of_blank (h : s.Blank) : s.Sane where
  weighs := by rw [h.2]; exact fun g hg => nomatch hg
  full := by
    unfold Frozen
    rw [h.1]
    rintro (h | h) <;> cases h

/-- goals with the same definitions have the same weights -/
theorem mem_of_definitions (h : t.definitions = s.definitions) {g : Goal} (hg : g ∈ t.goals) :
    ∃ g' ∈ s.goals, g'.percentage = g.percentage := by
  have hdef : g.definition ∈ s.definitions := h ▸ List.mem_map_of_mem hg
  obtain ⟨g', hg', heq⟩ := List.mem_map.1 hdef
  have hpercentage : g'.definition.percentage = g.definition.percentage := by rw [heq]
  exact ⟨g', hg', hpercentage⟩

theorem overweight_congr (h : t.definitions = s.definitions) (hs : s.Overweight) : t.Overweight := by
  have hgoals : ∀ u : GoalSet, u.goals = [] ↔ u.definitions = [] := fun u => List.map_eq_nil_iff.symm
  refine ⟨fun hnil => hs.1 ((hgoals s).2 (h ▸ (hgoals t).1 hnil)), fun g hg => ?_⟩
  obtain ⟨g', hg', heq⟩ := mem_of_definitions h hg
  rw [weight_eq_of_definitions h, ← heq]
  exact hs.2 g' hg'

theorem weighs_congr (h : t.definitions = s.definitions) (hs : ∀ g ∈ s.goals, 1 ≤ g.percentage.toInt) :
    ∀ g ∈ t.goals, 1 ≤ g.percentage.toInt := by
  intro g hg
  obtain ⟨g', hg', heq⟩ := mem_of_definitions h hg
  exact heq ▸ hs g' hg'

theorem Stuck.of_definitions (hs : s.Stuck) (hstatus : t.status = s.status) (h : t.definitions = s.definitions) :
    t.Stuck :=
  ⟨fun hf => hs.editable ((frozen_congr hstatus).1 hf), weight_eq_of_definitions h ▸ hs.heavy,
    overweight_congr h hs.overweight⟩

theorem Sane.of_definitions (hs : s.Sane) (hstatus : t.status = s.status) (h : t.definitions = s.definitions) : t.Sane :=
  ⟨weighs_congr h hs.weighs, fun hf => (weight_eq_of_definitions h).trans (hs.full ((frozen_congr hstatus).1 hf))⟩

/-- what is stored is the changed set under the next version; the version counts for neither condition -/
theorem Sane.of_version {v : Int32} (h : ({ t with version := v } : GoalSet).Sane) : t.Sane := ⟨h.weighs, h.full⟩

theorem Stuck.of_version {v : Int32} (h : ({ t with version := v } : GoalSet).Stuck) : t.Stuck :=
  ⟨h.editable, h.heavy, h.overweight⟩

/-! ## What one change keeps -/

theorem weight_added (g : Goal) : ({ s with goals := s.goals ++ [g] } : GoalSet).weight = s.weight + g.percentage.toInt := by
  simp [weight]

theorem Sane.change (hs : s.Sane) (h : Change s o t) (ho : o.Weighed) : t.Sane := by
  cases h with
  | added i title type value percentage editable =>
    refine ⟨fun g hg => ?_, fun hf => absurd hf (not_frozen_of_isEditable editable)⟩
    rcases List.mem_append.1 hg with hg | hg
    · exact hs.weighs g hg
    · obtain rfl := List.mem_singleton.1 hg
      exact ho.1
  | redefined i title type valueType percentage g value editable =>
    refine ⟨fun g hg => ?_, fun hf => absurd hf (not_frozen_of_isEditable editable)⟩
    rcases mem_updateFirst hg with hg | ⟨g', -, rfl⟩
    · exact hs.weighs g hg
    · exact ho.1
  | submitted i actual comment g found => exact hs.of_definitions rfl (definitions_changeGoal fun _ => rfl)
  | progressApproved i g p found there => exact hs.of_definitions rfl (definitions_changeGoal fun _ => rfl)
  | progressRejected i g p found there => exact hs.of_definitions rfl (definitions_changeGoal fun _ => rfl)
  | sent ready full => exact ⟨hs.weighs, fun _ => full⟩
  | approved u waiting => exact ⟨hs.weighs, fun _ => hs.full (.inl waiting)⟩
  | returned u waiting => exact ⟨hs.weighs, nofun⟩

theorem kept_sane : Kept Sane :=
  ⟨fun _ => sane_of_blank, fun _ _ _ hs h ho => hs.change h ho, fun _ _ h => h.of_version⟩

/-- a new weight for a goal of such a set is refused -/
theorem Stuck.not_redefined (hs : s.Stuck) {i : Id} {title : String} {type : GoalType} {valueType : GoalValueType}
    {percentage : Int32} (ho : (Op.updateGoal i title type valueType percentage).Weighed) :
    ¬Change s (.updateGoal i title type valueType percentage) t := by
  intro h
  cases h with
  | redefined i title type valueType percentage g value editable found room =>
    -- the other goals already weigh 100
    have hothers := hs.overweight.2 g (List.mem_of_find?_eq_some found)
    have hp : 1 ≤ percentage.toInt := ho.1
    omega

theorem Stuck.change (hs : s.Stuck) (h : Change s o t) (ho : o.Weighed) : t.Stuck := by
  cases h with
  | added i title type value percentage editable =>
    have hmore : ({ s with goals := s.goals ++ [⟨i, title, type, value, percentage, none⟩] } : GoalSet).weight =
        s.weight + percentage.toInt := weight_added _
    have hp : 1 ≤ percentage.toInt ∧ percentage.toInt ≤ 100 := ho
    have hheavy := hs.heavy
    refine ⟨hs.editable, by omega, by simp, fun g hg => ?_⟩
    rcases List.mem_append.1 hg with hg | hg
    · have := hs.overweight.2 g hg
      omega
    · obtain rfl := List.mem_singleton.1 hg
      change 100 ≤ _ - percentage.toInt
      omega
  | redefined i title type valueType percentage g value editable found room fits =>
    exact absurd (.redefined i title type valueType percentage g value editable found room fits) (hs.not_redefined ho)
  | submitted i actual comment g found => exact hs.of_definitions rfl (definitions_changeGoal fun _ => rfl)
  | progressApproved i g p found there => exact hs.of_definitions rfl (definitions_changeGoal fun _ => rfl)
  | progressRejected i g p found there => exact hs.of_definitions rfl (definitions_changeGoal fun _ => rfl)
  | sent ready full =>
    have hheavy := hs.heavy
    omega
  | approved u waiting => exact absurd (.inl waiting) hs.editable
  | returned u waiting => exact absurd (.inl waiting) hs.editable

end GoalSet

/-! ## What one command keeps -/

section Command

variable {c : Command} {before after : Repository GoalSet} {i : Id} {s : GoalSet}

/-- a set that is stuck stays stored and stuck -/
theorem SetWrite.stuck (h : SetWrite c before after) (hget : before.get? i = some s) (hs : s.Stuck) :
    ∃ t, after.get? i = some t ∧ t.Stuck := by
  cases h with
  | added new opens blank unused stored others =>
    have hi : i ≠ new.id := by
      rintro rfl
      rw [unused] at hget
      cases hget
    exact ⟨s, others i hi ▸ hget, hs⟩
  | changed old new op set asked weighed found granted stored others =>
    by_cases hi : i = old.id
    · subst hi
      obtain rfl := Option.some.inj (found.symm.trans hget)
      exact ⟨new, stored, (hs.change (GoalSet.change_of_apply granted) weighed).of_version⟩
    · exact ⟨s, others i hi ▸ hget, hs⟩

/-- no goal of a set that is stuck is redefined -/
theorem SetWrite.not_updateGoal {u : UpdateGoal} (hget : before.get? u.goalSetId = some s) (hs : s.Stuck) :
    ¬SetWrite (.updateGoal u) before after := by
  intro h
  cases h with
  | added new opens => cases opens
  | changed old new op set asked weighed found granted =>
    obtain ⟨i, hop⟩ := asked
    obtain rfl := Option.some.inj hop
    have hid : u.goalSetId = old.id := Option.some.inj set
    rw [hid] at hget
    obtain rfl := Option.some.inj (found.symm.trans hget)
    exact hs.not_redefined weighed (GoalSet.change_of_apply granted)

end Command

/-! ## Every sequence of commands -/

namespace Service

variable {env : Surroundings} {settings : Settings} {start : Service} {cs : List (Listing × Command)} {i : Id}
  {s : GoalSet}

theorem stuck_executeAllIn (ds : List (Listing × Command)) (hget : start.store.goalSets.get? i = some s) (hs : s.Stuck) :
    ∃ t, (start.executeAllIn env settings ds).store.goalSets.get? i = some t ∧ t.Stuck := by
  induction ds using List.reverseRecOn with
  | nil => exact ⟨s, hget, hs⟩
  | append_singleton ds c ih =>
    obtain ⟨l, c⟩ := c
    obtain ⟨t, ht, hstuck⟩ := ih
    rw [executeAllIn_snoc]
    rcases (setWrite_executeIn l env settings c (start.executeAllIn env settings ds)).1 with heq | hwrite
    · rw [heq]
      exact ⟨t, ht, hstuck⟩
    · exact hwrite.stuck ht hstuck

/-- an overweight set whose goals all weigh something is stuck -/
theorem stuck_of_overweight (hs : s.Sane) (hover : s.Overweight) : s.Stuck := by
  obtain ⟨hne, hothers⟩ := hover
  obtain ⟨g, hg⟩ := List.exists_mem_of_ne_nil s.goals hne
  have hleft := hothers g hg
  have hweighs := hs.weighs g hg
  refine ⟨fun hf => ?_, by omega, hne, hothers⟩
  have hfull := hs.full hf
  omega

/-- **Overweight for good.** A set that was created in a run of commands, and has goals which without any one of them
still weigh 100, stays stored whatever commands follow. It stays editable, so it neither waits nor is approved; it weighs
more than 100; and no command that redefines one of its goals has a value. -/
theorem overweight_for_good (env : Surroundings) (settings : Settings) (start : Service)
    (cs ds : List (Listing × Command)) (hnew : start.store.goalSets.get? i = none)
    (hget : (start.executeAllIn env settings cs).store.goalSets.get? i = some s) (hover : s.Overweight) :
    ∃ t, (start.executeAllIn env settings (cs ++ ds)).store.goalSets.get? i = some t ∧
      t.isEditable = true ∧ t.status ≠ some .waitingForApproval ∧ t.status ≠ some .approved ∧ 100 < t.weight ∧
      ∀ (l : Listing) (u : UpdateGoal) (a : CommandResult), u.goalSetId = i →
        ((start.executeAllIn env settings (cs ++ ds)).executeIn l env settings (.updateGoal u)).1 ≠ .value a := by
  have hstuck := stuck_of_overweight (kept_executeAllIn GoalSet.kept_sane hnew s hget) hover
  rw [executeAllIn_append]
  obtain ⟨t, ht, hts⟩ := stuck_executeAllIn ds hget hstuck
  obtain ⟨hwaiting, happroved⟩ := not_or.1 hts.editable
  refine ⟨t, ht, ?_, hwaiting, happroved, hts.heavy, fun l u a hu ha => ?_⟩
  · exact Bool.of_not_eq_false fun he => hts.editable ((t.isEditable_eq_false_iff).1 he)
  · subst hu
    have hwrite := (setWrite_executeIn l env settings (.updateGoal u) _).2 a ha (Option.some_ne_none _)
    exact SetWrite.not_updateGoal ht hts hwrite

/-- a user gets a set with three goals of weight 100 -/
def overfilled : List (Listing × Command) :=
  (.arrival, .addGoalPeriod ⟨1, 2030⟩) :: (.arrival, .createGoalSet ⟨1, 5, 2030⟩) ::
    List.replicate 3 (.arrival, .addGoal ⟨.ofNat 1, "Ship it", .team, 1, 2, 3, .number, 100⟩)

/-- all goals are reached, one is to become lighter, and the set is handed in -/
def lightened : List (Listing × Command) :=
  ([2, 3, 4].flatMap fun n =>
      [(.arrival, .submitProgress ⟨.ofNat 1, .ofNat n, 3, none⟩), (.latest, .approveProgress ⟨.ofNat 1, .ofNat n⟩)]) ++
    [(.arrival, .updateGoal ⟨.ofNat 1, .ofNat 2, "Ship half of it", .team, .number, 1⟩),
      (.arrival, .sendToApproval ⟨.ofNat 1⟩)]

theorem overweight_for_good_lightened :
    ∃ t, (Service.start.executeAllIn .standstill .standard (overfilled ++ lightened)).store.goalSets.get? (.ofNat 1) =
        some t ∧ t.isEditable = true ∧ 100 < t.weight := by
  have hget : (Service.start.executeAllIn .standstill .standard overfilled).store.goalSets.get? (.ofNat 1) =
      some ⟨.ofNat 1, 1, .ofNat 0, 5, none,
        [2, 3, 4].map fun n => ⟨.ofNat n, "Ship it", .team, ⟨1, 2, 3, .number⟩, 100, none⟩, 4⟩ := by decide +kernel
  obtain ⟨t, ht, heditable, -, -, hheavy, -⟩ :=
    overweight_for_good .standstill .standard Service.start overfilled lightened rfl hget (by decide)
  exact ⟨t, ht, heditable, hheavy⟩

end Service

end Brigade
