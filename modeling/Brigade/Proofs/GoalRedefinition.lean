/-
New definitions of goals: when one is granted, with what it is refused, and what it changes.

Four things are looked at, in one order: whether the set is editable, whether it has the goal, what the goals would weigh
together, and whether the range of the goal is valid under its new type. `Redefinable` says that nothing stands against
the new definition, and `Objection` lists the refusals, each with the check that fails after the checks that do not. One
of the two holds (`objection_or_redefinable`), and each settles what happens (`Objection.refused`, `Redefinable.granted`).
- `goal_redefined`: so for every goal set and every new definition, with the new weight and all that stays as it was.

The weights are added in 32 bits. A sum is found exactly if no sum on the way leaves the word (`Word.sumExact_iff`), and the
results are about sets with such sums. Nothing is assumed about the total: it may be above 100 before.
-/
import Brigade.Proofs.GoalRanges

namespace Brigade

/-! ## Sums that fit -/

namespace Word

variable {ε : Type} {a b w : Int32} {xs : List Int32}

/-- a 32-bit word has this integer -/
def Fits (i : Int) : Prop := Int32.minValue.toInt ≤ i ∧ i ≤ Int32.maxValue.toInt

instance (i : Int) : Decidable (Fits i) := inferInstanceAs (Decidable (_ ∧ _))

theorem fits_toInt (w : Int32) : Fits w.toInt := ⟨Int32.minValue_le_toInt w, Int32.toInt_le w⟩

theorem exists_of_fits {i : Int} (h : Fits i) : ∃ w : Int32, w.toInt = i :=
  ⟨Int32.ofInt i, toInt_of_ofInt? (if_pos h)⟩

theorem addExact_iff : (addExact a b : Outcome ε Int32) = .ok w ↔ w.toInt = a.toInt + b.toInt :=
  ⟨addExact_eq_ok, addExact_of_toInt⟩

theorem subExact_iff : (subExact a b : Outcome ε Int32) = .ok w ↔ w.toInt = a.toInt - b.toInt := by
  refine ⟨subExact_eq_ok, fun h => ?_⟩
  unfold subExact
  rw [← h, ofInt?_toInt]

/-- no sum from the left leaves the word -/
def Summable (xs : List Int32) : Prop := ∀ ps ∈ xs.inits, Fits (ps.map Int32.toInt).sum

instance (xs : List Int32) : Decidable (Summable xs) := inferInstanceAs (Decidable (∀ ps ∈ xs.inits, _))

theorem summable_snoc (xs : List Int32) (x : Int32) :
    Summable (xs ++ [x]) ↔ Summable xs ∧ Fits ((xs.map Int32.toInt).sum + x.toInt) := by
  have hsum : ((xs ++ [x]).map Int32.toInt).sum = (xs.map Int32.toInt).sum + x.toInt := by simp
  simp only [Summable, List.mem_inits, List.prefix_concat_iff, ← hsum]
  constructor
  · intro h
    exact ⟨fun ps hps => h ps (.inr hps), h _ (.inl rfl)⟩
  · rintro ⟨hinits, hall⟩ ps (rfl | hps)
    · exact hall
    · exact hinits ps hps

theorem sumExact_snoc (xs : List Int32) (x : Int32) :
    (sumExact (xs ++ [x]) : Outcome ε Int32) = sumExact xs >>= fun a => addExact a x := by
  rw [sumExact, List.foldlM_append]
  simp only [List.foldlM_cons, List.foldlM_nil, bind_pure]
  rfl

/-- the sum from the left is found exactly if no sum on the way leaves the word -/
theorem sumExact_iff : (sumExact xs : Outcome ε Int32) = .ok w ↔ Summable xs ∧ w.toInt = (xs.map Int32.toInt).sum := by
  induction xs using List.reverseRecOn generalizing w with
  | nil =>
    have hempty : Summable [] := by decide
    simp [sumExact, hempty, ← Int32.toInt_inj, eq_comm]
  | append_singleton xs x ih =>
    rw [sumExact_snoc, Outcome.bind_eq_ok, summable_snoc]
    simp only [ih, addExact_iff, List.map_append, List.sum_append, List.map_singleton, List.sum_singleton]
    constructor
    · rintro ⟨a, ⟨hxs, ha⟩, hw⟩
      rw [← ha, ← hw]
      exact ⟨⟨hxs, fits_toInt w⟩, rfl⟩
    · rintro ⟨⟨hxs, -⟩, hw⟩
      obtain ⟨a, ha⟩ := exists_of_fits (hxs xs (by simp))
      exact ⟨a, ⟨hxs, ha⟩, by rw [hw, ha]⟩

end Word

/-- the goal under a new definition; its identity, the points of its range and its progress are kept -/
def Goal.redefine (g : Goal) (title : String) (type : GoalType) (valueType : GoalValueType) (percentage : Int32) : Goal :=
  { g with title := title, type := type, value := { g.value with type := valueType }, percentage := percentage }

namespace GoalSet

variable {s t : GoalSet} {i : Id} {title : String} {type : GoalType} {valueType : GoalValueType} {percentage w : Int32}
  {g : Goal} {e : GoalSetError}

/-! ## Weights that fit -/

/-- the weights can be added -/
def Summable (s : GoalSet) : Prop := Word.Summable (s.goals.map (·.percentage))

instance (s : GoalSet) : Decidable s.Summable := inferInstanceAs (Decidable (Word.Summable _))

/-- the weights can be added, and the weight of the goal `i` can be taken from the sum and a new one put in its place -/
def Weighable (s : GoalSet) (i : Id) (percentage : Int32) : Prop :=
  s.Summable ∧ ∀ g ∈ s.goals, g.id = i →
    Word.Fits (s.weight - g.percentage.toInt) ∧ Word.Fits (s.weight - g.percentage.toInt + percentage.toInt)

instance (s : GoalSet) (i : Id) (percentage : Int32) : Decidable (s.Weighable i percentage) :=
  inferInstanceAs (Decidable (_ ∧ _))

theorem totalPercentage_iff {ε : Type} : (s.totalPercentage : Outcome ε Int32) = .ok w ↔ s.Summable ∧ w.toInt = s.weight := by
  rw [totalPercentage, Word.sumExact_iff, List.map_map]
  rfl

theorem Summable.totalPercentage {ε : Type} (h : s.Summable) :
    ∃ w, (s.totalPercentage : Outcome ε Int32) = .ok w ∧ w.toInt = s.weight := by
  obtain ⟨w, hw⟩ := Word.exists_of_fits (h _ ((List.mem_inits _ _).2 (List.prefix_refl _)))
  have hweight : w.toInt = s.weight := by
    rw [hw, List.map_map]
    rfl
  exact ⟨w, totalPercentage_iff.2 ⟨h, hweight⟩, hweight⟩

theorem Weighable.reweighed (h : s.Weighable i percentage) (hg : g ∈ s.goals) (hi : g.id = i) :
    ∃ w, s.reweighed g percentage = .ok w ∧ w.toInt = s.weight - g.percentage.toInt + percentage.toInt := by
  obtain ⟨total, htotal, hsum⟩ := h.1.totalPercentage (ε := GoalSetError)
  obtain ⟨hothers, hnew⟩ := h.2 g hg hi
  obtain ⟨others, hothers⟩ := Word.exists_of_fits hothers
  obtain ⟨w, hw⟩ := Word.exists_of_fits hnew
  refine ⟨w, ?_, hw⟩
  rw [GoalSet.reweighed, htotal, Outcome.ok_bind, Word.subExact_iff.2 (hsum ▸ hothers), Outcome.ok_bind,
    Word.addExact_iff.2 (hothers ▸ hw)]

/-! ## Goals by their identity -/

theorem goal?_eq_none_iff : s.goal? i = none ↔ ∀ g ∈ s.goals, g.id ≠ i := by
  simp [goal?]

theorem mem_of_goal? (h : s.goal? i = some g) : g ∈ s.goals ∧ g.id = i :=
  ⟨List.mem_of_find?_eq_some h, by simpa using List.find?_some h⟩

theorem goal?_of_mem (hn : (s.goals.map (·.id)).Nodup) (hg : g ∈ s.goals) (hi : g.id = i) : s.goal? i = some g := by
  cases hfound : s.goal? i with
  | none => exact absurd hi (goal?_eq_none_iff.1 hfound g hg)
  | some g' =>
    obtain ⟨hg', hi'⟩ := mem_of_goal? hfound
    rw [List.inj_on_of_nodup_map hn hg' hg (hi'.trans hi.symm)]

/-- a goal that is changed stays in its place, between the same goals -/
theorem changeGoal_split (f : Goal → Goal) (h : s.goal? i = some g) :
    ∃ pre post, s.goals = pre ++ g :: post ∧ s.changeGoal i f = { s with goals := pre ++ f g :: post } := by
  rcases updateFirst_cases (·.id == i) f s.goals with ⟨hnone, -⟩ | ⟨pre, a, post, hgoals, hpre, ha, heq⟩
  · exact absurd (List.find?_some h) (by simp [hnone g (List.mem_of_find?_eq_some h)])
  · have hfirst : s.goal? i = some a := List.find?_eq_some_iff_append.2 ⟨ha, pre, post, hgoals, by simpa using hpre⟩
    obtain rfl : a = g := Option.some.inj (hfirst.symm.trans h)
    exact ⟨pre, post, hgoals, by rw [changeGoal, heq]⟩

/-! ## What stands against a new definition -/

/-- nothing stands against the new definition of `g`, the goal `i` -/
structure Redefinable (s : GoalSet) (i : Id) (valueType : GoalValueType) (percentage : Int32) (g : Goal) : Prop where
  editable : ¬s.Frozen
  mem : g ∈ s.goals
  id_eq : g.id = i
  room : s.weight - g.percentage.toInt + percentage.toInt ≤ 100
  valid : ({ g.value with type := valueType } : GoalValue).Valid

/-- with what a new definition of the goal `i` is refused: the check that fails, after checks that do not -/
inductive Objection (s : GoalSet) (i : Id) (valueType : GoalValueType) (percentage : Int32) : GoalSetError → Prop where
  | closed (frozen : s.Frozen) : Objection s i valueType percentage (.closedToUpdate s.label)
  | missing (editable : ¬s.Frozen) (missing : ∀ g ∈ s.goals, g.id ≠ i) : Objection s i valueType percentage .goalNotFound
  | heavy (g : Goal) (w : Int32) (editable : ¬s.Frozen) (mem : g ∈ s.goals) (id_eq : g.id = i)
      (sum : w.toInt = s.weight - g.percentage.toInt + percentage.toInt) (heavy : 100 < w.toInt) :
      Objection s i valueType percentage (.weightTooLarge w)
  | invalid (g : Goal) (e : GoalValueError) (editable : ¬s.Frozen) (mem : g ∈ s.goals) (id_eq : g.id = i)
      (room : s.weight - g.percentage.toInt + percentage.toInt ≤ 100)
      (first : ({ g.value with type := valueType } : GoalValue).violated? = some e) :
      Objection s i valueType percentage (.badRange e)

/-- something stands against a new definition, or nothing -/
theorem objection_or_redefinable (hw : s.Weighable i percentage) (valueType : GoalValueType) :
    (∃ e, s.Objection i valueType percentage e) ∨ ∃ g, s.Redefinable i valueType percentage g := by
  by_cases hfrozen : s.Frozen
  · exact .inl ⟨_, .closed hfrozen⟩
  cases hfound : s.goal? i with
  | none => exact .inl ⟨_, .missing hfrozen (goal?_eq_none_iff.1 hfound)⟩
  | some g =>
    obtain ⟨hg, hi⟩ := mem_of_goal? hfound
    obtain ⟨w, -, hsum⟩ := hw.reweighed hg hi
    by_cases hroom : w.toInt ≤ 100
    · have hroom : s.weight - g.percentage.toInt + percentage.toInt ≤ 100 := hsum ▸ hroom
      cases hfirst : ({ g.value with type := valueType } : GoalValue).violated? with
      | none => exact .inr ⟨g, hfrozen, hg, hi, hroom, GoalValue.violated?_eq_none.1 hfirst⟩
      | some e => exact .inl ⟨_, .invalid g e hfrozen hg hi hroom hfirst⟩
    · exact .inl ⟨_, .heavy g w hfrozen hg hi hsum (not_le.1 hroom)⟩

theorem isEditable_of_not_frozen (h : ¬s.Frozen) : s.isEditable = true := by
  rwa [← isEditable_eq_false_iff, Bool.not_eq_false] at h

/-- a new weight with which the sum would be above 100 is refused with that sum -/
theorem updateGoal_of_heavy (title : String) (type : GoalType) (valueType : GoalValueType) (editable : s.isEditable = true)
    (found : s.goal? i = some g) (sum : s.reweighed g percentage = .ok w) (heavy : 100 < w) :
    s.updateGoal i title type valueType percentage = .refused (.weightTooLarge w) := by
  obtain ⟨total, htotal, hw⟩ := Outcome.bind_eq_ok.1 sum
  obtain ⟨others, hothers, hw⟩ := Outcome.bind_eq_ok.1 hw
  simp only [updateGoal, editable, found, htotal, hothers, hw, Outcome.ok_bind, Bool.not_true, Bool.false_eq_true,
    if_false, if_pos heavy]

theorem Objection.refused (h : s.Objection i valueType percentage e) (hn : (s.goals.map (·.id)).Nodup)
    (hw : s.Weighable i percentage) (title : String) (type : GoalType) :
    s.updateGoal i title type valueType percentage = .refused e := by
  cases h with
  | closed frozen => simp [updateGoal, (isEditable_eq_false_iff s).2 frozen]
  | missing editable missing =>
    simp [updateGoal, isEditable_of_not_frozen editable, goal?_eq_none_iff.2 missing]
  | heavy g w editable mem id_eq sum heavy =>
    obtain ⟨w', hw', hsum⟩ := hw.reweighed mem id_eq
    obtain rfl : w' = w := Int32.toInt_inj.1 (hsum.trans sum.symm)
    exact updateGoal_of_heavy title type valueType (isEditable_of_not_frozen editable) (goal?_of_mem hn mem id_eq) hw'
      (Int32.lt_iff_toInt_lt.2 heavy)
  | invalid g e editable mem id_eq room first =>
    obtain ⟨w, hw, hsum⟩ := hw.reweighed mem id_eq
    rw [updateGoal_eq title type valueType (isEditable_of_not_frozen editable) (goal?_of_mem hn mem id_eq) hw
      (Int32.le_iff_toInt_le.2 (hsum ▸ room)), first]

theorem Redefinable.granted (h : s.Redefinable i valueType percentage g) (hn : (s.goals.map (·.id)).Nodup)
    (hw : s.Weighable i percentage) (title : String) (type : GoalType) :
    ∃ pre post, s.goals = pre ++ g :: post ∧ s.updateGoal i title type valueType percentage =
      .ok { s with goals := pre ++ g.redefine title type valueType percentage :: post } := by
  have hfound := goal?_of_mem hn h.mem h.id_eq
  obtain ⟨w, hw, hsum⟩ := hw.reweighed h.mem h.id_eq
  obtain ⟨pre, post, hgoals, hchange⟩ := changeGoal_split (fun g' =>
    { g' with title := title, type := type, value := { g.value with type := valueType }, percentage := percentage }) hfound
  refine ⟨pre, post, hgoals, ?_⟩
  rw [updateGoal_eq title type valueType (isEditable_of_not_frozen h.editable) hfound hw
    (Int32.le_iff_toInt_le.2 (hsum ▸ h.room)), GoalValue.violated?_eq_none.2 h.valid, hchange]
  rfl

/-- what happens to a new definition -/
theorem updateGoal_cases (hn : (s.goals.map (·.id)).Nodup) (hw : s.Weighable i percentage) (title : String)
    (type : GoalType) (valueType : GoalValueType) :
    (∃ e, s.Objection i valueType percentage e ∧ s.updateGoal i title type valueType percentage = .refused e) ∨
    ∃ g pre post, s.Redefinable i valueType percentage g ∧ s.goals = pre ++ g :: post ∧
      s.updateGoal i title type valueType percentage =
        .ok { s with goals := pre ++ g.redefine title type valueType percentage :: post } := by
  rcases objection_or_redefinable hw valueType with ⟨e, he⟩ | ⟨g, hg⟩
  · exact .inl ⟨e, he, he.refused hn hw title type⟩
  · obtain ⟨pre, post, hgoals, hok⟩ := hg.granted hn hw title type
    exact .inr ⟨g, pre, post, hg, hgoals, hok⟩

theorem step_of_refused {o : Op} (h : s.apply o = .refused e) : s.step o = .ok s := by
  rw [step, h]
  rfl

/-- one goal in place of another: its weight is put in place of the other one -/
theorem weight_replaced {pre post : List Goal} (h : s.goals = pre ++ g :: post) (g' : Goal) :
    ({ s with goals := pre ++ g' :: post } : GoalSet).weight = s.weight - g.percentage.toInt + g'.percentage.toInt := by
  simp only [weight, h, List.map_append, List.map_cons, List.sum_append, List.sum_cons]
  ring

/-- **New definitions of goals.** In a set whose goals have distinct identities, and while no sum of weights leaves the
word, a new definition is granted exactly if the set is editable, has the goal, would weigh at most 100 with the new weight,
and the range of the goal is valid under the new type. Else it is refused with the first of these that fails, and the set
stays as it was. If it is granted, the goal has the new title, kinds and weight; its identity, its place, the points of its
range and its progress are the old ones, as is everything else in the set; and the total is the old one with the weight
replaced. -/
theorem goal_redefined (s : GoalSet) (i : Id) (title : String) (type : GoalType) (valueType : GoalValueType)
    (percentage : Int32) (distinct : (s.goals.map (·.id)).Nodup) (weighable : s.Weighable i percentage) :
    ((∃ t, s.updateGoal i title type valueType percentage = .ok t) ↔ ∃ g, s.Redefinable i valueType percentage g) ∧
    (∀ e, s.updateGoal i title type valueType percentage = .refused e ↔ s.Objection i valueType percentage e) ∧
    (∀ f, s.updateGoal i title type valueType percentage ≠ .fault f) ∧
    (∀ e, s.updateGoal i title type valueType percentage = .refused e →
      s.step (.updateGoal i title type valueType percentage) = .ok s) ∧
    ∀ t, s.updateGoal i title type valueType percentage = .ok t →
      ∃ pre g post, s.goals = pre ++ g :: post ∧ g.id = i ∧
        t = { s with goals := pre ++ g.redefine title type valueType percentage :: post } ∧
        ∃ old : Int32, s.totalPercentage = Outcome.ok (ε := GoalSetError) old ∧ ∀ new : Int32,
          t.totalPercentage = Outcome.ok (ε := GoalSetError) new ↔
            t.Summable ∧ new.toInt = old.toInt - g.percentage.toInt + percentage.toInt := by
  rcases updateGoal_cases distinct weighable title type valueType with
    ⟨e, he, hrefused⟩ | ⟨g, pre, post, hg, hgoals, hok⟩
  · rw [hrefused]
    have hnot : ∀ g, ¬s.Redefinable i valueType percentage g := by
      intro g hg
      obtain ⟨pre, post, -, hok⟩ := hg.granted distinct weighable title type
      exact nomatch hrefused.symm.trans hok
    refine ⟨by simp [hnot], ?_, nofun, ?_, nofun⟩
    · intro e'
      constructor
      · intro h
        exact Outcome.refused.inj h ▸ he
      · intro he'
        exact hrefused.symm.trans (he'.refused distinct weighable title type)
    · intro e' _
      exact step_of_refused hrefused
  · rw [hok]
    have hnot : ∀ e, ¬s.Objection i valueType percentage e := by
      intro e he
      exact nomatch hok.symm.trans (he.refused distinct weighable title type)
    refine ⟨iff_of_true ⟨_, rfl⟩ ⟨g, hg⟩, by simp [hnot], nofun, nofun, ?_⟩
    intro t ht
    obtain rfl := Outcome.ok.inj ht
    obtain ⟨old, hold, hweight⟩ := weighable.1.totalPercentage (ε := GoalSetError)
    refine ⟨pre, g, post, hgoals, hg.id_eq, rfl, old, hold, fun new => ?_⟩
    rw [totalPercentage_iff, weight_replaced hgoals, hweight]
    rfl

/-- two goals that weigh 150 together -/
def crowded : GoalSet :=
  ⟨.ofNat 1, 1, .ofNat 2, 5, some .returned,
    [⟨.ofNat 7, "Ship it", .team, ⟨10, 50, 100, .percentage⟩, 80, none⟩,
      ⟨.ofNat 8, "Call back", .team, ⟨0, 5, 200, .number⟩, 70, some (.submitted 6 none)⟩], 3⟩

/-- the second goal takes a weight of 20 and no more, and cannot be counted in per cent -/
theorem goal_redefined_crowded :
    (∃ t, crowded.updateGoal (.ofNat 8) "Call back" .team .number 20 = .ok t) ∧
    crowded.updateGoal (.ofNat 8) "Call back" .team .percentage 21 = .refused (.weightTooLarge 101) ∧
    crowded.updateGoal (.ofNat 8) "Call back" .team .percentage 20 = .refused (.badRange .outsidePercentage) := by
  have distinct : (crowded.goals.map (·.id)).Nodup := by decide
  have hmem : crowded.goals[1] ∈ crowded.goals := by decide
  have hid : crowded.goals[1].id = .ofNat 8 := rfl
  refine ⟨?_, ?_, ?_⟩
  · obtain ⟨hgranted, -⟩ := goal_redefined crowded (.ofNat 8) "Call back" .team .number 20 distinct (by decide)
    exact hgranted.2 ⟨crowded.goals[1], by decide, hmem, hid, by decide, by decide⟩
  · obtain ⟨-, hrefused, -⟩ := goal_redefined crowded (.ofNat 8) "Call back" .team .percentage 21 distinct (by decide)
    exact (hrefused _).2 (.heavy crowded.goals[1] 101 (by decide) hmem hid (by decide) (by decide))
  · obtain ⟨-, hrefused, -⟩ := goal_redefined crowded (.ofNat 8) "Call back" .team .percentage 20 distinct (by decide)
    exact (hrefused _).2 (.invalid crowded.goals[1] _ (by decide) hmem hid (by decide) (by decide))

end GoalSet

end Brigade
