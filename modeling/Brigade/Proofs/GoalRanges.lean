/-
Ranges of goals, on every way on which one comes about: made, put under another type, read from a text alone or in a goal
or in a goal set, and kept in a set along any run of operations.

Three conditions are looked at in one order, and `GoalValue.violated?` is the first that fails. Every way goes through
`GoalValue.create`, so all of them accept the same ranges and report the same condition (`create_eq`, `updateGoal_eq`,
`AcceptsValid`). A new definition of a goal may change the type of its range, and checks the range under it; it does not
touch the three points (`points_of_change`).
- `goal_ranges`: all of this, for every range that can be reached.

What a text states before any condition is looked at is told by readers without the conditions (`GoalValue.stated`,
`Goal.readWith`, `GoalSet.readWith`); the readers of the types are these with the conditions put back.
-/
import Brigade.Proofs.RoundTrip
import Brigade.Proofs.SiftedReaders

namespace Brigade

/-! ## The conditions -/

/-- what is wrong with a range that is refused with `e` -/
def GoalValueError.Blames (e : GoalValueError) (v : GoalValue) : Prop :=
  match e with
  | .minNotBelowMid => ¬v.min < v.mid
  | .midNotBelowMax => ¬v.mid < v.max
  | .outsidePercentage => v.type = .percentage ∧ ¬(1 ≤ v.min ∧ v.max ≤ 100)

instance (e : GoalValueError) (v : GoalValue) : Decidable (e.Blames v) :=
  match e with
  | .minNotBelowMid => inferInstanceAs (Decidable (¬v.min < v.mid))
  | .midNotBelowMax => inferInstanceAs (Decidable (¬v.mid < v.max))
  | .outsidePercentage => inferInstanceAs (Decidable (v.type = .percentage ∧ ¬(1 ≤ v.min ∧ v.max ≤ 100)))

namespace GoalValue

/-- the first condition that a range violates -/
def violated? (v : GoalValue) : Option GoalValueError :=
  [.minNotBelowMid, .midNotBelowMax, .outsidePercentage].find? fun e => decide (e.Blames v)

theorem violated?_eq_none {v : GoalValue} : v.violated? = none ↔ v.Valid := by
  simp [violated?, GoalValueError.Blames, Valid]

/-- the range if it violates nothing, and else the first condition that it violates -/
def checked (v : GoalValue) : Outcome GoalValueError GoalValue :=
  match v.violated? with
  | none => .ok v
  | some e => .refused e

theorem create_eq (min mid max : Int32) (type : GoalValueType) : create min mid max type = checked ⟨min, mid, max, type⟩ := by
  have hmin : min ≥ mid ↔ GoalValueError.Blames .minNotBelowMid ⟨min, mid, max, type⟩ := Int32.not_lt.symm
  have hmax : mid ≥ max ↔ GoalValueError.Blames .midNotBelowMax ⟨min, mid, max, type⟩ := Int32.not_lt.symm
  have hout : (type = .percentage ∧ (min < 1 ∨ max > 100)) ↔
      GoalValueError.Blames .outsidePercentage ⟨min, mid, max, type⟩ := by
    rw [GoalValueError.Blames, not_and_or, Int32.not_le, Int32.not_le]
  simp only [create, checked, violated?, hmin, hmax, hout]
  by_cases h₁ : GoalValueError.Blames .minNotBelowMid ⟨min, mid, max, type⟩
  · simp [h₁]
  · by_cases h₂ : GoalValueError.Blames .midNotBelowMax ⟨min, mid, max, type⟩
    · simp [h₁, h₂]
    · by_cases h₃ : GoalValueError.Blames .outsidePercentage ⟨min, mid, max, type⟩ <;> simp [h₁, h₂, h₃]

theorem withType_eq (v : GoalValue) (type : GoalValueType) : v.withType type = checked { v with type := type } :=
  create_eq v.min v.mid v.max type

end GoalValue

/-! ## Texts -/

/-- readers that differ in the conditions on ranges only: `accepts` takes a text exactly if `states` takes it and all ranges
that it states are valid; and it refuses a text that `states` takes for the first condition that the first bad range
violates -/
def AcceptsValid {α : Type} (states accepts : Reader α) (ranges : α → List GoalValue) : Prop :=
  ∀ text a,
    (Reader.ofText accepts text = .ok a ↔ Reader.ofText states text = .ok a ∧ ∀ v ∈ ranges a, v.Valid) ∧
    ∀ e, Reader.ofText states text = .ok a → (ranges a).findSome? GoalValue.violated? = some e →
      Reader.ofText accepts text = .error (.refused e.message)

/-- the mistake that a text makes by stating these ranges -/
def flawOf (vs : List GoalValue) : Option ReadError :=
  (vs.findSome? GoalValue.violated?).map fun e => .refused e.message

theorem flawOf_eq_none {vs : List GoalValue} : flawOf vs = none ↔ ∀ v ∈ vs, v.Valid := by
  simp [flawOf, GoalValue.violated?_eq_none]

theorem flawOf_singleton (v : GoalValue) : flawOf [v] = v.violated?.map fun e => .refused e.message := by
  simp [flawOf]

/-- the first flaw of parts is that of all their ranges in a row -/
theorem findSome?_flawOf (f : Goal → GoalValue) (gs : List Goal) :
    gs.findSome? (fun g => flawOf [f g]) = flawOf (gs.map f) := by
  simp only [flawOf_singleton]
  rw [flawOf, List.findSome?_map, List.map_findSome?]
  rfl

theorem acceptsValid_of_sifts {α : Type} {states accepts : Reader α} {ranges : α → List GoalValue}
    (h : Reader.Sifts (fun a => flawOf (ranges a)) states accepts) : AcceptsValid states accepts ranges := by
  intro text a
  obtain ⟨hok, hflaw⟩ := h.ofText (a := a) text
  rw [flawOf_eq_none] at hok
  exact ⟨hok, fun e hstates he => hflaw _ hstates (by rw [flawOf, he]; rfl)⟩

open Reader

theorem GoalValue.sifts_stated : Sifts (fun v => flawOf [v]) stated read := by
  have hread : read = fun j => stated j >>= Reader.sift fun v => flawOf [v] := by
    funext j
    change (stated j >>= fun v => ofOutcome GoalValueError.message (create v.min v.mid v.max v.type)) = _
    congr
    funext v
    rw [create_eq, checked, sift, flawOf_singleton]
    cases v.violated? <;> rfl
  rw [hread]
  exact .of_sift stated

theorem Goal.sifts_readWith {range range' : Reader GoalValue} (h : Sifts (fun v => flawOf [v]) range range') :
    Sifts (fun g : Goal => flawOf [g.value]) (readWith range) (readWith range') := by
  refine Sifts.record ((fieldsWith range).take 3) ((fieldsWith range).drop 4) h (i := 3)
    (by simp [fieldsWith, field]) ?_ fun s g hg => ?_
  · refine .after _ fun id => .after _ fun title => .after _ fun type => ?_
    refine (h.required 3 "goal_value").before fun v s g hg => ?_
    obtain ⟨percentage, -, hg⟩ := Except.bind_eq_ok.1 hg
    obtain ⟨progress, -, hg⟩ := Except.bind_eq_ok.1 hg
    obtain rfl := Except.ok.inj hg
    rfl
  · obtain ⟨id, -, hg⟩ := Except.bind_eq_ok.1 hg
    obtain ⟨title, -, hg⟩ := Except.bind_eq_ok.1 hg
    obtain ⟨type, -, hg⟩ := Except.bind_eq_ok.1 hg
    obtain ⟨value, hvalue, hg⟩ := Except.bind_eq_ok.1 hg
    obtain ⟨percentage, -, hg⟩ := Except.bind_eq_ok.1 hg
    obtain ⟨progress, -, hg⟩ := Except.bind_eq_ok.1 hg
    obtain rfl := Except.ok.inj hg
    exact ⟨value, hvalue, rfl⟩

theorem GoalSet.sifts_readWith {goal goal' : Reader Goal} (h : Sifts (fun g => flawOf [g.value]) goal goal') :
    Sifts (fun s : GoalSet => flawOf (s.goals.map (·.value))) (readWith goal) (readWith goal') := by
  refine Sifts.record ((fieldsWith goal).take 5) ((fieldsWith goal).drop 6) h.list (i := 5)
    (by simp [fieldsWith, field]) ?_ fun s set hset => ?_
  · refine .after _ fun id => .after _ fun team => .after _ fun period => .after _ fun user => .after _ fun status => ?_
    refine (h.list.required 5 "goals").before fun goals s set hset => ?_
    obtain ⟨version, -, hset⟩ := Except.bind_eq_ok.1 hset
    obtain rfl := Except.ok.inj hset
    exact (findSome?_flawOf (·.value) goals).symm
  · obtain ⟨id, -, hset⟩ := Except.bind_eq_ok.1 hset
    obtain ⟨team, -, hset⟩ := Except.bind_eq_ok.1 hset
    obtain ⟨period, -, hset⟩ := Except.bind_eq_ok.1 hset
    obtain ⟨user, -, hset⟩ := Except.bind_eq_ok.1 hset
    obtain ⟨status, -, hset⟩ := Except.bind_eq_ok.1 hset
    obtain ⟨goals, hgoals, hset⟩ := Except.bind_eq_ok.1 hset
    obtain ⟨version, -, hset⟩ := Except.bind_eq_ok.1 hset
    obtain rfl := Except.ok.inj hset
    exact ⟨goals, hgoals, (findSome?_flawOf (·.value) goals).symm⟩

/-! ## Goal sets -/

/-- the identity of a goal and the three points of its range -/
def Goal.points (g : Goal) : Id × Int32 × Int32 × Int32 := (g.id, g.value.min, g.value.mid, g.value.max)

namespace GoalSet

variable {s t : GoalSet} {o : Op}

/-- the sum of all weights after a goal has got another weight -/
def reweighed (s : GoalSet) (g : Goal) (percentage : Int32) : Outcome GoalSetError Int32 := do
  let total ← s.totalPercentage
  let others ← Word.subExact total g.percentage
  Word.addExact others percentage

/-- a new definition that nothing else stands against is granted if the range is valid under the new type, and else refused
for the first condition that it violates -/
theorem updateGoal_eq {i : Id} {g : Goal} {w percentage : Int32} (title : String) (type : GoalType)
    (valueType : GoalValueType) (editable : s.isEditable = true) (found : s.goal? i = some g)
    (sum : s.reweighed g percentage = .ok w) (room : w ≤ 100) :
    s.updateGoal i title type valueType percentage =
      match ({ g.value with type := valueType } : GoalValue).violated? with
      | none => .ok (s.changeGoal i fun g' =>
          { g' with title := title, type := type, value := { g.value with type := valueType }, percentage := percentage })
      | some e => .refused (.badRange e) := by
  obtain ⟨total, htotal, hw⟩ := Outcome.bind_eq_ok.1 sum
  obtain ⟨others, hothers, hw⟩ := Outcome.bind_eq_ok.1 hw
  simp only [updateGoal, editable, found, htotal, hothers, hw, Outcome.ok_bind, Bool.not_true, Bool.false_eq_true,
    if_false, if_neg (Int32.not_lt.2 room), GoalValue.withType_eq, GoalValue.checked]
  cases ({ g.value with type := valueType } : GoalValue).violated? <;> rfl

/-- goals keep their identities and the points of their ranges, in their order, and a new goal comes last -/
theorem points_of_change (h : Change s o t) :
    t.goals.map Goal.points = s.goals.map Goal.points ++
      match o with
      | .addGoal i _ _ v _ => [(i, v.min, v.mid, v.max)]
      | _ => [] := by
  cases h with
  | added i title type value percentage editable => simp [Goal.points]
  | redefined i title type valueType percentage g value editable found room fits =>
    obtain ⟨rfl, -⟩ := GoalValue.create_eq_ok.1 fits
    exact (map_updateFirst_of_find? found rfl).trans (List.append_nil _).symm
  | submitted i actual comment g found => exact (map_updateFirst_of_find? found rfl).trans (List.append_nil _).symm
  | progressApproved i g p found there => exact (map_updateFirst_of_find? found rfl).trans (List.append_nil _).symm
  | progressRejected i g p found there => exact (map_updateFirst_of_find? found rfl).trans (List.append_nil _).symm
  | _ => exact (List.append_nil _).symm

theorem points_of_run {os : List Op} (h : s.run os = .ok t) : s.goals.map Goal.points <+: t.goals.map Goal.points := by
  induction os using List.reverseRecOn generalizing t with
  | nil =>
    obtain rfl := Except.ok.inj h
    exact List.prefix_refl _
  | append_singleton os o ih =>
    obtain ⟨m, hm, hstep⟩ := run_snoc.1 h
    refine (ih hm).trans ?_
    rcases step_eq_ok hstep with rfl | ha
    · exact List.prefix_refl _
    · exact ⟨_, (points_of_change (change_of_apply ha)).symm⟩

/-- a set made by operations with ranges that can be reached can be reached -/
theorem reachable_run {os : List Op} (hs : Reachable (.aggregate .goalSet) s) (h : s.run os = .ok t)
    (hvalues : ∀ i title type v percentage, .addGoal i title type v percentage ∈ os → Reachable .goalValue v) :
    Reachable (.aggregate .goalSet) t := by
  induction os using List.reverseRecOn generalizing t with
  | nil => exact Except.ok.inj h ▸ hs
  | append_singleton os o ih =>
    obtain ⟨m, hm, hstep⟩ := run_snoc.1 h
    have hmreach := ih hm fun i title type v percentage ho => hvalues i title type v percentage (by simp [ho])
    rcases step_eq_ok hstep with rfl | ha
    · exact hmreach
    · exact hmreach.goalSetChanged o (fun i title type v percentage ho => hvalues i title type v percentage (by simp [ho])) ha

end GoalSet

/-- **Ranges of goals.** A range that can be reached is strictly increasing, and within 1 to 100 if it is in per cent; so is
every range in a goal set after any run of operations. No operation moves a point of a range. And making a range, putting
it under another type, defining a goal anew, and reading a range, a goal or a goal set from a text all accept the same
ranges, and report the first condition that a range violates. -/
theorem goal_ranges :
    (∀ v, Reachable .goalValue v → v.Valid) ∧
    (∀ (s t : GoalSet) os, Reachable (.aggregate .goalSet) s →
      (∀ i title type v percentage, .addGoal i title type v percentage ∈ os → Reachable .goalValue v) →
      s.run os = .ok t → (∀ g ∈ t.goals, g.value.Valid) ∧ s.goals.map Goal.points <+: t.goals.map Goal.points) ∧
    (∀ (s t : GoalSet) i title type valueType percentage, s.updateGoal i title type valueType percentage = .ok t →
      t.goals.map Goal.points = s.goals.map Goal.points) ∧
    (∀ min mid max type, GoalValue.create min mid max type = GoalValue.checked ⟨min, mid, max, type⟩) ∧
    (∀ (v : GoalValue) type, v.withType type = GoalValue.checked { v with type := type }) ∧
    (∀ (s : GoalSet) i (g : Goal) title type valueType percentage w, s.isEditable = true → s.goal? i = some g →
      s.reweighed g percentage = .ok w → w ≤ 100 →
      s.updateGoal i title type valueType percentage =
        match ({ g.value with type := valueType } : GoalValue).violated? with
        | none => .ok (s.changeGoal i fun g' =>
            { g' with title := title, type := type, value := { g.value with type := valueType },
                      percentage := percentage })
        | some e => .refused (.badRange e)) ∧
    (∀ v : GoalValue, v.violated? = none ↔ v.Valid) ∧
    AcceptsValid GoalValue.stated GoalValue.read (fun v => [v]) ∧
    AcceptsValid (Goal.readWith GoalValue.stated) Goal.read (fun g => [g.value]) ∧
    AcceptsValid (GoalSet.readWith (Goal.readWith GoalValue.stated)) GoalSet.read (fun s => s.goals.map (·.value)) := by
  have hgoal : Reader.Sifts (fun g : Goal => flawOf [g.value]) (Goal.readWith GoalValue.stated) Goal.read :=
    Goal.sifts_readWith GoalValue.sifts_stated
  refine ⟨fun v hv => hv.consistent, fun s t os hs hvalues h => ?_, ?_, GoalValue.create_eq, GoalValue.withType_eq,
    ?_, fun v => GoalValue.violated?_eq_none, acceptsValid_of_sifts GoalValue.sifts_stated, acceptsValid_of_sifts hgoal,
    acceptsValid_of_sifts (GoalSet.sifts_readWith hgoal)⟩
  · exact ⟨(GoalSet.reachable_run hs h hvalues).consistent, GoalSet.points_of_run h⟩
  · intro s t i title type valueType percentage h
    exact (GoalSet.points_of_change (GoalSet.updateGoal_eq_ok h)).trans (List.append_nil _)
  · intro s i g title type valueType percentage w editable found sum room
    exact GoalSet.updateGoal_eq title type valueType editable found sum room

/-- a goal in per cent, defined anew as a number and back -/
def switched : List GoalSet.Op :=
  [.addGoal (.ofNat 7) "Ship it" .team ⟨10, 50, 100, .percentage⟩ 100,
    .updateGoal (.ofNat 7) "Ship it" .team .number 100, .updateGoal (.ofNat 7) "Ship it" .team .percentage 100]

theorem goal_ranges_switched :
    ∃ s t, GoalSet.create (.ofNat 1) 1 (.ofNat 2) 5 = .ok s ∧ s.run switched = .ok t ∧
      t.goals.map (·.value) = [⟨10, 50, 100, .percentage⟩] ∧ (∀ g ∈ t.goals, g.value.Valid) ∧
      Reader.ofText GoalValue.stated "[3, 3, 1, \"Number\"]" = .ok ⟨3, 3, 1, .number⟩ ∧
      Reader.ofText GoalValue.read "[3, 3, 1, \"Number\"]" = .error (.refused "Min value must be less than mid value") := by
  obtain ⟨-, hruns, -, -, -, -, -, htexts, -⟩ := goal_ranges
  have hcreate : GoalSet.create (.ofNat 1) 1 (.ofNat 2) 5 = .ok ⟨.ofNat 1, 1, .ofNat 2, 5, none, [], 1⟩ := rfl
  have hvalues : ∀ i title type v percentage, .addGoal i title type v percentage ∈ switched → Reachable .goalValue v := by
    intro i title type v percentage ho
    obtain rfl : v = ⟨10, 50, 100, .percentage⟩ := by simp_all [switched]
    exact .valueCreated (by decide : GoalValue.create 10 50 100 .percentage = _)
  have hstated : Reader.ofText GoalValue.stated "[3, 3, 1, \"Number\"]" = .ok ⟨3, 3, 1, .number⟩ := by decide +kernel
  refine ⟨_, _, hcreate, rfl, by decide, ?_, hstated, (htexts _ _).2 .minNotBelowMid hstated (by decide)⟩
  exact (hruns _ _ switched (.goalSetCreated hcreate) hvalues rfl).1

end Brigade
