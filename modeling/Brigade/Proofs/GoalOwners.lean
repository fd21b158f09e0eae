/-
Who owns which goal set, along every sequence of commands.

A command adds a period, or a set in a stored period of its team, or leaves the periods and the owners of sets alone
(`GoalStep`, `goalStep`). So the invariant `Owned` is kept by every command (`Owned.step`) and holds along every sequence
that starts without periods and sets (`owned`): keys and identities are exclusive, and the stored sets are the ones that
were created (`CreatedFor`), each in the period of its team.
- `goals_accounted`: what the invariant means to a caller. A period or a set is refused exactly when it is there, a set
  is refused for its year exactly when there is no period of it, and a set is found by the team, year and user for whom it
  was created, however the store lists its contents.
-/
import Brigade.Proofs.Additions
import Brigade.Proofs.GoalAnswers
import Brigade.Proofs.TextForms

namespace Brigade

/-- whose set it is, in which period, and under which identity -/
def GoalSet.owner (g : GoalSet) : Id × Int32 × Id × Int32 := (g.id, g.teamId, g.periodId, g.userId)

/-- the period of a team and year is stored -/
def Store.HasPeriod (s : Store) (teamId year : Int32) : Prop :=
  ∃ p ∈ s.goalPeriods.items, p.isFor teamId year = true

/-- the set belongs to the user, in the stored period of the team and year -/
def Store.IsSetOf (s : Store) (g : GoalSet) (teamId year userId : Int32) : Prop :=
  ∃ p ∈ s.goalPeriods.items, p.isFor teamId year = true ∧ g.teamId = teamId ∧ g.periodId = p.id ∧ g.userId = userId

/-- a set of the user for the team and year is stored -/
def Store.HasSet (s : Store) (teamId year userId : Int32) : Prop :=
  ∃ g ∈ s.goalSets.items, s.IsSetOf g teamId year userId

theorem Store.HasSet.hasPeriod {s : Store} {t y u : Int32} (h : s.HasSet t y u) : s.HasPeriod t y := by
  obtain ⟨g, -, p, hp, hfor, -⟩ := h
  exact ⟨p, hp, hfor⟩

theorem GoalSet.owner_eq {g g' : GoalSet} :
    g.owner = g'.owner ↔ g.id = g'.id ∧ g.teamId = g'.teamId ∧ g.periodId = g'.periodId ∧ g.userId = g'.userId := by
  simp [owner]

theorem GoalPeriod.isFor_iff {p : GoalPeriod} {t y : Int32} : p.isFor t y = true ↔ p.teamId = t ∧ p.year = y := by
  simp [isFor]

/-! ## One command -/

/-- what a command that draws these identities makes of the periods and of the owners of sets -/
inductive GoalStep (c : Command) (ids : List Id) (s t : Store) : Prop where
  | kept (periods : t.goalPeriods.items = s.goalPeriods.items)
      (owners : t.goalSets.items.map GoalSet.owner = s.goalSets.items.map GoalSet.owner)
  | periodAdded (a : AddGoalPeriod) (i : Id) (command : c = .addGoalPeriod a)
      (periods : t.goalPeriods.items = s.goalPeriods.items ++ [⟨i, a.teamId, a.year, 1⟩])
      (sets : t.goalSets.items = s.goalSets.items)
  | setAdded (a : CreateGoalSet) (i : Id) (p : GoalPeriod) (command : c = .createGoalSet a) (drawn : i ∈ ids)
      (home : p ∈ s.goalPeriods.items) (isFor : p.isFor a.teamId a.year = true)
      (unused : ∀ g ∈ s.goalSets.items, g.id ≠ i)
      (periods : t.goalPeriods.items = s.goalPeriods.items)
      (sets : t.goalSets.items = s.goalSets.items ++ [⟨i, a.teamId, p.id, a.userId, none, [], 1⟩])

/-- a write that a command may make is one of these -/
theorem goalStep_of_wrote {w : Solo} {d : Solo.Drawn} {u : Write} {t : Store} (hu : w.Allows d u)
    (h : w.before.store.Wrote u t) : GoalStep w.command d.ids w.before.store t := by
  cases h with
  | @added k a free unused =>
    cases k with
    | order => exact .kept rfl rfl
    | table => exact .kept rfl rfl
    | menuItem => exact .kept rfl rfl
    | goalPeriod =>
      obtain ⟨c, i, hc, -, rfl⟩ := hu
      exact .periodAdded c i hc rfl rfl
    | goalSet =>
      obtain ⟨c, i, p, hc, hi, hp, hfor, rfl⟩ := hu
      exact .setAdded c i p hc hi hp hfor unused rfl rfl
  | @changed k old new pre post op place first granted id version =>
    cases k with
    | order => exact .kept rfl rfl
    | table => exact .kept rfl rfl
    | menuItem => exact .kept rfl rfl
    | goalPeriod => exact op.elim
    | goalSet =>
      have howner := congrArg GoalSet.owner (GoalSet.apply_frame granted)
      change GoalSet.owner new = GoalSet.owner old at howner
      have hplace : w.before.store.goalSets.items = pre ++ old :: post := place
      refine .kept rfl ?_
      change (pre ++ new :: post).map GoalSet.owner = w.before.store.goalSets.items.map GoalSet.owner
      rw [hplace, List.map_append, List.map_append, List.map_cons, List.map_cons, howner]

theorem goalStep (w : Solo) : ∃ d, w.Drew d w.outcome.2 ∧ GoalStep w.command d.ids w.before.store w.outcome.2.store := by
  obtain ⟨d, hdrew, hstore | ⟨u, hu, hwrote⟩⟩ := w.outcome_wrote
  · refine ⟨d, hdrew, ?_⟩
    rw [hstore]
    exact .kept rfl rfl
  · exact ⟨d, hdrew, goalStep_of_wrote hu hwrote⟩

namespace GoalStep

variable {c : Command} {ids : List Id} {s t : Store}

/-- no period is lost -/
theorem mem_periods (h : GoalStep c ids s t) {p : GoalPeriod} (hp : p ∈ s.goalPeriods.items) :
    p ∈ t.goalPeriods.items := by
  cases h with
  | kept periods owners => rwa [periods]
  | periodAdded a i command periods sets =>
    rw [periods]
    exact List.mem_append_left _ hp
  | setAdded a i p' command drawn home isFor unused periods sets => rwa [periods]

/-- no set is lost, and none changes its owner -/
theorem owner_kept (h : GoalStep c ids s t) {g : GoalSet} (hg : g ∈ s.goalSets.items) :
    ∃ g' ∈ t.goalSets.items, g'.owner = g.owner := by
  cases h with
  | kept periods owners =>
    have hmem : g.owner ∈ t.goalSets.items.map GoalSet.owner := owners ▸ List.mem_map_of_mem hg
    exact List.mem_map.1 hmem
  | periodAdded a i command periods sets => exact ⟨g, sets ▸ hg, rfl⟩
  | setAdded a i p command drawn home isFor unused periods sets =>
    exact ⟨g, sets ▸ List.mem_append_left _ hg, rfl⟩

/-- a set belongs to the same user, as long as its owner is the same -/
theorem isSetOf (h : GoalStep c ids s t) {g g' : GoalSet} {team year user : Int32} (howner : g'.owner = g.owner)
    (hset : s.IsSetOf g team year user) : t.IsSetOf g' team year user := by
  obtain ⟨-, hteam, hperiod, huser⟩ := GoalSet.owner_eq.1 howner
  obtain ⟨p, hp, hfor, rfl, hhome, rfl⟩ := hset
  exact ⟨p, h.mem_periods hp, hfor, hteam, hperiod.trans hhome, huser⟩

/-- a set that is stored was stored before, or has just been created in a stored period -/
theorem owner_origin (h : GoalStep c ids s t) {g : GoalSet} (hg : g ∈ t.goalSets.items) :
    (∃ g' ∈ s.goalSets.items, g'.owner = g.owner) ∨
      ∃ y, c = .createGoalSet ⟨g.teamId, g.userId, y⟩ ∧ g.id ∈ ids ∧ s.IsSetOf g g.teamId y g.userId ∧
        ∀ g' ∈ s.goalSets.items, g'.id ≠ g.id := by
  cases h with
  | kept periods owners =>
    have hmem : g.owner ∈ s.goalSets.items.map GoalSet.owner := owners ▸ List.mem_map_of_mem hg
    exact .inl (List.mem_map.1 hmem)
  | periodAdded a i command periods sets => exact .inl ⟨g, sets ▸ hg, rfl⟩
  | setAdded a i p command drawn home isFor unused periods sets =>
    rw [sets] at hg
    rcases List.mem_append.1 hg with hg | hg
    · exact .inl ⟨g, hg, rfl⟩
    · obtain rfl := List.mem_singleton.1 hg
      exact .inr ⟨a.year, command, drawn, ⟨p, home, isFor, rfl, rfl, rfl⟩, unused⟩

end GoalStep

/-! ## Sequences of commands -/

namespace Service

variable {env : Surroundings} {settings : Settings} {start : Service} {cs : List (Listing × Command)} {l : Listing}
  {c : Command} {t y u : Int32} {i : Id}

/-- one of the commands, for this team, year and user, stored a set under this identity -/
def CreatedFor (env : Surroundings) (settings : Settings) (start : Service) (cs : List (Listing × Command))
    (teamId year userId : Int32) (i : Id) : Prop :=
  ∃ before, Added env settings start cs .goalSet i (.createGoalSet ⟨teamId, userId, year⟩) before

/-- keys and identities are exclusive, and the stored sets are the ones that were created -/
structure Owned (env : Surroundings) (settings : Settings) (start : Service) (cs : List (Listing × Command))
    (s : Service) : Prop where
  periods : s.store.goalPeriods.Indexed
  sets : s.store.goalSets.Indexed
  periodIds : (s.store.goalPeriods.items.map GoalPeriod.id).Nodup
  setIds : (s.store.goalSets.items.map GoalSet.id).Nodup
  /-- sets have identities that were drawn since the start -/
  drawn : start.idsDrawn ≤ s.idsDrawn ∧
    ∀ g ∈ s.store.goalSets.items, ∃ m, start.idsDrawn ≤ m ∧ m < s.idsDrawn ∧ g.id = env.ids m
  /-- a stored set was created for its user, in the year of its period -/
  made : ∀ g ∈ s.store.goalSets.items, ∃ y, s.store.IsSetOf g g.teamId y g.userId ∧
    CreatedFor env settings start cs g.teamId y g.userId g.id
  /-- a set that was created is stored -/
  stored : ∀ t y u i, CreatedFor env settings start cs t y u i →
    ∃ g ∈ s.store.goalSets.items, g.id = i ∧ s.store.IsSetOf g t y u

theorem owned_start (hperiods : start.store.goalPeriods = .empty) (hsets : start.store.goalSets = .empty) :
    Owned env settings start [] start where
  periods := hperiods ▸ Repository.indexed_empty
  sets := hsets ▸ Repository.indexed_empty
  periodIds := by rw [hperiods]; exact List.nodup_nil
  setIds := by rw [hsets]; exact List.nodup_nil
  drawn := ⟨le_rfl, by rw [hsets]; exact fun g hg => nomatch hg⟩
  made := by rw [hsets]; exact fun g hg => nomatch hg
  stored := fun _ _ _ _ ⟨_, hadded⟩ => absurd hadded not_added_nil

/-- what a command makes of the service, as far as goals are concerned -/
theorem goalStep_executeIn (l : Listing) (env : Surroundings) (settings : Settings) (c : Command) (s : Service) :
    s.idsDrawn ≤ (s.executeIn l env settings c).2.idsDrawn ∧
      ∃ ids, (∀ i ∈ ids, ∃ m, s.idsDrawn ≤ m ∧ m < (s.executeIn l env settings c).2.idsDrawn ∧ i = env.ids m) ∧
        GoalStep c ids s.store (s.executeIn l env settings c).2.store := by
  obtain ⟨d, hdrew, hstep⟩ := goalStep ⟨env, l, settings, c, s⟩
  exact ⟨hdrew.idsDrawn ▸ Nat.le_add_right _ _, d.ids, fun i hi => hdrew.exists_of_mem hi, hstep⟩

namespace Owned

theorem drawn_step (h : Owned env settings start cs (start.executeAllIn env settings cs)) :
    start.idsDrawn ≤ (start.executeAllIn env settings (cs ++ [(l, c)])).idsDrawn ∧
      ∀ g ∈ (start.executeAllIn env settings (cs ++ [(l, c)])).store.goalSets.items,
        ∃ m, start.idsDrawn ≤ m ∧ m < (start.executeAllIn env settings (cs ++ [(l, c)])).idsDrawn ∧ g.id = env.ids m := by
  rw [executeAllIn_snoc]
  obtain ⟨hmore, ids, hids, hstep⟩ := goalStep_executeIn l env settings c (start.executeAllIn env settings cs)
  refine ⟨h.drawn.1.trans hmore, fun g hg => ?_⟩
  rcases hstep.owner_origin hg with ⟨g', hg', howner⟩ | ⟨y, -, hdrawn, -⟩
  · obtain ⟨m, hfirst, hlast, hid⟩ := h.drawn.2 g' hg'
    exact ⟨m, hfirst, hlast.trans_le hmore, (GoalSet.owner_eq.1 howner).1 ▸ hid⟩
  · obtain ⟨m, hfirst, hlast, hid⟩ := hids g.id hdrawn
    exact ⟨m, h.drawn.1.trans hfirst, hlast, hid⟩

theorem made_step (h : Owned env settings start cs (start.executeAllIn env settings cs)) {g : GoalSet}
    (hg : g ∈ (start.executeAllIn env settings (cs ++ [(l, c)])).store.goalSets.items) :
    ∃ y, (start.executeAllIn env settings (cs ++ [(l, c)])).store.IsSetOf g g.teamId y g.userId ∧
      CreatedFor env settings start (cs ++ [(l, c)]) g.teamId y g.userId g.id := by
  rw [executeAllIn_snoc] at hg ⊢
  obtain ⟨-, ids, -, hstep⟩ := goalStep_executeIn l env settings c (start.executeAllIn env settings cs)
  rcases hstep.owner_origin hg with ⟨g', hg', howner⟩ | ⟨y, rfl, -, hset, hunused⟩
  · obtain ⟨y, hset, before, hadded⟩ := h.made g' hg'
    obtain ⟨hid, hteam, -, huser⟩ := GoalSet.owner_eq.1 howner
    rw [hteam, huser] at hset hadded
    rw [hid] at hadded
    exact ⟨y, hstep.isSetOf howner.symm hset, before, added_snoc.2 (.inl hadded)⟩
  · refine ⟨y, hstep.isSetOf rfl hset, _, added_snoc.2 (.inr ⟨rfl, rfl, ?_, ?_⟩)⟩
    · exact Repository.get?_eq_none.2 hunused
    · exact fun hnone => Repository.get?_eq_none.1 hnone g hg rfl

theorem stored_step (h : Owned env settings start cs (start.executeAllIn env settings cs))
    (hcreated : CreatedFor env settings start (cs ++ [(l, c)]) t y u i) :
    ∃ g ∈ (start.executeAllIn env settings (cs ++ [(l, c)])).store.goalSets.items,
      g.id = i ∧ (start.executeAllIn env settings (cs ++ [(l, c)])).store.IsSetOf g t y u := by
  rw [executeAllIn_snoc]
  obtain ⟨-, ids, -, hstep⟩ := goalStep_executeIn l env settings c (start.executeAllIn env settings cs)
  obtain ⟨before, hadded⟩ := hcreated
  rcases added_snoc.1 hadded with hold | ⟨rfl, rfl, hnone, hstored⟩
  · obtain ⟨g, hg, hid, hset⟩ := h.stored t y u i ⟨before, hold⟩
    obtain ⟨g', hg', howner⟩ := hstep.owner_kept hg
    exact ⟨g', hg', (GoalSet.owner_eq.1 howner).1.trans hid, hstep.isSetOf howner hset⟩
  · obtain ⟨g, hget⟩ := Option.ne_none_iff_exists'.1 hstored
    have hg := Repository.mem_of_get? hget
    obtain rfl : g.id = i := Repository.id_of_get? hget
    rcases hstep.owner_origin hg with ⟨g', hg', howner⟩ | ⟨y', hc, -, hset, -⟩
    · exact absurd (GoalSet.owner_eq.1 howner).1 (Repository.get?_eq_none.1 hnone g' hg')
    · obtain ⟨rfl, rfl, rfl⟩ : t = g.teamId ∧ u = g.userId ∧ y = y' := by simpa using hc
      exact ⟨g, hg, rfl, hstep.isSetOf rfl hset⟩

/-- **One command.** Every command keeps the keys and identities exclusive, and the stored sets the created ones. -/
theorem step (h : Owned env settings start cs (start.executeAllIn env settings cs)) (l : Listing) (c : Command) :
    Owned env settings start (cs ++ [(l, c)]) (start.executeAllIn env settings (cs ++ [(l, c)])) := by
  have hperiods := executeIn_exclusive l env settings c _ .goalPeriod (fun _ => rfl) h.periods h.periodIds
  have hsets := executeIn_exclusive l env settings c _ .goalSet (fun _ => rfl) h.sets h.setIds
  rw [← executeAllIn_snoc] at hperiods hsets
  exact ⟨hperiods.1, hsets.1, hperiods.2, hsets.2, h.drawn_step, fun g hg => h.made_step hg,
    fun t y u i hcreated => h.stored_step hcreated⟩

end Owned

/-- what the commands leave, if there were no periods and no sets at the start -/
theorem owned (env : Surroundings) (settings : Settings) (cs : List (Listing × Command))
    (hperiods : start.store.goalPeriods = .empty) (hsets : start.store.goalSets = .empty) :
    Owned env settings start cs (start.executeAllIn env settings cs) := by
  induction cs using List.reverseRecOn with
  | nil => exact owned_start hperiods hsets
  | append_singleton cs c ih => exact ih.step c.1 c.2

/-! ## What is stored -/

namespace Owned

variable {s : Service}

theorem one_period (h : Owned env settings start cs s) :
    (s.store.goalPeriods.items.map fun p => (p.teamId, p.year)).Nodup := by
  have hkeys : s.store.goalPeriods.storedKeys =
      (s.store.goalPeriods.items.map fun p => (p.teamId, p.year)).map fun x => some (.period x.1 x.2) := by
    rw [List.map_map]
    rfl
  exact List.Nodup.of_map _ (hkeys ▸ h.periods.nodup)

theorem one_set (h : Owned env settings start cs s) :
    (s.store.goalSets.items.map fun g => (g.teamId, g.periodId, g.userId)).Nodup := by
  have hkeys : s.store.goalSets.storedKeys =
      (s.store.goalSets.items.map fun g => (g.teamId, g.periodId, g.userId)).map fun x =>
        some (.goalSet x.1 x.2.1 x.2.2) := by
    rw [List.map_map]
    rfl
  exact List.Nodup.of_map _ (hkeys ▸ h.sets.nodup)

theorem period_unique (h : Owned env settings start cs s) {p p' : GoalPeriod} (hp : p ∈ s.store.goalPeriods.items)
    (hp' : p' ∈ s.store.goalPeriods.items) (hfor : p.isFor t y = true) (hfor' : p'.isFor t y = true) : p = p' := by
  obtain ⟨rfl, rfl⟩ := GoalPeriod.isFor_iff.1 hfor
  obtain ⟨hteam, hyear⟩ := GoalPeriod.isFor_iff.1 hfor'
  exact List.inj_on_of_nodup_map h.one_period hp hp' (Prod.ext hteam.symm hyear.symm)

/-- the key of a period is in the index exactly if the period is stored -/
theorem claimed_period_iff (h : Owned env settings start cs s) :
    .period t y ∈ s.store.goalPeriods.claimed ↔ s.store.HasPeriod t y := by
  rw [h.periods.claimed_iff]
  constructor
  · intro hm
    obtain ⟨p, hp, hkey⟩ := List.mem_map.1 hm
    obtain ⟨rfl, rfl⟩ := NaturalKey.period.inj (Option.some.inj hkey)
    exact ⟨p, hp, GoalPeriod.isFor_iff.2 ⟨rfl, rfl⟩⟩
  · rintro ⟨p, hp, hfor⟩
    obtain ⟨rfl, rfl⟩ := GoalPeriod.isFor_iff.1 hfor
    exact List.mem_map.2 ⟨p, hp, rfl⟩

/-- the key of a set is in the index exactly if the user has a set for the year of the period -/
theorem claimed_set_iff (h : Owned env settings start cs s) {p : GoalPeriod} (hp : p ∈ s.store.goalPeriods.items)
    (hfor : p.isFor t y = true) : .goalSet t p.id u ∈ s.store.goalSets.claimed ↔ s.store.HasSet t y u := by
  rw [h.sets.claimed_iff]
  constructor
  · intro hm
    obtain ⟨g, hg, hkey⟩ := List.mem_map.1 hm
    obtain ⟨hteam, hperiod, huser⟩ := NaturalKey.goalSet.inj (Option.some.inj hkey)
    exact ⟨g, hg, p, hp, hfor, hteam, hperiod, huser⟩
  · rintro ⟨g, hg, p', hp', hfor', rfl, hperiod, rfl⟩
    obtain rfl := h.period_unique hp hp' hfor hfor'
    exact List.mem_map.2 ⟨g, hg, congrArg (fun i => some (NaturalKey.goalSet g.teamId i g.userId)) hperiod⟩

/-- whom a stored set was created for can be told from the set and its period -/
theorem createdFor_iff (h : Owned env settings start cs s) {g : GoalSet} (hg : g ∈ s.store.goalSets.items) :
    CreatedFor env settings start cs t y u g.id ↔ s.store.IsSetOf g t y u := by
  constructor
  · intro hcreated
    obtain ⟨g', hg', hid, hset⟩ := h.stored t y u g.id hcreated
    rwa [List.inj_on_of_nodup_map h.setIds hg' hg hid] at hset
  · rintro ⟨p, hp, hfor, rfl, hperiod, rfl⟩
    obtain ⟨y', ⟨p', hp', hfor', -, hperiod', -⟩, hcreated⟩ := h.made g hg
    obtain rfl := List.inj_on_of_nodup_map h.periodIds hp' hp (hperiod'.symm.trans hperiod)
    rwa [← (GoalPeriod.isFor_iff.1 hfor).2, (GoalPeriod.isFor_iff.1 hfor').2]

/-- what the query finds, in any arrangement of what is stored -/
theorem found_iff (h : Owned env settings start cs s) {g : GoalSet} :
    ((l.list .goalPeriod s.store.goalPeriods.items).find? fun p => GoalPeriod.isFor p t y).bind (fun p =>
        (l.list .goalSet s.store.goalSets.items).find? fun (g : GoalSet) =>
          g.teamId == t && g.periodId == p.id && g.userId == u) = some g ↔
      g ∈ s.store.goalSets.items ∧ s.store.IsSetOf g t y u := by
  constructor
  · intro hfound
    obtain ⟨p, hp, hg⟩ := Option.bind_eq_some_iff.1 hfound
    obtain ⟨hp, hfor⟩ := Listing.mem_of_find?_list (k := .goalPeriod) hp
    obtain ⟨hg, howner⟩ := Listing.mem_of_find?_list (k := .goalSet) hg
    simp only [Bool.and_eq_true, beq_iff_eq] at howner
    exact ⟨hg, p, hp, hfor, howner.1.1, howner.1.2, howner.2⟩
  · rintro ⟨hg, p, hp, hfor, rfl, hperiod, rfl⟩
    refine Option.bind_eq_some_iff.2 ⟨p, ?_, ?_⟩
    · cases hfind : (l.list .goalPeriod s.store.goalPeriods.items).find? fun p => GoalPeriod.isFor p g.teamId y with
      | none => exact absurd hfor (Listing.find?_list_eq_none (k := .goalPeriod).1 hfind p hp)
      | some p' =>
        obtain ⟨hp', hfor'⟩ := Listing.mem_of_find?_list (k := .goalPeriod) hfind
        rw [h.period_unique hp hp' hfor hfor']
    · cases hfind : (l.list .goalSet s.store.goalSets.items).find? fun (g' : GoalSet) =>
          g'.teamId == g.teamId && g'.periodId == p.id && g'.userId == g.userId with
      | none =>
        have hnot := Listing.find?_list_eq_none (k := .goalSet).1 hfind g hg
        simp [hperiod] at hnot
      | some g' =>
        obtain ⟨hg', howner⟩ := Listing.mem_of_find?_list (k := .goalSet) hfind
        simp only [Bool.and_eq_true, beq_iff_eq] at howner
        obtain ⟨⟨hteam, hperiod'⟩, huser⟩ := howner
        rw [List.inj_on_of_nodup_map h.one_set hg' hg (by rw [hteam, hperiod', huser, hperiod])]

/-! ## What is replied -/

theorem period_refused_iff (h : Owned env settings start cs s) {c : AddGoalPeriod} (hvalid : c.complaints = []) :
    (∃ m, (s.executeIn l env settings (.addGoalPeriod c)).1 = .failure (.alreadyExists m)) ↔
      s.store.HasPeriod c.teamId c.year := by
  simp only [addGoalPeriod_fails_iff hvalid settings (e := .alreadyExists _) FailureKind.noConfusion]
  rw [Repository.add_reworded_iff c.kind_reword, ← h.claimed_period_iff]
  exact ⟨fun ⟨key, hkey, hmem⟩ => Option.some.inj hkey ▸ hmem, fun hmem => ⟨_, rfl, hmem⟩⟩

/-- the next identity belongs to no stored set -/
theorem unused_next (h : Owned env settings start cs s)
    (hfresh : Set.InjOn env.ids (Set.Icc start.idsDrawn s.idsDrawn)) :
    s.store.goalSets.get? (env.ids s.idsDrawn) = none := by
  refine Repository.get?_eq_none.2 fun g hg hid => ?_
  obtain ⟨m, hfirst, hlast, hm⟩ := h.drawn.2 g hg
  have hsame : m = s.idsDrawn :=
    hfresh ⟨hfirst, hlast.le⟩ ⟨h.drawn.1, le_rfl⟩ (hm.symm.trans hid)
  omega

theorem set_refused_iff (h : Owned env settings start cs s)
    (hfresh : Set.InjOn env.ids (Set.Icc start.idsDrawn s.idsDrawn)) {c : CreateGoalSet} (hvalid : c.complaints = []) :
    ((∃ m, (s.executeIn l env settings (.createGoalSet c)).1 = .failure (.invalidOperation m)) ↔
        ¬s.store.HasPeriod c.teamId c.year) ∧
      ((∃ m, (s.executeIn l env settings (.createGoalSet c)).1 = .failure (.alreadyExists m)) ↔
        s.store.HasSet c.teamId c.year c.userId) := by
  simp only [createGoalSet_fails_iff hvalid settings (e := .alreadyExists _) FailureKind.noConfusion,
    createGoalSet_fails_iff hvalid settings (e := .invalidOperation _) FailureKind.noConfusion]
  cases hfind : (l.list .goalPeriod s.store.goalPeriods.items).find? fun p => GoalPeriod.isFor p c.teamId c.year with
  | none =>
    have hno : ¬s.store.HasPeriod c.teamId c.year := fun ⟨p, hp, hfor⟩ =>
      Listing.find?_list_eq_none (k := .goalPeriod).1 hfind p hp hfor
    refine ⟨iff_of_true ⟨_, rfl⟩ hno, iff_of_false ?_ fun hset => hno hset.hasPeriod⟩
    rintro ⟨m, hm⟩
    cases hm
  | some p =>
    obtain ⟨hp, hfor⟩ := Listing.mem_of_find?_list (k := .goalPeriod) hfind
    constructor
    · refine iff_of_false ?_ (not_not.2 ⟨p, hp, hfor⟩)
      rintro ⟨m, f, hf, heq⟩
      have hkind := Repository.kind_of_add_error (h.unused_next hfresh) hf
      rw [← c.kind_reword f, ← heq] at hkind
      cases hkind
    · rw [← h.claimed_set_iff hp hfor]
      refine (Repository.add_reworded_iff c.kind_reword).trans ?_
      exact ⟨fun ⟨key, hkey, hmem⟩ => Option.some.inj hkey ▸ hmem, fun hmem => ⟨_, rfl, hmem⟩⟩

end Owned

/-! ## Every sequence of commands -/

/-- periods and sets are stored once, goal commands are refused for what is stored and for nothing else, and what is
stored for a user is what was created for the user -/
structure GoalsAccounted (env : Surroundings) (settings : Settings) (start : Service) (cs : List (Listing × Command))
    (s : Service) : Prop where
  /-- a team has at most one period of a year -/
  one_period : (s.store.goalPeriods.items.map fun p => (p.teamId, p.year)).Nodup
  /-- a user has at most one set in a period of a team -/
  one_set : (s.store.goalSets.items.map fun g => (g.teamId, g.periodId, g.userId)).Nodup
  /-- the period of a set is a stored period of the same team -/
  home : ∀ g ∈ s.store.goalSets.items, ∃ p ∈ s.store.goalPeriods.items, p.id = g.periodId ∧ p.teamId = g.teamId
  period_refused : ∀ (l : Listing) (c : AddGoalPeriod), c.complaints = [] →
    ((∃ m, (s.executeIn l env settings (.addGoalPeriod c)).1 = .failure (.alreadyExists m)) ↔
      s.store.HasPeriod c.teamId c.year)
  set_refused : ∀ (l : Listing) (c : CreateGoalSet), c.complaints = [] →
    ((∃ m, (s.executeIn l env settings (.createGoalSet c)).1 = .failure (.invalidOperation m)) ↔
        ¬s.store.HasPeriod c.teamId c.year) ∧
      ((∃ m, (s.executeIn l env settings (.createGoalSet c)).1 = .failure (.alreadyExists m)) ↔
        s.store.HasSet c.teamId c.year c.userId)
  /-- the query gives the set that was created for the team, year and user, or nothing if none was -/
  found : ∀ (l : Listing) (t y u : Int32), ∃ o, s.queryIn l env (.goalSet t y u) = (.value (.goalSet o), s) ∧
    (∀ g, o = some g ↔ g ∈ s.store.goalSets.items ∧ CreatedFor env settings start cs t y u g.id) ∧
    (o = none ↔ ∀ i, ¬CreatedFor env settings start cs t y u i)

/-- **Goals are accounted for.** Natural keys are told apart by their texts; and whatever commands are run one after
another on a service that starts without periods and sets, in whatever order its store lists its contents: while the
identities that were drawn, and the next one, are distinct, what is stored of goals is unique, is refused exactly when it
is there, and is found by its team, year and user. -/
theorem goals_accounted (env : Surroundings) (settings : Settings) (start : Service) (cs : List (Listing × Command))
    (hperiods : start.store.goalPeriods = .empty) (hsets : start.store.goalSets = .empty)
    (hfresh : Set.InjOn env.ids (Set.Icc start.idsDrawn (start.executeAllIn env settings cs).idsDrawn)) :
    Function.Injective NaturalKey.text ∧
      GoalsAccounted env settings start cs (start.executeAllIn env settings cs) := by
  have h : Owned env settings start cs (start.executeAllIn env settings cs) := owned env settings cs hperiods hsets
  refine ⟨NaturalKey.text_injective, h.one_period, h.one_set, fun g hg => ?_, fun l c => h.period_refused_iff,
    fun l c => h.set_refused_iff hfresh, fun l t y u => ?_⟩
  · obtain ⟨y, ⟨p, hp, hfor, -, hperiod, -⟩, -⟩ := h.made g hg
    exact ⟨p, hp, hperiod.symm, (GoalPeriod.isFor_iff.1 hfor).1⟩
  · have hfound : ∀ g, _ = some g ↔ g ∈ (start.executeAllIn env settings cs).store.goalSets.items ∧
        CreatedFor env settings start cs t y u g.id := fun g =>
      (h.found_iff (l := l)).trans (and_congr_right fun hg => (h.createdFor_iff hg).symm)
    refine ⟨_, queryIn_goalSet t y u, hfound, fun hnone i hcreated => ?_, fun hnot => ?_⟩
    · obtain ⟨g, hg, rfl, -⟩ := h.stored t y u i hcreated
      have hsome := (hfound g).2 ⟨hg, hcreated⟩
      rw [hnone] at hsome
      cases hsome
    · refine Option.eq_none_iff_forall_ne_some.2 fun g hg => ?_
      exact hnot g.id ((hfound g).1 hg).2

/-- the period of a team and year is opened, and a user of the team gets a set in it -/
def openedOnce : List (Listing × Command) :=
  [(.arrival, .addGoalPeriod ⟨1, 2030⟩), (.latest, .createGoalSet ⟨1, 5, 2030⟩)]

theorem goals_accounted_openedOnce :
    (Service.start.executeAllIn .standstill .standard openedOnce).store.goalSets.items =
        [⟨.ofNat 1, 1, .ofNat 0, 5, none, [], 1⟩] ∧
      GoalsAccounted .standstill .standard .start openedOnce
        (Service.start.executeAllIn .standstill .standard openedOnce) := by
  have hdrawn : (Service.start.executeAllIn .standstill .standard openedOnce).idsDrawn = 2 := by decide +kernel
  have hfresh : Set.InjOn Surroundings.standstill.ids
      (Set.Icc Service.start.idsDrawn (Service.start.executeAllIn .standstill .standard openedOnce).idsDrawn) := by
    rw [hdrawn]
    intro m hm n hn h
    have hbits : m % 2 ^ 128 = n % 2 ^ 128 := by
      simpa [Surroundings.standstill, Id.ofNat] using congrArg (fun i => i.bits.toNat) h
    have hm : m ≤ 2 := hm.2
    have hn : n ≤ 2 := hn.2
    omega
  exact ⟨by decide +kernel, (goals_accounted .standstill .standard .start openedOnce rfl rfl hfresh).2⟩

end Service

end Brigade
