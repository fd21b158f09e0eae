/-
Values that are read back from the text they are written as.

Readers are not writers run backwards: the total of an order is dropped and added up again, tables and ranges go through
their constructors a second time. A value comes back all the same if it is consistent (`Format.Consistent`): its total is
that of its lines, its stamp agrees with its status, its ranges are valid. What constructors make, operations leave and
readers accept is consistent (`Reachable.consistent`).
- `round_trip`: every value that can be reached is read back as it was from its text, and so is every value that a text was
  accepted for; written once more, it has the same text.

Times and prices are asked to be read as what they were written for (`Format.LeavesReadBack`). All are but a zero with a
minus, a leap second in the middle of a minute and a year that is not covered (`Format.leavesReadBack_iff`); no text is read
as such a time.
-/
import Brigade.Aggregate
import Brigade.Proofs.Formats
import Brigade.Proofs.GoalSetChange

namespace Brigade

/-! ## Formats -/

/-- what has a JSON form of its own: the aggregates, their parts, and events -/
inductive Format where
  | aggregate (k : Kind)
  | orderLine
  | goal
  | goalValue
  | goalProgress
  | event
deriving DecidableEq, Repr

namespace Format

@[reducible] def Value : Format → Type
  | aggregate k => k.Member
  | orderLine => OrderLine
  | goal => Goal
  | goalValue => GoalValue
  | goalProgress => GoalProgress
  | event => Event

def toJson : (f : Format) → f.Value → Json
  | aggregate k => k.toJson
  | orderLine => OrderLine.toJson
  | goal => Goal.toJson
  | goalValue => GoalValue.toJson
  | goalProgress => GoalProgress.toJson
  | event => Event.toJson

def read : (f : Format) → Reader f.Value
  | aggregate k => k.read
  | orderLine => OrderLine.read
  | goal => Goal.read
  | goalValue => GoalValue.read
  | goalProgress => GoalProgress.read
  | event => Event.read

/-- the text that a value is written as -/
def text (f : Format) (v : f.Value) : String := (f.toJson v).render

/-- the times that the text shows -/
def times : (f : Format) → f.Value → List Timestamp
  | aggregate .order, o => [o.date]
  | aggregate .table, t => t.reservedAt.toList
  | _, _ => []

/-- the prices that the text shows -/
def prices : (f : Format) → f.Value → List Decimal
  | aggregate .order, o => o.lines.map OrderLine.unitPrice
  | aggregate .menuItem, m => [m.price]
  | orderLine, l => [l.unitPrice]
  | _, _ => []

/-- the times and prices of a value are read as what they were written for -/
structure LeavesReadBack (f : Format) (v : f.Value) : Prop where
  times : ∀ t ∈ f.times v, Timestamp.ofText? t.text = some t
  prices : ∀ d ∈ f.prices v, Decimal.ofText? d.text = some d

theorem leavesReadBack_iff {f : Format} {v : f.Value} :
    f.LeavesReadBack v ↔ (∀ t ∈ f.times v, t.OnClock) ∧ ∀ d ∈ f.prices v, d.Plain := by
  simp only [← Timestamp.ofText?_text_iff, ← Decimal.ofText?_text_iff]
  exact ⟨fun h => ⟨h.times, h.prices⟩, fun h => ⟨h.1, h.2⟩⟩

/-- what a reader computes or checks once more comes out the same -/
def Consistent : (f : Format) → f.Value → Prop
  | aggregate .order, o => Order.AddedUp o
  | aggregate .table, t => Table.WellFormed t
  | aggregate .goalSet, s => ∀ g ∈ GoalSet.goals s, g.value.Valid
  | goal, g => g.value.Valid
  | goalValue, v => v.Valid
  | _, _ => True

end Format

/-! ## What can be reached -/

open Format in
/-- values that constructors make, operations leave, or readers accept, and the parts of such values -/
inductive Reachable : (f : Format) → f.Value → Prop where
  | read {f : Format} {v : f.Value} (text : String) (h : Reader.ofText f.read text = .ok v) : Reachable f v
  /-- as the repository gives it back -/
  | stored {k : Kind} {a : k.Member} (version : Int32) (h : Reachable (aggregate k) a) :
      Reachable (aggregate k) (Aggregate.withVersion a version)
  | orderCreated {id tableId : Id} {number : String} {date : Timestamp} {notes : Option String} {o : Order}
      (h : Order.create id number tableId date notes = .ok o) : Reachable (aggregate .order) o
  | orderChanged {o o' : Order} (op : Order.Op) (h : Reachable (aggregate .order) o) (happly : o.apply op = .ok o') :
      Reachable (aggregate .order) o'
  | lineMade {id menuItem : Id} {quantity : Int32} {unitPrice : Decimal} {instructions : Option String} {l : OrderLine}
      (h : OrderLine.make id menuItem quantity unitPrice instructions = .ok l) : Reachable orderLine l
  | lineOf {o : Order} {l : OrderLine} (h : Reachable (aggregate .order) o) (hl : l ∈ o.lines) : Reachable orderLine l
  | tableCreated {id : Id} {number capacity : Int32} {t : Table} (h : Table.create id number capacity = .ok t) :
      Reachable (aggregate .table) t
  | tableChanged {t t' : Table} (op : Table.Op) (h : Reachable (aggregate .table) t) (happly : t.apply op = .ok t') :
      Reachable (aggregate .table) t'
  | menuItemCreated {id : Id} {name category : String} {price : Decimal} {description : Option String} {m : MenuItem}
      (h : MenuItem.create id name category price description = .ok m) : Reachable (aggregate .menuItem) m
  | menuItemChanged {m m' : MenuItem} (op : MenuItem.Op) (h : Reachable (aggregate .menuItem) m)
      (happly : m.apply op = .ok m') : Reachable (aggregate .menuItem) m'
  | goalPeriodCreated {id : Id} {teamId year : Int32} {p : GoalPeriod} (h : GoalPeriod.create id teamId year = .ok p) :
      Reachable (aggregate .goalPeriod) p
  | goalSetCreated {id periodId : Id} {teamId userId : Int32} {s : GoalSet}
      (h : GoalSet.create id teamId periodId userId = .ok s) : Reachable (aggregate .goalSet) s
  | goalSetChanged {s s' : GoalSet} (op : GoalSet.Op) (h : Reachable (aggregate .goalSet) s)
      (hvalue : ∀ i title type v percentage, op = .addGoal i title type v percentage → Reachable goalValue v)
      (happly : s.apply op = .ok s') : Reachable (aggregate .goalSet) s'
  | goalOf {s : GoalSet} {g : Goal} (h : Reachable (aggregate .goalSet) s) (hg : g ∈ s.goals) : Reachable goal g
  | valueCreated {min mid max : Int32} {type : GoalValueType} {v : GoalValue}
      (h : GoalValue.create min mid max type = .ok v) : Reachable goalValue v
  | valueRetyped {v v' : GoalValue} (type : GoalValueType) (h : Reachable goalValue v) (htype : v.withType type = .ok v') :
      Reachable goalValue v'
  | valueOf {g : Goal} (h : Reachable goal g) : Reachable goalValue g.value
  | progressSubmitted (actual : Int32) (comment : Option String) :
      Reachable goalProgress (GoalProgress.submitted actual comment)
  | progressOf {g : Goal} {p : GoalProgress} (h : Reachable goal g) (hp : g.progress = some p) :
      Reachable goalProgress p
  | announced (e : Event) : Reachable event e

/-! ## Consistency -/

theorem Order.AddedUp.apply {o o' : Order} {op : Order.Op} (h : o.AddedUp) (happly : o.apply op = .ok o') : o'.AddedUp := by
  rw [apply_eq_sheet h op] at happly
  obtain ⟨s, -, hs⟩ := Outcome.bind_eq_ok.1 happly
  exact addedUp_of_rewritten hs

/-- a range comes into a set with a new goal, or by being checked again -/
theorem GoalSet.Change.valid {s t : GoalSet} {op : GoalSet.Op} (h : GoalSet.Change s op t)
    (hs : ∀ g ∈ s.goals, g.value.Valid)
    (hop : ∀ i title type v percentage, op = .addGoal i title type v percentage → v.Valid) :
    ∀ g ∈ t.goals, g.value.Valid := by
  -- operations on progress change goals without their ranges
  have hkept : ∀ (i : Id) (f : Goal → Goal), (∀ g, (f g).value = g.value) →
      ∀ g ∈ (s.changeGoal i f).goals, g.value.Valid := by
    intro i f hf g hg
    rcases mem_updateFirst hg with hg | ⟨g', hg', rfl⟩
    · exact hs g hg
    · rw [hf g']
      exact hs g' hg'
  cases h with
  | added i title type value percentage editable =>
    intro g hg
    rcases List.mem_append.1 hg with hg | hg
    · exact hs g hg
    · obtain rfl := List.mem_singleton.1 hg
      exact hop i title type value percentage rfl
  | redefined i title type valueType percentage g value editable found room fits =>
    intro g' hg'
    rcases mem_updateFirst hg' with hg' | ⟨g₀, -, rfl⟩
    · exact hs g' hg'
    · exact (GoalValue.create_eq_ok.1 fits).2
  | submitted i actual comment g found => exact hkept i _ fun _ => rfl
  | progressApproved i g p found there => exact hkept i _ fun _ => rfl
  | progressRejected i g p found there => exact hkept i _ fun _ => rfl
  | _ => exact hs

namespace Format

variable {f : Format} {v : f.Value} {j : Json}

theorem consistent_of_read (h : f.read j = .ok v) : f.Consistent v := by
  cases f with
  | aggregate k =>
    cases k with
    | order => exact Order.addedUp_of_read h
    | table => exact (Table.read_eq_ok.1 h).2
    | goalSet => exact GoalSet.valid_of_read h
    | menuItem => trivial
    | goalPeriod => trivial
  | goal => exact Goal.valid_of_read h
  | goalValue => exact GoalValue.valid_of_read h
  | orderLine => trivial
  | goalProgress => trivial
  | event => trivial

end Format

theorem Reachable.consistent {f : Format} {v : f.Value} (h : Reachable f v) : f.Consistent v := by
  induction h with
  | read text h =>
    obtain ⟨j, -, hj⟩ := Reader.ofText_eq_ok.1 h
    exact Format.consistent_of_read hj
  | @stored k a version h ih =>
    cases k with
    | order => exact ih
    | table => exact ⟨ih.number_pos, ih.capacity_pos, ih.stamped_iff⟩
    | goalSet => exact ih
    | menuItem => trivial
    | goalPeriod => trivial
  | orderCreated h => exact Order.addedUp_of_create h
  | orderChanged op h happly ih => exact Order.AddedUp.apply ih happly
  | tableCreated h => exact Table.Starts.wellFormed (.inl ⟨_, _, _, h⟩)
  | tableChanged op h happly ih => exact (Table.WellFormed.apply ih happly).1
  | goalSetCreated h =>
    obtain rfl := GoalSet.create_eq_ok h
    exact nofun
  | goalSetChanged op h hvalue happly ih ihvalue =>
    exact (GoalSet.change_of_apply happly).valid ih fun i title type v percentage hop =>
      ihvalue i title type v percentage hop
  | goalOf h hg ih => exact ih _ hg
  | valueCreated h => exact (GoalValue.create_eq_ok.1 h).2
  | valueRetyped type h htype ih => exact (GoalValue.create_eq_ok.1 htype).2
  | valueOf h ih => exact ih
  | lineMade h => trivial
  | lineOf h hl ih => trivial
  | menuItemCreated h => trivial
  | menuItemChanged op h happly ih => trivial
  | goalPeriodCreated h => trivial
  | progressSubmitted actual comment => trivial
  | progressOf h hp ih => trivial
  | announced e => trivial

/-! ## Reading back -/

namespace Format

variable {f : Format} {v : f.Value}

theorem written_toJson (f : Format) (v : f.Value) : (f.toJson v).Written := by
  cases f with
  | aggregate k =>
    cases k with
    | order => exact Order.written_toJson v
    | table => exact Table.written_toJson v
    | menuItem => exact MenuItem.written_toJson v
    | goalPeriod => exact GoalPeriod.written_toJson v
    | goalSet => exact GoalSet.written_toJson v
  | orderLine => exact OrderLine.written_toJson v
  | goal => exact Goal.written_toJson v
  | goalValue => exact GoalValue.written_toJson v
  | goalProgress => exact GoalProgress.written_toJson v
  | event => exact Event.written_toJson v

/-- a consistent value is read back from its tree -/
theorem read_toJson (hv : f.Consistent v) (hleaves : f.LeavesReadBack v) : f.read (f.toJson v) = .ok v := by
  obtain ⟨htimes, hprices⟩ := hleaves
  cases f with
  | aggregate k =>
    cases k with
    | order => exact Order.read_toJson hv (htimes _ List.mem_cons_self) fun l hl => hprices _ (List.mem_map_of_mem hl)
    | table => exact Table.read_toJson hv fun a ha => htimes a (Option.mem_toList.2 ha)
    | menuItem => exact MenuItem.read_toJson (hprices _ List.mem_cons_self)
    | goalPeriod => exact GoalPeriod.read_toJson v
    | goalSet => exact GoalSet.read_toJson hv
  | orderLine => exact OrderLine.read_toJson (hprices _ List.mem_cons_self)
  | goal => exact Goal.read_toJson hv
  | goalValue => exact GoalValue.read_toJson hv
  | goalProgress => exact GoalProgress.read_toJson v
  | event => exact Event.read_toJson v

/-- the times of what was read are read back -/
theorem times_of_read {j : Json} (h : f.read j = .ok v) : ∀ t ∈ f.times v, t.OnClock := by
  cases f with
  | aggregate k =>
    cases k with
    | order =>
      intro t ht
      obtain rfl := List.mem_singleton.1 ht
      exact Order.date_of_read h
    | table => exact fun t ht => Table.reservedAt_of_read h t (Option.mem_toList.1 ht)
    | menuItem => exact nofun
    | goalPeriod => exact nofun
    | goalSet => exact nofun
  | orderLine => exact nofun
  | goal => exact nofun
  | goalValue => exact nofun
  | goalProgress => exact nofun
  | event => exact nofun

theorem ofText_text (hv : f.Consistent v) (hleaves : f.LeavesReadBack v) : Reader.ofText f.read (f.text v) = .ok v :=
  Reader.ofText_eq_ok.2 ⟨_, Json.parse_render (f.written_toJson v), read_toJson hv hleaves⟩

end Format

/-- **Round trip.** Whatever can be reached is read back from its text as the same value. So of every text that is
accepted, the value is written as a text that is accepted for the same value, and that is written as itself. -/
theorem round_trip (f : Format) :
    (∀ v, Reachable f v → f.LeavesReadBack v → Reader.ofText f.read (f.text v) = .ok v) ∧
      ∀ text v, Reader.ofText f.read text = .ok v → (∀ d ∈ f.prices v, Decimal.ofText? d.text = some d) →
        Reader.ofText f.read (f.text v) = .ok v ∧
          (Reader.ofText f.read (f.text v)).map f.text = .ok (f.text v) := by
  have hback : ∀ v, Reachable f v → f.LeavesReadBack v → Reader.ofText f.read (f.text v) = .ok v :=
    fun v hv hleaves => Format.ofText_text hv.consistent hleaves
  refine ⟨hback, fun text v hread hprices => ?_⟩
  obtain ⟨j, -, hj⟩ := Reader.ofText_eq_ok.1 hread
  have htimes : ∀ t ∈ f.times v, Timestamp.ofText? t.text = some t := fun t ht =>
    Timestamp.ofText?_text_iff.2 (Format.times_of_read hj t ht)
  have hagain := hback v (.read text hread) ⟨htimes, hprices⟩
  exact ⟨hagain, by rw [hagain]; rfl⟩

/-- two soups for one table -/
def twoSoups : Order :=
  ⟨.ofNat 1, "ORD-1", .ofNat 2, .epoch, .pending, [⟨.ofNat 7, .ofNat 8, 2, (Decimal.ofParts? 650 2).get rfl, none⟩],
    (Decimal.ofParts? 1300 2).get rfl, none, 1⟩

theorem round_trip_twoSoups :
    Reachable (.aggregate .order) twoSoups ∧
      Reader.ofText Order.read (Format.text (.aggregate .order) twoSoups) = .ok twoSoups ∧
      Reader.ofText GoalValue.read "[1, 2, 3, \"Number\"]" = .ok ⟨1, 2, 3, .number⟩ ∧
      Reader.ofText GoalValue.read (Format.text .goalValue ⟨1, 2, 3, .number⟩) = .ok ⟨1, 2, 3, .number⟩ := by
  have hnew : Order.create (.ofNat 1) "ORD-1" (.ofNat 2) .epoch none =
      .ok ⟨.ofNat 1, "ORD-1", .ofNat 2, .epoch, .pending, [], .zero, none, 1⟩ := by decide
  have horder : Reachable (.aggregate .order) twoSoups :=
    .orderChanged (.addLine (.ofNat 7) (.ofNat 8) 2 ((Decimal.ofParts? 650 2).get rfl) none) (.orderCreated hnew)
      (by decide +kernel)
  have hleaves : Format.LeavesReadBack (.aggregate .order) twoSoups := by
    refine Format.leavesReadBack_iff.2 ⟨fun t ht => ?_, by decide⟩
    obtain rfl := List.mem_singleton.1 ht
    exact ⟨by decide, by decide, fun h => absurd h (by decide)⟩
  have hlisted : Reader.ofText GoalValue.read "[1, 2, 3, \"Number\"]" = .ok ⟨1, 2, 3, .number⟩ := by decide +kernel
  exact ⟨horder, (round_trip (.aggregate .order)).1 twoSoups horder hleaves, hlisted,
    ((round_trip .goalValue).2 _ _ hlisted nofun).1⟩

end Brigade
