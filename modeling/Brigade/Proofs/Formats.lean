/-
The JSON of every type, written and read.

What a value is written as can be told by a text (`written_toJson`), and is read as the value (`read_toJson`): always where
reading takes over what it finds, and under the rules of the type where reading applies them again. Times and prices are
asked to be read as what they were written for; a total always is (`AddedUp.plain_total`). What was read keeps the rules,
and has times that are read back.
-/
import Brigade.Event
import Brigade.MenuItem
import Brigade.Proofs.DecimalText
import Brigade.Proofs.OrderFaults
import Brigade.Proofs.ReadBack
import Brigade.Proofs.Reservations
import Brigade.Proofs.TimeText

namespace Brigade

open Reader

/-! ## Names -/

theorem OrderStatus.read_toJson (s : OrderStatus) : read s.toJson = .ok s := named_text (by decide) s.mem_all

theorem TableStatus.read_toJson (s : TableStatus) : read s.toJson = .ok s := named_text (by decide) s.mem_all

theorem GoalType.read_toJson (t : GoalType) : read t.toJson = .ok t :=
  named_text (by decide) (by cases t <;> decide)

theorem GoalValueType.read_toJson (t : GoalValueType) : read t.toJson = .ok t :=
  named_text (by decide) (by cases t <;> decide)

theorem ProgressStatus.read_toJson (s : ProgressStatus) : read s.toJson = .ok s :=
  named_text (by decide) (by cases s <;> decide)

theorem GoalSetStatus.read_toJson (s : GoalSetStatus) : read s.toJson = .ok s :=
  named_text (by decide) (by cases s <;> decide)

@[simp] theorem OrderStatus.written_toJson (s : OrderStatus) : s.toJson.Written := .text _

@[simp] theorem TableStatus.written_toJson (s : TableStatus) : s.toJson.Written := .text _

@[simp] theorem GoalType.written_toJson (t : GoalType) : t.toJson.Written := .text _

@[simp] theorem GoalValueType.written_toJson (t : GoalValueType) : t.toJson.Written := .text _

@[simp] theorem ProgressStatus.written_toJson (s : ProgressStatus) : s.toJson.Written := .text _

@[simp] theorem GoalSetStatus.written_toJson (s : GoalSetStatus) : s.toJson.Written := .text _

/-! ## Goals -/

namespace GoalValue

variable {v : GoalValue} {min mid max : Int32} {type : GoalValueType}

theorem create_eq_ok : create min mid max type = .ok v ↔ v = ⟨min, mid, max, type⟩ ∧ v.Valid := by
  unfold create
  constructor
  · intro h
    split_ifs at h with hmin hmax hrange
    obtain rfl := Outcome.ok.inj h
    refine ⟨rfl, Int32.not_le.1 hmin, Int32.not_le.1 hmax, fun htype => ?_⟩
    obtain ⟨hlow, hhigh⟩ := not_or.1 fun hout => hrange ⟨htype, hout⟩
    exact ⟨Int32.not_lt.1 hlow, Int32.not_lt.1 hhigh⟩
  · rintro ⟨rfl, hmin, hmax, hrange⟩
    rw [if_neg (Int32.not_le.2 hmin), if_neg (Int32.not_le.2 hmax), if_neg]
    rintro ⟨htype, hlow | hhigh⟩
    · exact Int32.not_lt.2 (hrange htype).1 hlow
    · exact Int32.not_lt.2 (hrange htype).2 hhigh

theorem read_toJson (h : v.Valid) : read v.toJson = .ok v := by
  have hmin := int32_word v.min
  have hmid := int32_word v.mid
  have hmax := int32_word v.max
  have htype := v.type.read_toJson
  refine Except.bind_eq_ok.2 ⟨v, record_record (by decide) (.cons (fits_field hmin) (.cons (fits_field hmid)
    (.cons (fits_field hmax) (.cons (fits_field htype) .nil)))) ?_, by rw [create_eq_ok.2 ⟨rfl, h⟩]; rfl⟩
  simp [Source.required, Json.find?, hmin, hmid, hmax, htype]

@[simp] theorem written_toJson (v : GoalValue) : v.toJson.Written := by simp [toJson]

theorem valid_of_read {j : Json} (h : read j = .ok v) : v.Valid := by
  obtain ⟨u, -, h⟩ := Except.bind_eq_ok.1 h
  cases hu : create u.min u.mid u.max u.type with
  | ok w =>
    rw [hu] at h
    obtain rfl := Except.ok.inj h
    exact (create_eq_ok.1 hu).2
  | refused e => rw [hu] at h; cases h
  | fault f => rw [hu] at h; cases h

end GoalValue

theorem GoalProgress.read_toJson (p : GoalProgress) : read p.toJson = .ok p := by
  have hactual := int32_word p.actual
  have hcomment := option_text p.comment
  have hstatus := p.status.read_toJson
  refine record_record (by decide) (.cons (fits_field hactual) (.cons (fits_field hcomment)
    (.cons (fits_field hstatus) .nil))) ?_
  simp [Source.required, Source.optional, Json.find?, hactual, hcomment, hstatus]

@[simp] theorem GoalProgress.written_toJson (p : GoalProgress) : p.toJson.Written := by simp [GoalProgress.toJson]

theorem Goal.read_toJson {g : Goal} (h : g.value.Valid) : read g.toJson = .ok g := by
  have hid := id_text g.id
  have htitle := string_text g.title
  have htype := g.type.read_toJson
  have hvalue := GoalValue.read_toJson h
  have hpercentage := int32_word g.percentage
  have hprogress : Reader.option GoalProgress.read (.option GoalProgress.toJson g.progress) = .ok g.progress :=
    option_option (fun p _ => p.read_toJson) nofun
  unfold read readWith
  refine record_record (by decide) (.cons (fits_field hid) (.cons (fits_field htitle) (.cons (fits_field htype)
    (.cons (fits_field hvalue) (.cons (fits_field hpercentage) (.cons (fits_field hprogress) .nil)))))) ?_
  simp [Source.required, Source.optional, Json.find?, hid, htitle, htype, hvalue, hpercentage, hprogress]

@[simp] theorem Goal.written_toJson (g : Goal) : g.toJson.Written := by simp [Goal.toJson]

theorem Goal.valid_of_read {g : Goal} {j : Json} (h : read j = .ok g) : g.value.Valid := by
  unfold read readWith at h
  obtain ⟨s, h⟩ := source_of_record h
  obtain ⟨id, -, h⟩ := Except.bind_eq_ok.1 h
  obtain ⟨title, -, h⟩ := Except.bind_eq_ok.1 h
  obtain ⟨type, -, h⟩ := Except.bind_eq_ok.1 h
  obtain ⟨value, hvalue, h⟩ := Except.bind_eq_ok.1 h
  obtain ⟨percentage, -, h⟩ := Except.bind_eq_ok.1 h
  obtain ⟨progress, -, h⟩ := Except.bind_eq_ok.1 h
  obtain rfl := Except.ok.inj h
  obtain ⟨i, hi⟩ := read_of_required hvalue
  exact GoalValue.valid_of_read hi

theorem GoalPeriod.read_toJson (p : GoalPeriod) : read p.toJson = .ok p := by
  have hid := id_text p.id
  have hteam := int32_word p.teamId
  have hyear := int32_word p.year
  have hversion := int32_word p.version
  refine record_record (by decide) (.cons (fits_field hid) (.cons (fits_field hteam) (.cons (fits_field hyear)
    (.cons (fits_field hversion) .nil)))) ?_
  simp [Source.required, Json.find?, hid, hteam, hyear, hversion]

@[simp] theorem GoalPeriod.written_toJson (p : GoalPeriod) : p.toJson.Written := by simp [GoalPeriod.toJson]

theorem GoalSet.read_toJson {s : GoalSet} (h : ∀ g ∈ s.goals, g.value.Valid) : read s.toJson = .ok s := by
  have hid := id_text s.id
  have hteam := int32_word s.teamId
  have hperiod := id_text s.periodId
  have huser := int32_word s.userId
  have hstatus : Reader.option GoalSetStatus.read (.option GoalSetStatus.toJson s.status) = .ok s.status :=
    option_option (fun st _ => st.read_toJson) nofun
  have hgoals : Reader.list Goal.read (.arr (s.goals.map Goal.toJson)) = .ok s.goals :=
    list_map fun g hg => Goal.read_toJson (h g hg)
  have hversion := int32_word s.version
  unfold read readWith
  refine record_record (by decide) (.cons (fits_field hid) (.cons (fits_field hteam) (.cons (fits_field hperiod)
    (.cons (fits_field huser) (.cons (fits_field hstatus) (.cons (fits_field hgoals)
      (.cons (fits_field hversion) .nil))))))) ?_
  simp [Source.required, Source.optional, Json.find?, hid, hteam, hperiod, huser, hstatus, hgoals, hversion]

@[simp] theorem GoalSet.written_toJson (s : GoalSet) : s.toJson.Written := by simp [GoalSet.toJson]

theorem GoalSet.valid_of_read {s : GoalSet} {j : Json} (h : read j = .ok s) : ∀ g ∈ s.goals, g.value.Valid := by
  unfold read readWith at h
  obtain ⟨source, h⟩ := source_of_record h
  obtain ⟨id, -, h⟩ := Except.bind_eq_ok.1 h
  obtain ⟨team, -, h⟩ := Except.bind_eq_ok.1 h
  obtain ⟨period, -, h⟩ := Except.bind_eq_ok.1 h
  obtain ⟨user, -, h⟩ := Except.bind_eq_ok.1 h
  obtain ⟨status, -, h⟩ := Except.bind_eq_ok.1 h
  obtain ⟨goals, hgoals, h⟩ := Except.bind_eq_ok.1 h
  obtain ⟨version, -, h⟩ := Except.bind_eq_ok.1 h
  obtain rfl := Except.ok.inj h
  obtain ⟨i, hi⟩ := read_of_required hgoals
  intro g hg
  obtain ⟨k, hk⟩ := read_of_list hi g hg
  exact Goal.valid_of_read hk

/-! ## The menu and the floor -/

theorem MenuItem.read_toJson {m : MenuItem} (h : Decimal.ofText? m.price.text = some m.price) :
    read m.toJson = .ok m := by
  have hid := id_text m.id
  have hname := string_text m.name
  have hcategory := string_text m.category
  have hdescription := option_text m.description
  have hprice := decimal_text h
  have havailable := bool_bool m.available
  have hversion := int32_word m.version
  refine record_record (by decide) (.cons (fits_field hid) (.cons (fits_field hname) (.cons (fits_field hcategory)
    (.cons (fits_field hdescription) (.cons (fits_field hprice) (.cons (fits_field havailable)
      (.cons (fits_field hversion) .nil))))))) ?_
  simp [Source.required, Source.optional, Json.find?, hid, hname, hcategory, hdescription, hprice, havailable, hversion]

@[simp] theorem MenuItem.written_toJson (m : MenuItem) : m.toJson.Written := by simp [MenuItem.toJson]

theorem Table.read_toJson {t : Table} (hw : t.WellFormed)
    (h : ∀ a ∈ t.reservedAt, Timestamp.ofText? a.text = some a) : read t.toJson = .ok t := by
  have hid := id_text t.id
  have hnumber := int32_word t.number
  have hcapacity := int32_word t.capacity
  have hstatus := t.status.read_toJson
  have hreserved : Reader.option Reader.time (.option (fun a => .text a.text) t.reservedAt) = .ok t.reservedAt :=
    option_option (fun a ha => time_text (h a ha)) nofun
  have hversion := int32_word t.version
  refine read_eq_ok.2 ⟨record_record (by decide) (.cons (fits_field hid) (.cons (fits_field hnumber)
    (.cons (fits_field hcapacity) (.cons (fits_field hstatus) (.cons (fits_field hreserved)
      (.cons (fits_field hversion) .nil)))))) ?_, hw⟩
  simp [Source.required, Source.optional, Json.find?, hid, hnumber, hcapacity, hstatus, hreserved, hversion]

@[simp] theorem Table.written_toJson (t : Table) : t.toJson.Written := by simp [Table.toJson]

theorem onClock_of_read {t : Timestamp} {j : Json} (h : time j = .ok t) : t.OnClock := by
  unfold time at h
  split at h
  · split at h
    · obtain rfl := Except.ok.inj h
      exact Timestamp.onClock_of_ofText? ‹_›
    · cases h
  · cases h

theorem Table.reservedAt_of_read {t : Table} {j : Json} (h : read j = .ok t) : ∀ a ∈ t.reservedAt, a.OnClock := by
  obtain ⟨s, h⟩ := source_of_record (read_eq_ok.1 h).1
  obtain ⟨id, -, h⟩ := Except.bind_eq_ok.1 h
  obtain ⟨number, -, h⟩ := Except.bind_eq_ok.1 h
  obtain ⟨capacity, -, h⟩ := Except.bind_eq_ok.1 h
  obtain ⟨status, -, h⟩ := Except.bind_eq_ok.1 h
  obtain ⟨reservedAt, hreserved, h⟩ := Except.bind_eq_ok.1 h
  obtain ⟨version, -, h⟩ := Except.bind_eq_ok.1 h
  obtain rfl := Except.ok.inj h
  intro a ha
  obtain ⟨i, hi⟩ := read_of_optional hreserved a ha
  exact onClock_of_read hi

theorem OrderLine.read_toJson {l : OrderLine} (h : Decimal.ofText? l.unitPrice.text = some l.unitPrice) :
    read l.toJson = .ok l := by
  have hid := id_text l.id
  have hitem := id_text l.menuItem
  have hquantity := int32_word l.quantity
  have hprice := decimal_text h
  have hinstructions := option_text l.instructions
  refine record_record (by decide) (.cons (fits_field hid) (.cons (fits_field hitem) (.cons (fits_field hquantity)
    (.cons (fits_field hprice) (.cons (fits_field hinstructions) .nil))))) ?_
  simp [Source.required, Source.optional, Json.find?, hid, hitem, hquantity, hprice, hinstructions]

@[simp] theorem OrderLine.written_toJson (l : OrderLine) : l.toJson.Written := by simp [OrderLine.toJson]

namespace Order

variable {o : Order}

/-- no sum of prices is a zero with a minus -/
theorem AddedUp.plain_total (h : o.AddedUp) : o.total.Plain := by
  suffices hplain : ∀ (ls : List OrderLine) (acc d : Decimal), acc.Plain →
      (addLines acc ls : Outcome OrderError Decimal) = .ok d → d.Plain from
    hplain o.lines _ _ Decimal.plain_zero h
  intro ls
  induction ls with
  | nil =>
    intro acc d hacc h
    obtain rfl := Outcome.ok.inj h
    exact hacc
  | cons l ls ih =>
    intro acc d hacc h
    obtain ⟨price, hprice, h⟩ := Outcome.bind_eq_ok.1 h
    obtain ⟨sum, hsum, h⟩ := Outcome.bind_eq_ok.1 h
    exact ih sum d (Decimal.plain_of_add hacc (Decimal.plain_of_mul hprice) hsum) h

/-- the total is read and dropped -/
theorem stored_toJson (hdate : Timestamp.ofText? o.date.text = some o.date)
    (hlines : ∀ l ∈ o.lines, Decimal.ofText? l.unitPrice.text = some l.unitPrice)
    (htotal : Decimal.ofText? o.total.text = some o.total) :
    stored o.toJson = .ok { o with total := Decimal.zero } := by
  have hid := id_text o.id
  have hnumber := string_text o.number
  have htable := id_text o.tableId
  have hdate := time_text hdate
  have hstatus := o.status.read_toJson
  have hitems : Reader.list OrderLine.read (.arr (o.lines.map OrderLine.toJson)) = .ok o.lines :=
    list_map fun l hl => OrderLine.read_toJson (hlines l hl)
  have htotal := decimal_text htotal
  have hnotes := option_text o.notes
  have hversion := int32_word o.version
  refine record_record (by decide) (.cons (fits_field hid) (.cons (fits_field hnumber) (.cons (fits_field htable)
    (.cons (fits_field hdate) (.cons (fits_field hstatus) (.cons (fits_field hitems) (.cons (fits_field htotal)
      (.cons (fits_field hnotes) (.cons (fits_field hversion) .nil))))))))) ?_
  simp [Source.required, Source.optional, Source.defaulted, Json.find?, hid, hnumber, htable, hdate, hstatus, hitems,
    htotal, hnotes, hversion]

/-- an order is read with its total if the total is that of its lines -/
theorem read_toJson (h : o.AddedUp) (hdate : Timestamp.ofText? o.date.text = some o.date)
    (hlines : ∀ l ∈ o.lines, Decimal.ofText? l.unitPrice.text = some l.unitPrice) : read o.toJson = .ok o := by
  have htotal := Decimal.ofText?_text_iff.2 h.plain_total
  have hsum : ({ o with total := Decimal.zero }.setLines o.lines : Outcome OrderError Order) = .ok o :=
    Outcome.bind_eq_ok.2 ⟨o.total, h, rfl⟩
  rw [read_eq, stored_toJson hdate hlines htotal, ok_bind]
  exact ofOutcome_eq_ok.2 hsum

@[simp] theorem written_toJson (o : Order) : o.toJson.Written := by simp [toJson]

theorem date_of_read {j : Json} (h : read j = .ok o) : o.date.OnClock := by
  rw [read_eq] at h
  obtain ⟨p, hp, h⟩ := Except.bind_eq_ok.1 h
  -- adding up changes no date
  have hdate : o.date = p.date := by
    obtain ⟨total, -, htotal⟩ := Outcome.bind_eq_ok.1 (ofOutcome_eq_ok.1 h)
    obtain rfl := Outcome.ok.inj htotal
    rfl
  obtain ⟨s, hp⟩ := source_of_record hp
  obtain ⟨id, -, hp⟩ := Except.bind_eq_ok.1 hp
  obtain ⟨number, -, hp⟩ := Except.bind_eq_ok.1 hp
  obtain ⟨tableId, -, hp⟩ := Except.bind_eq_ok.1 hp
  obtain ⟨date, hread, hp⟩ := Except.bind_eq_ok.1 hp
  obtain ⟨status, -, hp⟩ := Except.bind_eq_ok.1 hp
  obtain ⟨lines, -, hp⟩ := Except.bind_eq_ok.1 hp
  obtain ⟨total, -, hp⟩ := Except.bind_eq_ok.1 hp
  obtain ⟨notes, -, hp⟩ := Except.bind_eq_ok.1 hp
  obtain ⟨version, -, hp⟩ := Except.bind_eq_ok.1 hp
  obtain rfl := Except.ok.inj hp
  obtain ⟨i, hi⟩ := read_of_required hread
  exact hdate ▸ onClock_of_read hi

end Order

/-! ## Events -/

namespace Event

variable {name : String} {v : Json} {e : Event} {i j : Id} {w y : Int32}

@[simp] theorem written_toJson (e : Event) : e.toJson.Written := by
  cases e <;> simp [toJson, tagged, ofId, ofGoal, ofDecision]

/-- an object with one member is read as the variant that the member names -/
theorem variant_tagged {vs : List (String × Content Event)} {c : Content Event} (hc : vs.lookup name = some c)
    (he : c.read v = .ok e) : variant vs (tagged name v) = .ok e := by
  change (variantNamed vs name >>= fun c => c.read v >>= _) = _
  unfold variantNamed
  rw [hc, ok_bind, he]
  rfl

theorem read_carrying (r : Reader Event) (v : Json) : (Content.carrying r).read v = r v := rfl

theorem read_fromId (f : Id → Event) : (fromId f).read (ofId i) = .ok (f i) := by
  rw [fromId, read_carrying, ofId, id_text]
  rfl

theorem read_fromChange (f : Id → String → String → Event) (a b : String)
    (hname : [name, "old_status", "new_status"].Nodup) :
    (fromChange name f).read (.record [(name, ofId i), ("old_status", .text a), ("new_status", .text b)]) =
      .ok (f i a b) := by
  have hid := id_text i
  rw [fromChange, read_carrying]
  refine record_record hname (.cons (fits_field hid) (.cons (fits_field (string_text a))
    (.cons (fits_field (string_text b)) .nil))) ?_
  simp only [List.nodup_cons, List.mem_cons, not_or] at hname
  simp [Source.required, Json.find?, ofId, hid, hname, string_text]

theorem read_fromPeriod :
    fromPeriod.read (.record [("period_id", ofId i), ("team_id", .word w), ("year", .word y)]) =
      .ok (goalPeriodCreated i w y) := by
  have hid := id_text i
  rw [fromPeriod, read_carrying]
  refine record_record (by decide) (.cons (fits_field hid) (.cons (fits_field (int32_word w))
    (.cons (fits_field (int32_word y)) .nil))) ?_
  simp [Source.required, Json.find?, ofId, hid, int32_word]

theorem read_fromGoal (f : Id → Id → Event) : (fromGoal f).read (ofGoal i j) = .ok (f i j) := by
  rw [fromGoal, read_carrying]
  refine record_record (by decide) (.cons (fits_field (id_text i)) (.cons (fits_field (id_text j)) .nil)) ?_
  simp [Source.required, Json.find?, ofId, id_text]

theorem read_fromDecision (f : Id → Int32 → Event) : (fromDecision f).read (ofDecision i w) = .ok (f i w) := by
  rw [fromDecision, read_carrying]
  refine record_record (by decide) (.cons (fits_field (id_text i)) (.cons (fits_field (int32_word w)) .nil)) ?_
  simp [Source.required, Json.find?, ofId, id_text, int32_word]

theorem read_toJson (e : Event) : read e.toJson = .ok e := by
  cases e with
  | orderCreated o => exact variant_tagged rfl (read_fromId _)
  | orderItemsChanged o => exact variant_tagged rfl (read_fromId _)
  | orderStatusChanged o a b => exact variant_tagged rfl (read_fromChange _ a b (by decide))
  | tableStatusChanged t a b => exact variant_tagged rfl (read_fromChange _ a b (by decide))
  | goalPeriodCreated p t y => exact variant_tagged rfl read_fromPeriod
  | goalSetCreated s => exact variant_tagged rfl (read_fromId _)
  | goalAdded s g => exact variant_tagged rfl (read_fromGoal _)
  | goalUpdated s g => exact variant_tagged rfl (read_fromGoal _)
  | goalProgressSubmitted s g => exact variant_tagged rfl (read_fromGoal _)
  | goalProgressApproved s g => exact variant_tagged rfl (read_fromGoal _)
  | goalProgressRejected s g => exact variant_tagged rfl (read_fromGoal _)
  | goalSetSubmitted s => exact variant_tagged rfl (read_fromId _)
  | goalSetApproved s u => exact variant_tagged rfl (read_fromDecision _)
  | goalSetRejected s u => exact variant_tagged rfl (read_fromDecision _)

end Event

end Brigade
