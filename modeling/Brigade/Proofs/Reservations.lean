/-
Tables and their reservations.

A table has a reservation time exactly while it is reserved. Every operation that is granted moves the table to one status
(`Op.target`) and leaves one stamp on it (`Op.stamp`), so the checked verbs and the setter that goes anywhere can differ in
what they refuse only, never in what they leave behind.
- `reservations_tracked`: along every run of a table, new or read, the stamp and the status agree, and the stamp is the one
  of the last operation that was granted. What can be read is exactly what is well-formed.
- `move_eq_set`: the command that goes through the verbs leaves what the setter would have left.

The invariant is `WellFormed`. Reading sets it up, and one equation for each operation (`apply_eq_ok`) keeps it.
-/
import Brigade.Command.Table
import Brigade.Proofs.Readers

namespace Brigade

namespace Table

/-- a positive number and capacity, and a reservation time exactly while it is reserved -/
structure WellFormed (t : Table) : Prop where
  number_pos : 0 < t.number
  capacity_pos : 0 < t.capacity
  stamped_iff : t.reservedAt.isSome = true ↔ t.status = .reserved

/-- the same table, whatever became of its status -/
structure SameTable (t u : Table) : Prop where
  id : u.id = t.id
  number : u.number = t.number
  capacity : u.capacity = t.capacity
  version : u.version = t.version

variable {t u v : Table} {op : Op}

theorem SameTable.refl (t : Table) : t.SameTable t := ⟨rfl, rfl, rfl, rfl⟩

theorem SameTable.trans (h : t.SameTable u) (h' : u.SameTable v) : t.SameTable v :=
  ⟨h'.id.trans h.id, h'.number.trans h.number, h'.capacity.trans h.capacity, h'.version.trans h.version⟩

/-! ## One operation -/

namespace Op

/-- the status it moves to -/
def target : Op → TableStatus
  | .reserve _ => .reserved
  | .occupy => .occupied
  | .makeAvailable => .available
  | .takeOutOfService => .outOfService
  | .setStatus s _ => s

/-- the time it was given, if it takes one -/
def time? : Op → Option Timestamp
  | .reserve time => some time
  | .setStatus _ now => some now
  | _ => none

/-- the stamp it leaves -/
def stamp (op : Op) : Option Timestamp := if op.target = .reserved then op.time? else none

/-- the statuses from which it is granted -/
def GrantedFrom : Op → TableStatus → Prop
  | .reserve _, s => s = .available
  | .occupy, s => s = .available ∨ s = .reserved
  | .takeOutOfService, s => s ≠ .occupied
  | _, _ => True

/-- what would reserve a table has a time to stamp it with -/
theorem isSome_stamp (op : Op) : op.stamp.isSome = true ↔ op.target = .reserved := by
  unfold stamp
  split
  · rename_i h
    cases op with
    | reserve time => simp [target, time?]
    | setStatus s now => simp_all [time?]
    | _ => cases h
  · rename_i h
    simp [h]

end Op

/-- **One operation.** Granted or not depends on the status; what is left does not depend on the operation's check. -/
theorem apply_eq_ok :
    t.apply op = .ok u ↔ op.GrantedFrom t.status ∧ u = { t with status := op.target, reservedAt := op.stamp } := by
  cases op with
  | reserve time =>
    simp only [apply, reserve, Op.GrantedFrom]
    by_cases hs : t.status = .available
    · simp [hs, Op.stamp, Op.target, Op.time?, eq_comm]
    · simp [hs]
  | occupy =>
    simp only [apply, occupy, Op.GrantedFrom]
    by_cases hs : t.status = .available ∨ t.status = .reserved
    · rw [if_neg fun hne => hs.elim hne.1 hne.2]
      simp only [hs, true_and, Outcome.ok.injEq]
      exact eq_comm
    · rw [if_pos (not_or.1 hs)]
      simp only [hs, false_and, reduceCtorEq]
  | makeAvailable => simp [apply, makeAvailable, Op.GrantedFrom, Op.stamp, Op.target, eq_comm]
  | takeOutOfService =>
    simp only [apply, takeOutOfService, Op.GrantedFrom]
    by_cases hs : t.status = .occupied
    · simp [hs]
    · simp [hs, Op.stamp, Op.target, eq_comm]
  | setStatus s now =>
    simp only [apply, setStatus, Op.GrantedFrom, true_and, Outcome.ok.injEq]
    exact eq_comm

/-- an operation that is not granted is refused -/
theorem apply_cases (t : Table) (op : Op) : (∃ u, t.apply op = .ok u) ∨ ∃ e, t.apply op = .refused e := by
  cases h : t.apply op with
  | ok u => exact .inl ⟨u, rfl⟩
  | refused e => exact .inr ⟨e, rfl⟩
  | fault f =>
    cases op with
    | makeAvailable => cases h
    | setStatus s now => cases h
    | _ =>
      simp only [apply, reserve, occupy, takeOutOfService] at h
      split_ifs at h

/-- a granted operation leaves what the setter leaves for the same status at the same time -/
theorem apply_eq_setStatus (h : t.apply op = .ok u) {now : Timestamp} (hnow : ∀ time, op.time? = some time → time = now) :
    u = t.setStatus op.target now := by
  obtain ⟨-, rfl⟩ := apply_eq_ok.1 h
  have hstamp : op.stamp = if op.target = .reserved then some now else none := by
    unfold Op.stamp
    split
    · rename_i htarget
      obtain ⟨time, htime⟩ : ∃ time, op.time? = some time := by
        have hsome := (Op.isSome_stamp op).2 htarget
        rw [Op.stamp, if_pos htarget] at hsome
        exact Option.isSome_iff_exists.1 hsome
      rw [htime, hnow time htime]
    · rfl
  rw [setStatus, hstamp]

theorem WellFormed.apply (hw : t.WellFormed) (h : t.apply op = .ok u) : u.WellFormed ∧ t.SameTable u := by
  obtain ⟨-, rfl⟩ := apply_eq_ok.1 h
  exact ⟨⟨hw.number_pos, hw.capacity_pos, Op.isSome_stamp op⟩, ⟨rfl, rfl, rfl, rfl⟩⟩

/-! ## Tables at their start -/

theorem problems_eq_nil {number capacity : Int32} : problems number capacity = [] ↔ 0 < number ∧ 0 < capacity := by
  unfold problems
  rw [List.append_eq_nil_iff, ← Int32.not_le, ← Int32.not_le]
  constructor
  · rintro ⟨hn, hc⟩
    refine ⟨fun h => ?_, fun h => ?_⟩
    · rw [if_pos h] at hn
      cases hn
    · rw [if_pos h] at hc
      cases hc
  · rintro ⟨hn, hc⟩
    rw [if_neg hn, if_neg hc]
    exact ⟨rfl, rfl⟩

theorem create_eq_ok {id : Id} {number capacity : Int32} :
    create id number capacity = .ok t ↔
      (0 < number ∧ 0 < capacity) ∧ t = ⟨id, number, capacity, .available, none, 1⟩ := by
  unfold create
  rw [← problems_eq_nil]
  cases hp : problems number capacity with
  | nil => simp [eq_comm]
  | cons e es => simp

/-- what is stored passes the checks exactly if it is well-formed, and is kept as it is -/
theorem ofParts_eq_ok : t.ofParts = .ok u ↔ t.WellFormed ∧ u = t := by
  unfold ofParts
  rw [Outcome.bind_eq_ok]
  constructor
  · rintro ⟨fresh, hfresh, h⟩
    obtain ⟨⟨hn, hc⟩, -⟩ := create_eq_ok.1 hfresh
    cases hs : t.status <;> cases hr : t.reservedAt <;> rw [hs, hr] at h <;> cases h <;>
      exact ⟨⟨hn, hc, by simp [hs, hr]⟩, rfl⟩
  · rintro ⟨hw, rfl⟩
    refine ⟨_, create_eq_ok.2 ⟨⟨hw.number_pos, hw.capacity_pos⟩, rfl⟩, ?_⟩
    have hiff := hw.stamped_iff
    cases hs : u.status <;> cases hr : u.reservedAt <;> simp_all

theorem read_eq_ok {j : Json} : read j = .ok t ↔ parts j = .ok t ∧ t.WellFormed := by
  have hread : read j = parts j >>= fun t =>
      Reader.ofOutcome (fun es => "; ".intercalate (es.map TableError.message)) t.ofParts := rfl
  rw [hread, Except.bind_eq_ok]
  constructor
  · rintro ⟨stored, hstored, h⟩
    obtain ⟨hw, rfl⟩ := ofParts_eq_ok.1 (Reader.ofOutcome_eq_ok.1 h)
    exact ⟨hstored, hw⟩
  · rintro ⟨hstored, hw⟩
    exact ⟨t, hstored, Reader.ofOutcome_eq_ok.2 (ofParts_eq_ok.2 ⟨hw, rfl⟩)⟩

/-- the table is new, or was read -/
def Starts (t : Table) : Prop := (∃ id number capacity, create id number capacity = .ok t) ∨ ∃ j, read j = .ok t

theorem Starts.wellFormed (h : t.Starts) : t.WellFormed := by
  rcases h with ⟨id, number, capacity, h⟩ | ⟨j, h⟩
  · obtain ⟨⟨hn, hc⟩, rfl⟩ := create_eq_ok.1 h
    exact ⟨hn, hc, by simp⟩
  · exact (read_eq_ok.1 h).2

/-! ## Runs -/

/-- how a run leaves a table: as it was if nothing was granted, else with the status and the stamp of the last operation
that was -/
inductive Settles (t : Table) : List Op → Table → Prop where
  | untouched {ops : List Op} (hrefused : ∀ op ∈ ops, ∃ e, t.apply op = .refused e) : Settles t ops t
  | moved {pre post : List Op} {op : Op} {before after : Table} (hbefore : t.run pre = .ok before)
      (hgranted : before.apply op = .ok after) (hstatus : after.status = op.target)
      (hstamp : after.reservedAt = op.stamp) (hrefused : ∀ op ∈ post, ∃ e, after.apply op = .refused e) :
      Settles t (pre ++ op :: post) after

theorem run_snoc {ops : List Op} (h : t.run ops = .ok u) (op : Op) : t.run (ops ++ [op]) = u.step op := by
  simp only [run, List.foldlM_append] at h ⊢
  rw [h]
  change (u.step op >>= pure) = u.step op
  rw [bind_pure]

theorem Settles.snoc_refused {ops : List Op} {e : TableError} (h : t.Settles ops u) (he : u.apply op = .refused e) :
    t.Settles (ops ++ [op]) u := by
  have hlast : ∀ {ops : List Op}, (∀ op ∈ ops, ∃ e, u.apply op = .refused e) →
      ∀ op' ∈ ops ++ [op], ∃ e, u.apply op' = .refused e := by
    intro ops hops op' hop'
    rcases List.mem_append.1 hop' with hop' | hop'
    · exact hops op' hop'
    · rw [List.mem_singleton.1 hop']
      exact ⟨e, he⟩
  cases h with
  | untouched hrefused => exact .untouched (hlast hrefused)
  | moved hbefore hgranted hstatus hstamp hrefused =>
    rw [List.append_assoc, List.cons_append]
    exact .moved hbefore hgranted hstatus hstamp (hlast hrefused)

/-- a run is never at fault, and ends in a well-formed table that settled -/
theorem WellFormed.run (hw : t.WellFormed) (ops : List Op) :
    ∃ u, t.run ops = .ok u ∧ u.WellFormed ∧ t.SameTable u ∧ t.Settles ops u := by
  induction ops using List.reverseRecOn with
  | nil => exact ⟨t, rfl, hw, SameTable.refl t, .untouched (by simp)⟩
  | append_singleton ops op ih =>
    obtain ⟨u, hu, hwu, hsame, hsettles⟩ := ih
    rw [run_snoc hu]
    rcases apply_cases u op with ⟨v, hv⟩ | ⟨e, he⟩
    · obtain ⟨hwv, hsame'⟩ := hwu.apply hv
      have hmoved := (apply_eq_ok.1 hv).2
      refine ⟨v, by rw [step, hv]; rfl, hwv, hsame.trans hsame', ?_⟩
      exact .moved hu hv (by rw [hmoved]) (by rw [hmoved]) (by simp)
    · exact ⟨u, by rw [step, he]; rfl, hwu, hsame, hsettles.snoc_refused he⟩

/-- **Reservations are tracked.** A table that is new or was read, after any operations: it is well-formed and still the
same table; the last operation that was granted left its status and its stamp; an operation that is refused changes
nothing; and one that is granted leaves what the setter leaves for the same status at the same time. What can be read is
what has the parts of a table and is well-formed. -/
theorem reservations_tracked :
    (∀ t : Table, t.Starts → ∀ ops : List Op, ∃ u, t.run ops = .ok u ∧
      u.WellFormed ∧ t.SameTable u ∧ t.Settles ops u ∧
      (∀ op e, u.apply op = .refused e → u.step op = .ok u) ∧
      ∀ op v, u.apply op = .ok v → ∀ now, (∀ time, op.time? = some time → time = now) → v = u.setStatus op.target now) ∧
    ∀ (text : String) (t : Table),
      Reader.ofText read text = .ok t ↔ Reader.ofText parts text = .ok t ∧ t.WellFormed := by
  refine ⟨fun t ht ops => ?_, fun text t => ?_⟩
  · obtain ⟨u, hu, hw, hsame, hsettles⟩ := ht.wellFormed.run ops
    refine ⟨u, hu, hw, hsame, hsettles, fun op e he => ?_, fun op v hv now hnow => apply_eq_setStatus hv hnow⟩
    rw [step, he]
    rfl
  · simp only [Reader.ofText_eq_ok, read_eq_ok]
    exact ⟨fun ⟨j, hj, hparts, hw⟩ => ⟨⟨j, hj, hparts⟩, hw⟩, fun ⟨⟨j, hj, hparts⟩, hw⟩ => ⟨j, hj, hparts, hw⟩⟩

/-- reserved when it was stored -/
def windowTable : Table := ⟨.ofNat 7, 7, 4, .reserved, some { Timestamp.epoch with seconds := 1709967902 }, 3⟩

/-- reserved again in vain, out of service, reserved by the setter, and again in vain -/
def windowOps (later : Timestamp) : List Op :=
  [.reserve later, .takeOutOfService, .setStatus .reserved later, .reserve .epoch]

theorem reservations_tracked_window :
    read windowTable.toJson = .ok windowTable ∧
    ∃ u, windowTable.run (windowOps { Timestamp.epoch with seconds := 1709971502 }) = .ok u ∧ u.WellFormed ∧
      u.reservedAt = some { Timestamp.epoch with seconds := 1709971502 } ∧
      ∀ v, u.apply .occupy = .ok v → v = u.setStatus .occupied .epoch := by
  have hread : read windowTable.toJson = .ok windowTable := by decide +kernel
  obtain ⟨u, hu, hw, -, -, -, hsetter⟩ := reservations_tracked.1 windowTable (.inr ⟨_, hread⟩)
    (windowOps { Timestamp.epoch with seconds := 1709971502 })
  refine ⟨hread, u, hu, hw, ?_, fun v hv => hsetter .occupy v hv .epoch fun time htime => by cases htime⟩
  have hlast : windowTable.run (windowOps { Timestamp.epoch with seconds := 1709971502 }) =
      .ok { windowTable with reservedAt := some { Timestamp.epoch with seconds := 1709971502 } } := by decide +kernel
  rw [hlast] at hu
  rw [← Except.ok.inj hu]

/-! ## The command -/

/-- **Verbs and setter.** The command that goes through the verbs leaves what the setter leaves at the time of the clock,
whenever it leaves anything. -/
theorem move_eq_set {σ : Type} (w : World σ) (s : σ) {c : MoveTable} (h : ((c.apply t).plan.run w s).1 = .value u) :
    u = t.setStatus c.status (w .clock s).1 := by
  have hverb : ∀ op : Op, op.time? = none → t.apply op = .ok u → u = t.setStatus op.target (w .clock s).1 :=
    fun op hop hu => apply_eq_setStatus hu fun time htime => by rw [hop] at htime; cases htime
  -- a refused verb leaves no value
  have hvalue : ∀ {o : Outcome TableError Table} {s : σ},
      ((Task.ofOutcome TableCommand.refusal o).plan.run w s).1 = .value u → o = .ok u := by
    intro o s h
    cases o with
    | ok v => exact congrArg Outcome.ok (Ending.value.inj h)
    | refused e => cases h
    | fault f => cases h
  unfold MoveTable.apply at h
  cases hs : c.status with
  | available =>
    rw [hs] at h
    exact hverb .makeAvailable rfl (congrArg Outcome.ok (Ending.value.inj h))
  | occupied =>
    rw [hs] at h
    exact hverb .occupy rfl (hvalue h)
  | reserved =>
    rw [hs] at h
    have hreserve : t.apply (.reserve (w .clock s).1) = .ok u := hvalue h
    exact apply_eq_setStatus hreserve fun time htime => (Option.some.inj htime).symm
  | outOfService =>
    rw [hs] at h
    exact hverb .takeOutOfService rfl (hvalue h)
  | cleaning =>
    rw [hs] at h
    cases h

end Table

end Brigade
