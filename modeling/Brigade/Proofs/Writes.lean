/-
One write to a store, and the event that tells of it.

A write adds an aggregate, or puts what an operation makes of a stored one in its place. `Store.Wrote` says what it does to
the store, to the indexes of natural keys included: one entry of one repository, and nothing else. An operation that is
granted leaves alone what identifies an aggregate (`Kind.Granted.frame`), so the two writes of a repository are such writes
(`wrote_of_add`, `wrote_of_update`). `Write.Announces` is the event that belongs to a write.
-/
import Brigade.Proofs.NaturalKeys
import Brigade.Proofs.OrderSheet
import Brigade.Repository
import Brigade.Event

namespace Brigade

/-! ## Operations of every kind -/

/-- operations on the aggregates of a kind; a goal period has none -/
@[reducible] def Kind.Op : Kind → Type
  | order => Order.Op
  | table => Table.Op
  | menuItem => MenuItem.Op
  | goalPeriod => Empty
  | goalSet => GoalSet.Op

/-- the operation is granted on `a` and makes `b` of it -/
def Kind.Granted : (k : Kind) → k.Op → k.Member → k.Member → Prop
  | order, op, a, b => Order.apply a op = .ok b
  | table, op, a, b => Table.apply a op = .ok b
  | menuItem, op, a, b => MenuItem.apply a op = .ok b
  | goalPeriod, op, _, _ => op.elim
  | goalSet, op, a, b => GoalSet.apply a op = .ok b

instance (k : Kind) : LawfulAggregate k.Member :=
  match k with
  | .order => inferInstanceAs (LawfulAggregate Order)
  | .table => inferInstanceAs (LawfulAggregate Table)
  | .menuItem => inferInstanceAs (LawfulAggregate MenuItem)
  | .goalPeriod => inferInstanceAs (LawfulAggregate GoalPeriod)
  | .goalSet => inferInstanceAs (LawfulAggregate GoalSet)

/-- the version that an aggregate has already -/
theorem Kind.withVersion_back (k : Kind) (a : k.Member) (v : Int32) :
    Aggregate.withVersion (Aggregate.withVersion a v) (Aggregate.version a) = a := by
  cases k <;> rfl

/-- an operation on an order changes its sheet and its total -/
theorem Order.apply_frame {o o' : Order} {op : Order.Op} (h : o.apply op = .ok o') :
    o' = o.withSheet o'.sheet o'.total := by
  have hlines : ∀ ls, (o.setLines ls : Outcome OrderError Order) = .ok o' → o' = o.withSheet o'.sheet o'.total := by
    intro ls hls
    obtain ⟨total, -, hls⟩ := Outcome.bind_eq_ok.1 hls
    obtain rfl := Outcome.ok.inj hls
    rfl
  cases op with
  | addLine i m q p t =>
    simp only [Order.apply, Order.addLine] at h
    split_ifs at h
    obtain ⟨l, -, h⟩ := Outcome.bind_eq_ok.1 h
    exact hlines _ h
  | removeLine i =>
    simp only [Order.apply, Order.removeLine] at h
    split_ifs at h
    · obtain rfl := Outcome.ok.inj h
      rfl
    · exact hlines _ h
  | setQuantity i q =>
    simp only [Order.apply, Order.setQuantity] at h
    split_ifs at h
    · obtain rfl := Outcome.ok.inj h
      rfl
    · exact hlines _ h
  | setNotes n =>
    obtain rfl := Outcome.ok.inj h
    rfl
  | _ =>
    simp only [Order.apply, Order.moveTo, Order.startPreparation, Order.markReady, Order.serve, Order.cancel] at h
    split_ifs at h
    obtain rfl := Outcome.ok.inj h
    rfl

/-- an operation on a table changes its status and the time of its reservation -/
theorem Table.apply_frame {t t' : Table} {op : Table.Op} (h : t.apply op = .ok t') :
    t' = { t with status := t'.status, reservedAt := t'.reservedAt } := by
  cases op with
  | makeAvailable =>
    obtain rfl := Outcome.ok.inj h
    rfl
  | setStatus s now =>
    obtain rfl := Outcome.ok.inj h
    rfl
  | _ =>
    simp only [Table.apply, Table.reserve, Table.occupy, Table.takeOutOfService] at h
    split_ifs at h
    obtain rfl := Outcome.ok.inj h
    rfl

/-- an operation on a menu item changes its price and whether it is there -/
theorem MenuItem.apply_frame {m m' : MenuItem} {op : MenuItem.Op} (h : m.apply op = .ok m') :
    m' = { m with price := m'.price, available := m'.available } := by
  cases op with
  | setPrice p =>
    simp only [MenuItem.apply, MenuItem.setPrice] at h
    split_ifs at h
    obtain rfl := Outcome.ok.inj h
    rfl
  | _ =>
    obtain rfl := Outcome.ok.inj h
    rfl

/-- an operation on a goal set changes its status and its goals -/
theorem GoalSet.apply_frame {s t : GoalSet} {op : GoalSet.Op} (h : s.apply op = .ok t) :
    t = { s with status := t.status, goals := t.goals } := by
  cases change_of_apply h <;> rfl

namespace Kind.Granted

variable {k : Kind} {op : k.Op} {a b : k.Member}

/-- an operation leaves the identity, the version and the key alone -/
theorem frame (h : k.Granted op a b) :
    Aggregate.id b = Aggregate.id a ∧ Aggregate.version b = Aggregate.version a ∧
      Aggregate.key b = Aggregate.key a := by
  cases k with
  | order => rw [Order.apply_frame h]; exact ⟨rfl, rfl, rfl⟩
  | table => rw [Table.apply_frame h]; exact ⟨rfl, rfl, rfl⟩
  | menuItem => rw [MenuItem.apply_frame h]; exact ⟨rfl, rfl, rfl⟩
  | goalPeriod => exact op.elim
  | goalSet => rw [GoalSet.apply_frame h]; exact ⟨rfl, rfl, rfl⟩

theorem id_eq (h : k.Granted op a b) : Aggregate.id b = Aggregate.id a := h.frame.1

theorem version_eq (h : k.Granted op a b) : Aggregate.version b = Aggregate.version a := h.frame.2.1

theorem key_eq (h : k.Granted op a b) : Aggregate.key b = Aggregate.key a := h.frame.2.2

end Kind.Granted

/-! ## Writes -/

/-- a write to a store -/
inductive Write where
  | added (k : Kind) (a : k.Member)
  /-- `new` takes the place of `old` -/
  | changed (k : Kind) (old new : k.Member)

/-- what a write makes of a store: at one place in one repository, and nothing else -/
inductive Store.Wrote (s : Store) : Write → Store → Prop where
  | added {k : Kind} {a : k.Member} (free : ∀ key, Aggregate.key a = some key → key ∉ (s.repo k).claimed)
      (unused : ∀ b ∈ (s.repo k).items, Aggregate.id b ≠ Aggregate.id a) :
      Wrote s (.added k a)
        (s.setRepo k
          ⟨(s.repo k).items ++ [a], (s.repo k).keys ++ ((Aggregate.key a).map fun key => (key, Aggregate.id a)).toList⟩)
  | changed {k : Kind} {old new : k.Member} {pre post : List k.Member} (op : k.Op)
      (place : (s.repo k).items = pre ++ old :: post) (first : ∀ b ∈ pre, Aggregate.id b ≠ Aggregate.id old)
      (granted : k.Granted op old (Aggregate.withVersion new (Aggregate.version old)))
      (id : Aggregate.id new = Aggregate.id old)
      (version : (Aggregate.version new).toInt = (Aggregate.version old).toInt + 1) :
      Wrote s (.changed k old new) (s.setRepo k ⟨pre ++ new :: post, (s.repo k).keys⟩)

namespace Store

variable {s : Store} {k : Kind} {a b old : k.Member} {r : Repository k.Member}

theorem wrote_of_add (h : (s.repo k).add a = (.ok (), r)) : s.Wrote (.added k a) (s.setRepo k r) := by
  cases h ▸ Repository.add_case (s.repo k) a with
  | stored free unused => exact .added free (Repository.get?_eq_none.1 unused)

theorem wrote_of_update {op : k.Op} (hget : (s.repo k).get? (Aggregate.id a) = some old) (hop : k.Granted op old a)
    (h : (s.repo k).update a = .ok (b, r)) : s.Wrote (.changed k old b) (s.setRepo k r) := by
  obtain ⟨stored, v, hstored, -, hv, rfl, rfl⟩ := Repository.update_eq_ok h
  obtain rfl : old = stored := Option.some.inj (hget.symm.trans hstored)
  have hgranted : k.Granted op old (Aggregate.withVersion (Aggregate.withVersion a v) (Aggregate.version old)) := by
    rw [← hop.version_eq, k.withVersion_back a v]
    exact hop
  have hid : Aggregate.id (Aggregate.withVersion a v) = Aggregate.id old := by simp [hop.id_eq]
  rcases updateFirst_cases (Aggregate.id · == Aggregate.id (Aggregate.withVersion a v))
      (fun _ => Aggregate.withVersion a v) (s.repo k).items with ⟨hnone, -⟩ | ⟨pre, old', post, hplace, hpre, hold, heq⟩
  · -- the aggregate that was found is in the list
    have hmem := Repository.mem_of_get? hget
    have := hnone old hmem
    simp [hop.id_eq] at this
  · have hfirst : ∀ b ∈ pre, Aggregate.id b ≠ Aggregate.id old := by
      intro b hb
      have := hpre b hb
      simpa [hop.id_eq] using this
    -- nothing before the place has the identity, so what was found is what is there
    obtain rfl : old' = old := by
      have hfound : (s.repo k).get? (Aggregate.id a) = some old' := by
        have hnone : pre.find? (Aggregate.id · == Aggregate.id a) = none :=
          List.find?_eq_none.2 fun b hb => by simpa [hop.id_eq] using hfirst b hb
        rw [Repository.get?, hplace, List.find?_append, hnone, Option.none_or]
        exact List.find?_cons_of_pos (by simpa using hold)
      exact Option.some.inj (hfound.symm.trans hget)
    have hr : (s.repo k).replace (Aggregate.withVersion a v) =
        ⟨pre ++ Aggregate.withVersion a v :: post, (s.repo k).keys⟩ := by
      unfold Repository.replace
      rw [heq]
    rw [hr]
    exact .changed op hplace hfirst hgranted hid (by simpa using hv)

/-- what a write makes of the repository of a kind: nothing, one more aggregate, or another one in a place -/
theorem Wrote.repo_cases {t : Store} {u : Write} (h : s.Wrote u t) (k : Kind) :
    t.repo k = s.repo k ∨
      (∃ a, u = .added k a ∧ (∀ key, Aggregate.key a = some key → key ∉ (s.repo k).claimed) ∧
        (∀ b ∈ (s.repo k).items, Aggregate.id b ≠ Aggregate.id a) ∧
        t.repo k = ⟨(s.repo k).items ++ [a],
          (s.repo k).keys ++ ((Aggregate.key a).map fun key => (key, Aggregate.id a)).toList⟩) ∨
      ∃ old new op pre post, u = .changed k old new ∧ (s.repo k).items = pre ++ old :: post ∧
        k.Granted op old (Aggregate.withVersion new (Aggregate.version old)) ∧ Aggregate.id new = Aggregate.id old ∧
        t.repo k = ⟨pre ++ new :: post, (s.repo k).keys⟩ := by
  cases h with
  | added free unused =>
    rename_i k' a
    by_cases hk : k = k'
    · subst hk
      exact .inr (.inl ⟨a, rfl, free, unused, repo_setRepo _ _ _⟩)
    · exact .inl (repo_setRepo_of_ne _ hk _)
  | changed op place first granted id version =>
    rename_i k' old new pre post
    by_cases hk : k = k'
    · subst hk
      exact .inr (.inr ⟨old, new, op, pre, post, rfl, place, granted, id, repo_setRepo _ _ _⟩)
    · exact .inl (repo_setRepo_of_ne _ hk _)

/-- identities stay distinct -/
theorem Wrote.ids_nodup {t : Store} {u : Write} (h : s.Wrote u t) {k : Kind}
    (hn : ((s.repo k).items.map Aggregate.id).Nodup) : ((t.repo k).items.map Aggregate.id).Nodup := by
  rcases h.repo_cases k with heq | ⟨a, -, -, hunused, heq⟩ | ⟨old, new, op, pre, post, -, hplace, -, hid, heq⟩
  · rwa [heq]
  · rw [heq, List.map_append, List.map_singleton]
    refine List.nodup_append.2 ⟨hn, List.nodup_singleton _, fun i hi j hj => ?_⟩
    obtain ⟨b, hb, rfl⟩ := List.mem_map.1 hi
    rw [List.mem_singleton.1 hj]
    exact hunused b hb
  · rw [hplace, List.map_append, List.map_cons] at hn
    rw [heq, List.map_append, List.map_cons, hid]
    exact hn

/-- an operation that is granted and written under another version keeps the key -/
theorem key_of_granted {op : k.Op} {v : Int32} (h : k.Granted op old (Aggregate.withVersion a v)) :
    Aggregate.key a = Aggregate.key old := by
  have hkey := h.key_eq
  rwa [LawfulAggregate.key_withVersion] at hkey

/-- an index that is right stays right -/
theorem Wrote.indexed {t : Store} {u : Write} (h : s.Wrote u t) {k : Kind}
    (hkeyed : ∀ a : k.Member, (Aggregate.key a).isSome = true) (hi : (s.repo k).Indexed) : (t.repo k).Indexed := by
  rcases h.repo_cases k with heq | ⟨a, -, hfree, -, heq⟩ | ⟨old, new, op, pre, post, -, hplace, hop, -, heq⟩
  · rwa [heq]
  · obtain ⟨key, hkey⟩ := Option.isSome_iff_exists.1 (hkeyed a)
    rw [heq, hkey]
    exact hi.append hkey (hfree key hkey)
  · have hkeys : (pre ++ new :: post).map Aggregate.key = (s.repo k).storedKeys := by
      rw [Repository.storedKeys, hplace]
      simp [key_of_granted hop]
    rw [heq]
    exact hi.congr hkeys

end Store

/-! ## Events of writes -/

/-- the event of an aggregate that is added; some kinds have none -/
def Event.ofAdded? : (k : Kind) → k.Member → Option Event
  | .order, o => some (.orderCreated (Order.id o))
  | .goalPeriod, p => some (.goalPeriodCreated (GoalPeriod.id p) (GoalPeriod.teamId p) (GoalPeriod.year p))
  | .goalSet, s => some (.goalSetCreated (GoalSet.id s))
  | .table, _ | .menuItem, _ => none

/-- the event of an operation on an order -/
def Event.ofOrderOp? (old new : Order) : Order.Op → Option Event
  | .addLine .. | .removeLine _ | .setQuantity .. => some (.orderItemsChanged new.id)
  | .setNotes _ => none
  | .moveTo _ | .startPreparation | .markReady | .serve | .cancel =>
    some (.orderStatusChanged new.id old.status.name new.status.name)

/-- the event of an operation on a goal set -/
def Event.ofGoalSetOp (new : GoalSet) : GoalSet.Op → Event
  | .addGoal i .. => .goalAdded new.id i
  | .updateGoal i .. => .goalUpdated new.id i
  | .submitProgress i .. => .goalProgressSubmitted new.id i
  | .approveProgress i => .goalProgressApproved new.id i
  | .rejectProgress i => .goalProgressRejected new.id i
  | .sendToApproval => .goalSetSubmitted new.id
  | .approve u => .goalSetApproved new.id u
  | .reject u => .goalSetRejected new.id u

/-- the event of an operation that puts `new` in the place of `old`; some operations have none -/
def Event.ofOp? : (k : Kind) → k.Op → (old new : k.Member) → Option Event
  | .order, op, old, new => Event.ofOrderOp? old new op
  | .table, _, old, new =>
    some (.tableStatusChanged (Table.id new) (Table.status old).name (Table.status new).name)
  | .goalSet, op, _, new => some (Event.ofGoalSetOp new op)
  | .menuItem, _, _, _ | .goalPeriod, _, _, _ => none

/-- the event tells of the write -/
def Write.Announces : Write → Event → Prop
  | .added k a, e => Event.ofAdded? k a = some e
  | .changed k old new, e =>
    ∃ op : k.Op, k.Granted op old (Aggregate.withVersion new (Aggregate.version old)) ∧ Event.ofOp? k op old new = some e

end Brigade
