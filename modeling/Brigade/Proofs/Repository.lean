/-
What the two writes of a repository do.

An aggregate is lawful if writing its version changes nothing else that a repository looks at. Adding ends in one of
three ways (`add_case`): the key is taken, the identity is taken, or the aggregate is stored at the end with its key in
the index; in the first two the repository is what it was, the key that was claimed included. An update that is granted
puts the aggregate, under the next version, in the place of the stored one (`update_eq_ok`).
-/
import Brigade.Proofs.First
import Brigade.Repository

namespace Brigade

/-- a version is written without changing the identity or the key -/
class LawfulAggregate (α : Type) [Aggregate α] : Prop where
  id_withVersion (a : α) (v : Int32) : Aggregate.id (Aggregate.withVersion a v) = Aggregate.id a
  version_withVersion (a : α) (v : Int32) : Aggregate.version (Aggregate.withVersion a v) = v
  key_withVersion (a : α) (v : Int32) : Aggregate.key (Aggregate.withVersion a v) = Aggregate.key a

attribute [simp] LawfulAggregate.id_withVersion LawfulAggregate.version_withVersion LawfulAggregate.key_withVersion

instance : LawfulAggregate Order := ⟨fun _ _ => rfl, fun _ _ => rfl, fun _ _ => rfl⟩
instance : LawfulAggregate Table := ⟨fun _ _ => rfl, fun _ _ => rfl, fun _ _ => rfl⟩
instance : LawfulAggregate MenuItem := ⟨fun _ _ => rfl, fun _ _ => rfl, fun _ _ => rfl⟩
instance : LawfulAggregate GoalPeriod := ⟨fun _ _ => rfl, fun _ _ => rfl, fun _ _ => rfl⟩
instance : LawfulAggregate GoalSet := ⟨fun _ _ => rfl, fun _ _ => rfl, fun _ _ => rfl⟩

namespace Repository

variable {α : Type}

/-- the keys in the index -/
def claimed (r : Repository α) : List NaturalKey := r.keys.map Prod.fst

/-! ## Claims on keys -/

theorem claim_of_mem {r : Repository α} {k : NaturalKey} (h : k ∈ r.claimed) (i : Id) : r.claim k i = none := by
  obtain ⟨e, he, rfl⟩ := List.mem_map.1 h
  exact if_pos (List.any_eq_true.2 ⟨e, he, by simp⟩)

theorem claim_of_not_mem {r : Repository α} {k : NaturalKey} (h : k ∉ r.claimed) (i : Id) :
    r.claim k i = some ⟨r.items, r.keys ++ [(k, i)]⟩ := by
  refine if_neg fun hany => h ?_
  obtain ⟨e, he, hek⟩ := List.any_eq_true.1 hany
  exact List.mem_map.2 ⟨e, he, by simpa using hek⟩

/-- giving a key back right after it was claimed leaves the index as it was -/
theorem release_claimed {r : Repository α} {k : NaturalKey} (h : k ∉ r.claimed) (i : Id) :
    release ⟨r.items, r.keys ++ [(k, i)]⟩ k = r := by
  have hkeys : r.keys.filter (·.1 != k) = r.keys := by
    refine List.filter_eq_self.2 fun e he => ?_
    have hne : e.1 ≠ k := fun heq => h (List.mem_map.2 ⟨e, he, heq⟩)
    simpa using hne
  simp [release, List.filter_append, hkeys]

variable [Aggregate α]

/-! ## Looking up -/

theorem id_of_get? {r : Repository α} {i : Id} {a : α} (h : r.get? i = some a) : Aggregate.id a = i := by
  simpa using List.find?_some h

theorem mem_of_get? {r : Repository α} {i : Id} {a : α} (h : r.get? i = some a) : a ∈ r.items :=
  List.mem_of_find?_eq_some h

theorem get?_eq_none {r : Repository α} {i : Id} : r.get? i = none ↔ ∀ a ∈ r.items, Aggregate.id a ≠ i := by
  simp [get?]

/-! ## Adding -/

/-- the ways in which adding ends -/
inductive AddCase (r : Repository α) (a : α) : Except Failure Unit × Repository α → Prop where
  | keyTaken (k : NaturalKey) (key : Aggregate.key a = some k) (taken : k ∈ r.claimed) :
      AddCase r a (.error (Repository.keyTaken α k), r)
  | idTaken (free : ∀ k, Aggregate.key a = some k → k ∉ r.claimed) (stored : (r.get? (Aggregate.id a)).isSome = true) :
      AddCase r a (.error (Repository.idTaken α (Aggregate.id a)), r)
  | stored (free : ∀ k, Aggregate.key a = some k → k ∉ r.claimed) (unused : r.get? (Aggregate.id a) = none) :
      AddCase r a (.ok (),
        ⟨r.items ++ [a], r.keys ++ ((Aggregate.key a).map fun k => (k, Aggregate.id a)).toList⟩)

theorem add_case (r : Repository α) (a : α) : AddCase r a (r.add a) := by
  unfold add
  cases hk : Aggregate.key a with
  | none =>
    simp only [finishAdd, insert, hk]
    cases hg : r.get? (Aggregate.id a) with
    | none =>
      have := AddCase.stored (r := r) (a := a) (by simp [hk]) hg
      simpa [hk] using this
    | some b => exact .idTaken (by simp [hk]) (by simp [hg])
  | some k =>
    by_cases hc : k ∈ r.claimed
    · simp only [claim_of_mem hc]
      exact .keyTaken k hk hc
    · have hfree : ∀ k', Aggregate.key a = some k' → k' ∉ r.claimed := by
        intro k' hk'
        rw [hk] at hk'
        exact Option.some.inj hk' ▸ hc
      simp only [claim_of_not_mem hc, finishAdd, insert, hk]
      have hget : get? ⟨r.items, r.keys ++ [(k, Aggregate.id a)]⟩ (Aggregate.id a) = r.get? (Aggregate.id a) := rfl
      rw [hget]
      cases hg : r.get? (Aggregate.id a) with
      | none =>
        have := AddCase.stored hfree hg
        simpa [hk] using this
      | some b =>
        simp only [Option.isSome_some, if_true, release_claimed hc]
        exact .idTaken hfree (by simp [hg])

/-- an add that fails changes nothing -/
theorem add_of_error {r : Repository α} {a : α} {f : Failure} (h : (r.add a).1 = .error f) : (r.add a).2 = r := by
  generalize hx : r.add a = x at h
  cases hx ▸ add_case r a with
  | keyTaken k key taken => rfl
  | idTaken free stored => rfl
  | stored free unused => cases h

/-- adding fails for its key exactly when the key is in the index -/
theorem add_alreadyExists_iff {r : Repository α} {a : α} :
    (∃ m, (r.add a).1 = .error (.alreadyExists m)) ↔ ∃ k, Aggregate.key a = some k ∧ k ∈ r.claimed := by
  generalize hx : r.add a = x
  cases hx ▸ add_case r a with
  | keyTaken k key taken => exact ⟨fun _ => ⟨k, key, taken⟩, fun _ => ⟨_, rfl⟩⟩
  | idTaken free stored =>
    refine ⟨fun ⟨m, hm⟩ => ?_, fun ⟨k, hk, hc⟩ => absurd hc (free k hk)⟩
    cases hm
  | stored free unused =>
    refine ⟨fun ⟨m, hm⟩ => ?_, fun ⟨k, hk, hc⟩ => absurd hc (free k hk)⟩
    cases hm

/-! ## Updating -/

/-- an update that is granted: the version written is the stored one, and the next version takes its place -/
theorem update_eq_ok {r r' : Repository α} {a b : α} (h : r.update a = .ok (b, r')) :
    ∃ stored v, r.get? (Aggregate.id a) = some stored ∧ Aggregate.version stored = Aggregate.version a ∧
      v.toInt = (Aggregate.version stored).toInt + 1 ∧ b = Aggregate.withVersion a v ∧ r' = r.replace b := by
  unfold update at h
  cases hg : r.get? (Aggregate.id a) with
  | none => rw [hg] at h; cases h
  | some stored =>
    simp only [hg] at h
    split at h
    · cases h
    · rename_i hv
      obtain ⟨v, hadd, h⟩ := Outcome.bind_eq_ok.1 h
      obtain ⟨rfl, rfl⟩ := Prod.mk.inj (Outcome.ok.inj h)
      exact ⟨stored, v, rfl, not_not.1 hv, Word.addExact_eq_ok hadd, rfl, rfl⟩

/-- an update that is refused: the identity is not stored, or another version is -/
theorem update_eq_refused {r : Repository α} {a : α} {f : Failure} (h : r.update a = .refused f) :
    (r.get? (Aggregate.id a) = none ∧ f = idUnknown α (Aggregate.id a)) ∨
      ∃ stored, r.get? (Aggregate.id a) = some stored ∧ Aggregate.version stored ≠ Aggregate.version a ∧
        f = .staleWrite (Aggregate.id a) := by
  unfold update at h
  cases hg : r.get? (Aggregate.id a) with
  | none =>
    rw [hg] at h
    exact .inl ⟨rfl, (Outcome.refused.inj h).symm⟩
  | some stored =>
    simp only [hg] at h
    split at h
    · rename_i hv
      exact .inr ⟨stored, rfl, hv, (Outcome.refused.inj h).symm⟩
    · -- the sum of versions is found or a fault
      rename_i hv
      unfold Word.addExact at h
      cases hw : Word.ofInt? ((Aggregate.version stored).toInt + Int32.toInt 1) with
      | none => rw [hw] at h; cases h
      | some w => rw [hw] at h; cases h

/-- an update faults only over the last version there is -/
theorem update_eq_fault {r : Repository α} {a : α} {f : Fault} (h : r.update a = .fault f) :
    Aggregate.version a = Int32.maxValue := by
  unfold update at h
  cases hg : r.get? (Aggregate.id a) with
  | none => rw [hg] at h; cases h
  | some stored =>
    simp only [hg] at h
    split at h
    · cases h
    · rename_i hv
      obtain hv : Aggregate.version stored = Aggregate.version a := not_not.1 hv
      rw [← hv]
      by_contra hne
      have hroom : (Aggregate.version stored).toInt ≠ Int32.maxValue.toInt := fun heq => hne (Int32.toInt_inj.1 heq)
      have hone : (1 : Int32).toInt = 1 := rfl
      have hmin : Int32.minValue.toInt = -2147483648 := rfl
      have hle := Int32.toInt_le (Aggregate.version stored)
      have hge := Int32.minValue_le_toInt (Aggregate.version stored)
      have hfits : Word.ofInt? ((Aggregate.version stored).toInt + Int32.toInt 1) =
          some (Int32.ofInt ((Aggregate.version stored).toInt + Int32.toInt 1)) := if_pos ⟨by omega, by omega⟩
      rw [Word.addExact, hfits] at h
      cases h

variable [LawfulAggregate α]

theorem id_of_update {r r' : Repository α} {a b : α} (h : r.update a = .ok (b, r')) :
    Aggregate.id b = Aggregate.id a := by
  obtain ⟨stored, v, -, -, -, rfl, -⟩ := update_eq_ok h
  simp

omit [LawfulAggregate α] in
theorem get?_replace_self {r : Repository α} {a stored : α} (h : r.get? (Aggregate.id a) = some stored) :
    (r.replace a).get? (Aggregate.id a) = some a :=
  find?_updateFirst (f := fun _ => a) h (by simp)

omit [LawfulAggregate α] in
theorem get?_replace_of_ne {r : Repository α} {a : α} {i : Id} (h : Aggregate.id a ≠ i) :
    (r.replace a).get? i = r.get? i := by
  refine find?_updateFirst_of_ne fun b hb => ?_
  have hb : Aggregate.id b = Aggregate.id a := by simpa using hb
  simp [hb, h]

/-- the stored aggregate after an update that is granted -/
theorem get?_of_update {r r' : Repository α} {a b : α} (h : r.update a = .ok (b, r')) :
    r'.get? (Aggregate.id a) = some b := by
  have hid := id_of_update h
  obtain ⟨stored, v, hget, -, -, -, rfl⟩ := update_eq_ok h
  rw [← hid] at hget ⊢
  exact get?_replace_self hget

end Repository

end Brigade
