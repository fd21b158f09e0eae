/-
Natural keys of one repository, along every sequence of adds and updates, failed ones included.

Keys are exclusive in a repository if no two stored aggregates have the same key, and an add under an unused identity is
refused for its key exactly when a stored aggregate has that key. The index is written by adding only, so an update can
move an aggregate away from the key under which it is indexed.
- `keys_exclusive_iff_kept`: keys are exclusive all along a sequence of calls if its updates keep the keys of the
  aggregates they write over; and only then, if some identity is left over to add under.
- `year_moved_onto`: the period of a year is moved to another year, and a second period of that year is stored.
-/
import Brigade.Proofs.Repository

namespace Brigade

/-- every aggregate has a key, and could have another identity -/
class KeyedAggregate (α : Type) [Aggregate α] : Prop extends LawfulAggregate α where
  key_isSome (a : α) : (Aggregate.key a).isSome = true
  exists_of_id (a : α) (i : Id) : ∃ b : α, Aggregate.id b = i ∧ Aggregate.key b = Aggregate.key a

instance : KeyedAggregate GoalPeriod := ⟨fun _ => rfl, fun p i => ⟨{ p with id := i }, rfl, rfl⟩⟩
instance : KeyedAggregate GoalSet := ⟨fun _ => rfl, fun s i => ⟨{ s with id := i }, rfl, rfl⟩⟩

namespace Repository

/-- a write -/
inductive Call (α : Type) where
  | add (a : α)
  | update (a : α)
deriving DecidableEq, Repr

variable {α : Type} [Aggregate α]

def Call.id : Call α → Id
  | .add a => Aggregate.id a
  | .update a => Aggregate.id a

/-- the repository after a write; one that fails leaves it as it was, but for what `add` does about keys -/
def after (r : Repository α) : Call α → Repository α
  | .add a => (r.add a).2
  | .update a =>
    match r.update a with
    | .ok (_, r') => r'
    | _ => r

def run (r : Repository α) (cs : List (Call α)) : Repository α := cs.foldl after r

theorem run_snoc (r : Repository α) (cs : List (Call α)) (c : Call α) : r.run (cs ++ [c]) = (r.run cs).after c := by
  simp [run, List.foldl_append]

/-- keys of the stored aggregates, in their order -/
def storedKeys (r : Repository α) : List (Option NaturalKey) := r.items.map Aggregate.key

/-- no two stored aggregates share a key, and an add under an unused identity is refused for its key exactly when a
stored aggregate has it -/
def Exclusive (r : Repository α) : Prop :=
  r.storedKeys.Nodup ∧
    ∀ a : α, r.get? (Aggregate.id a) = none →
      ((∃ m, (r.add a).1 = .error (.alreadyExists m)) ↔ ∃ b ∈ r.items, Aggregate.key b = Aggregate.key a)

/-- keys are exclusive before, between and after the calls -/
def ExclusiveThroughout (cs : List (Call α)) : Prop := ∀ pre, pre <+: cs → Exclusive (run (.empty : Repository α) pre)

/-- every update that is granted keeps the key of the aggregate it writes over -/
def KeysKept (cs : List (Call α)) : Prop :=
  ∀ pre a post stored b r', cs = pre ++ .update a :: post → (run .empty pre).get? (Aggregate.id a) = some stored →
    (run .empty pre).update a = .ok (b, r') → Aggregate.key a = Aggregate.key stored

/-- the index holds the keys of the stored aggregates and no others -/
structure Indexed (r : Repository α) : Prop where
  nodup : r.storedKeys.Nodup
  claimed_iff : ∀ k, k ∈ r.claimed ↔ some k ∈ r.storedKeys

theorem indexed_empty : Indexed (.empty : Repository α) := ⟨List.nodup_nil, fun _ => by simp [claimed, storedKeys, empty]⟩

/-! ## One call -/

/-- storing an aggregate with a free key, and entering the key, keeps the index right -/
theorem Indexed.append {r : Repository α} {a : α} {k : NaturalKey} (h : Indexed r) (hk : Aggregate.key a = some k)
    (hfree : k ∉ r.claimed) : Indexed ⟨r.items ++ [a], r.keys ++ [(k, Aggregate.id a)]⟩ := by
  have hnew : some k ∉ r.storedKeys := fun hm => hfree ((h.claimed_iff k).2 hm)
  refine ⟨?_, fun k' => ?_⟩
  · simp only [storedKeys, List.map_append, List.map_cons, List.map_nil, hk]
    exact List.nodup_append.2 ⟨h.nodup, List.nodup_singleton _, fun x hx y hy => by
      rw [List.mem_singleton.1 hy]
      exact fun heq => hnew (heq ▸ hx)⟩
  · have := h.claimed_iff k'
    simp only [claimed, storedKeys] at this
    simp [claimed, storedKeys, hk, this]

/-- aggregates with the same keys are indexed alike -/
theorem Indexed.congr {r : Repository α} {as : List α} (h : Indexed r) (hkeys : as.map Aggregate.key = r.storedKeys) :
    Indexed ⟨as, r.keys⟩ := by
  refine ⟨?_, fun k => ?_⟩
  · rw [storedKeys, hkeys]
    exact h.nodup
  · rw [storedKeys, hkeys]
    exact h.claimed_iff k

theorem add_indexed {r : Repository α} (a : α) [KeyedAggregate α] (h : Indexed r) : Indexed (r.add a).2 := by
  generalize hx : r.add a = x
  cases hx ▸ add_case r a with
  | keyTaken k key taken => exact h
  | idTaken free stored => exact h
  | stored free unused =>
    obtain ⟨k, hk⟩ := Option.isSome_iff_exists.1 (KeyedAggregate.key_isSome a)
    rw [hk]
    exact h.append hk (free k hk)

/-- what an update that is granted leaves of the index: the keys that are stored change only by the key of `a` -/
theorem update_storedKeys {r r' : Repository α} {a b stored : α} [LawfulAggregate α] (h : r.update a = .ok (b, r'))
    (hg : r.get? (Aggregate.id a) = some stored) (hk : Aggregate.key a = Aggregate.key stored) :
    r'.claimed = r.claimed ∧ r'.storedKeys = r.storedKeys := by
  obtain ⟨stored', v, hg', -, -, rfl, rfl⟩ := update_eq_ok h
  refine ⟨rfl, ?_⟩
  rw [← LawfulAggregate.id_withVersion a v] at hg
  exact map_updateFirst_of_find? hg (by simp [hk])

theorem after_indexed {r : Repository α} [KeyedAggregate α] (c : Call α) (h : Indexed r)
    (hc : ∀ a stored b r', c = .update a → r.get? (Aggregate.id a) = some stored → r.update a = .ok (b, r') →
      Aggregate.key a = Aggregate.key stored) : Indexed (r.after c) := by
  cases c with
  | add a => exact add_indexed a h
  | update a =>
    simp only [after]
    split
    · rename_i b r' hu
      obtain ⟨stored, v, hg, -⟩ := update_eq_ok hu
      obtain ⟨hclaimed, hstored⟩ := update_storedKeys hu hg (hc a stored b r' rfl hg hu)
      exact ⟨hstored ▸ h.nodup, fun k => by rw [hclaimed, hstored]; exact h.claimed_iff k⟩
    · exact h

/-- an index that is right makes keys exclusive -/
theorem exclusive_of_indexed {r : Repository α} [KeyedAggregate α] (h : Indexed r) : Exclusive r := by
  refine ⟨h.nodup, fun a _ => ?_⟩
  obtain ⟨k, hk⟩ := Option.isSome_iff_exists.1 (KeyedAggregate.key_isSome a)
  rw [add_alreadyExists_iff, hk]
  constructor
  · rintro ⟨k', hk', hc⟩
    obtain rfl := Option.some.inj hk'
    exact List.mem_map.1 ((h.claimed_iff k).1 hc)
  · intro hb
    exact ⟨k, rfl, (h.claimed_iff k).2 (List.mem_map.2 hb)⟩

/-- every stored aggregate came with a call of its identity -/
theorem exists_call_of_mem (cs : List (Call α)) [LawfulAggregate α] :
    ∀ a ∈ (run .empty cs).items, ∃ c ∈ cs, c.id = Aggregate.id a := by
  induction cs using List.reverseRecOn with
  | nil => intro a ha; cases ha
  | append_singleton cs c ih =>
    intro a ha
    rw [run_snoc] at ha
    have old : a ∈ (run .empty cs).items → ∃ c' ∈ cs ++ [c], c'.id = Aggregate.id a := by
      intro ha
      obtain ⟨c', hc', hid⟩ := ih a ha
      exact ⟨c', List.mem_append_left _ hc', hid⟩
    cases c with
    | add b =>
      simp only [after] at ha
      generalize hx : (run .empty cs).add b = x at ha
      cases hx ▸ add_case (run .empty cs) b with
      | keyTaken k key taken => exact old ha
      | idTaken free stored => exact old ha
      | stored free unused =>
        rcases List.mem_append.1 ha with ha | ha
        · exact old ha
        · rw [List.mem_singleton.1 ha]
          exact ⟨.add b, by simp, rfl⟩
    | update b =>
      simp only [after] at ha
      split at ha
      · rename_i b' r' hu
        have hid := id_of_update hu
        obtain ⟨stored, v, -, -, -, -, rfl⟩ := update_eq_ok hu
        rcases mem_updateFirst ha with ha | ⟨_, _, rfl⟩
        · exact old ha
        · exact ⟨.update b, by simp, hid.symm⟩
      · exact old ha

/-! ## Sequences of calls -/

theorem keysKept_initial {cs pre : List (Call α)} (h : KeysKept cs) (hp : pre <+: cs) : KeysKept pre := by
  intro p a post stored b r' hpre
  obtain ⟨rest, rfl⟩ := hp
  exact h p a (post ++ rest) stored b r' (by simp [hpre])

theorem run_indexed (cs : List (Call α)) [KeyedAggregate α] (h : KeysKept cs) : Indexed (run (.empty : Repository α) cs) := by
  induction cs using List.reverseRecOn with
  | nil => exact indexed_empty
  | append_singleton cs c ih =>
    rw [run_snoc]
    refine after_indexed c (ih (keysKept_initial h (List.prefix_append cs [c]))) ?_
    rintro a stored b r' rfl hg hu
    exact h cs a [] stored b r' rfl hg hu

/-- an update that moves an aggregate to another key leaves a repository whose keys are not exclusive -/
theorem not_exclusive_of_moved {r r' : Repository α} {a b stored : α} {i : Id} [KeyedAggregate α] (h : Indexed r)
    (hu : r.update a = .ok (b, r')) (hg : r.get? (Aggregate.id a) = some stored)
    (hk : Aggregate.key a ≠ Aggregate.key stored) (hi : r'.get? i = none) : ¬Exclusive r' := by
  rintro ⟨hn, hadd⟩
  have hb := mem_of_get? (get?_of_update hu)
  obtain ⟨stored', v, hg', -, -, rfl, rfl⟩ := update_eq_ok hu
  obtain ⟨k, hka⟩ := Option.isSome_iff_exists.1 (KeyedAggregate.key_isSome a)
  -- under the unused identity an aggregate with the new key must be refused, so the key was in the index before
  obtain ⟨c, hci, hck⟩ := KeyedAggregate.exists_of_id a i
  obtain ⟨k', hk', hclaimed⟩ := add_alreadyExists_iff.1 ((hadd c (by rw [hci]; exact hi)).2 ⟨_, hb, by simp [hck]⟩)
  rw [hck, hka] at hk'
  obtain rfl := Option.some.inj hk'
  have hstored : some k ∈ r.storedKeys := (h.claimed_iff k).1 hclaimed
  rw [← LawfulAggregate.id_withVersion a v] at hg
  refine not_nodup_map_updateFirst (f := fun _ => Aggregate.withVersion a v) hg ?_ ?_ hn
  · simpa using hk.symm
  · rw [LawfulAggregate.key_withVersion, hka]
    exact hstored

/-- **Keys are exclusive as long as updates keep them.** If every update of a sequence of calls keeps the key of the
aggregate it writes over, keys are exclusive all along; and if keys are exclusive all along, while some identity is left
over, every update keeps the key. -/
theorem keys_exclusive_iff_kept [KeyedAggregate α] (cs : List (Call α)) :
    (KeysKept cs → ExclusiveThroughout cs) ∧
    ((∃ i, ∀ c ∈ cs, c.id ≠ i) → ExclusiveThroughout cs → KeysKept cs) := by
  constructor
  · intro h pre hp
    exact exclusive_of_indexed (run_indexed pre (keysKept_initial h hp))
  · rintro ⟨i, hi⟩ h
    have key : ∀ pre, pre <+: cs → KeysKept pre := by
      intro pre
      induction pre using List.reverseRecOn with
      | nil =>
        intro _ p a post stored b r' hp
        simp at hp
      | append_singleton pre c ih =>
        intro hp
        have hkept := ih ((List.prefix_append pre [c]).trans hp)
        intro p a post stored b r' hpre hg hu
        rcases List.eq_nil_or_concat post with rfl | ⟨post', c', rfl⟩
        · obtain ⟨rfl, hc⟩ := List.append_inj' hpre rfl
          obtain rfl := List.singleton_injective hc
          by_contra hne
          have hrun : run .empty (pre ++ [.update a]) = r' := by simp [run_snoc, after, hu]
          have hspare : r'.get? i = none := by
            rw [get?_eq_none, ← hrun]
            intro c hc hci
            obtain ⟨c', hc', hid⟩ := exists_call_of_mem (pre ++ [.update a]) c hc
            exact hi c' (hp.subset hc') (hid.trans hci)
          exact not_exclusive_of_moved (run_indexed pre hkept) hu hg hne hspare (hrun ▸ h _ hp)
        · rw [List.concat_eq_append, ← List.cons_append, ← List.append_assoc] at hpre
          exact hkept p a post' stored b r' (List.append_inj_left' hpre rfl) hg hu
    exact key cs (List.prefix_refl cs)

/-- two years of a team are stored, the first one is written again, and then its year is added once more -/
def twoYears : List (Call GoalPeriod) :=
  [.add ⟨.ofNat 1, 1, 2030, 1⟩, .add ⟨.ofNat 2, 1, 2031, 1⟩, .update ⟨.ofNat 1, 1, 2030, 1⟩,
    .add ⟨.ofNat 3, 1, 2030, 1⟩]

/-- the update is granted, the last add is refused, and two keys are stored -/
theorem keys_exclusive_twoYears :
    (run .empty twoYears).items = [⟨.ofNat 1, 1, 2030, 2⟩, ⟨.ofNat 2, 1, 2031, 1⟩] ∧
    (∃ m, ((run .empty (twoYears.take 3)).add ⟨.ofNat 3, 1, 2030, 1⟩).1 = .error (.alreadyExists m)) ∧
    KeysKept twoYears ∧ (∃ i, ∀ c ∈ twoYears, c.id ≠ i) ∧ ExclusiveThroughout twoYears := by
  have hkept : KeysKept twoYears := by
    intro pre a post stored b r' hpre hg _
    -- the only update is the third call
    rcases pre with _ | ⟨c₁, _ | ⟨c₂, _ | ⟨c₃, _ | ⟨c₄, pre⟩⟩⟩⟩ <;>
      simp only [twoYears, List.nil_append, List.cons_append, List.cons.injEq, reduceCtorEq, false_and, and_false,
        List.nil_eq, List.append_eq_nil_iff, Call.update.injEq] at hpre
    obtain ⟨rfl, rfl, rfl, -⟩ := hpre
    cases hg
    rfl
  exact ⟨by decide, ⟨_, rfl⟩, hkept, ⟨.ofNat 4, by decide⟩, (keys_exclusive_iff_kept twoYears).1 hkept⟩

/-- **A key given to two.** Keys are not exclusive along every sequence of calls: the period of 2030 is moved to 2031,
and a second period of 2031 is stored beside it. -/
theorem year_moved_onto : ¬∀ cs : List (Call GoalPeriod), ExclusiveThroughout cs := by
  intro h
  have hn := (h [.add ⟨.ofNat 1, 1, 2030, 1⟩, .update ⟨.ofNat 1, 1, 2031, 1⟩, .add ⟨.ofNat 2, 1, 2031, 1⟩] _
    (List.prefix_refl _)).1
  revert hn
  decide

end Repository

end Brigade
