/-
Any number of calls that add to one repository at the same time, with updates in between.

A call to `Repository.add` has two steps that happen at once each: it enters its key in the index, and it stores the
aggregate or, if the identity is taken, gives the key back. Between the two it holds its key. Turns of the calls, and
updates, come in any order; a call that takes its two turns without a break is `Repository.add` (`advance_advance`).
- `turn_cases` lists what one turn can do.
- `Inv.turn`, `inv_run`: an entry of the index is that of a stored aggregate or of exactly one call that holds its key, so
  a call gives back nothing but its own entry.
- `Contest.turn`, `contest_run`: a key that nobody has goes to the first call that enters it.
- `racing_adds`: what holds at every moment, what holds when nobody is adding, and how a race for a key ends.

Updates are assumed to keep the key of the aggregate that they write over.
-/
import Brigade.Proofs.NaturalKeys

namespace Brigade

/-- where a call to add is -/
inductive Stage where
  | waiting
  /-- its key is entered, and the aggregate is not stored yet -/
  | holding
  | ended (answer : Except Failure Unit)
deriving DecidableEq, Repr

/-- the call has not ended -/
def Stage.isOpen : Stage → Bool
  | ended _ => false
  | _ => true

theorem Stage.eq_holding {st : Stage} (hopen : st.isOpen = true) (hbegun : st ≠ .waiting) : st = .holding := by
  cases st with
  | holding => rfl
  | waiting => exact absurd rfl hbegun
  | ended e => cases hopen

/-- a repository, and the calls that add to it -/
structure Race (ι α : Type) where
  repo : Repository α
  stage : ι → Stage

namespace Race

variable {ι α : Type}

/-- nothing is stored, and no call has begun -/
def start : Race ι α := ⟨.empty, fun _ => .waiting⟩

inductive Turn (ι α : Type) where
  /-- the next step of a call to add -/
  | advance (n : ι)
  | update (a : α)
deriving DecidableEq, Repr

variable [DecidableEq ι] [Aggregate α]

/-- the second step of a call: it stores its aggregate, or gives its key back -/
def finish (mine : ι → α) (s : Race ι α) (n : ι) : Race ι α :=
  ⟨(s.repo.finishAdd (mine n)).2, Function.update s.stage n (.ended (s.repo.finishAdd (mine n)).1)⟩

/-- the next step of a call; `mine n` is what the call `n` adds -/
def advance (mine : ι → α) (s : Race ι α) (n : ι) : Race ι α :=
  match s.stage n with
  | .ended _ => s
  | .holding => s.finish mine n
  | .waiting =>
    match Aggregate.key (mine n) with
    | none => s.finish mine n
    | some k =>
      match s.repo.claim k (Aggregate.id (mine n)) with
      | none => ⟨s.repo, Function.update s.stage n (.ended (.error (Repository.keyTaken α k)))⟩
      | some r => ⟨r, Function.update s.stage n .holding⟩

def turn (mine : ι → α) (s : Race ι α) : Turn ι α → Race ι α
  | .advance n => s.advance mine n
  | .update a => { s with repo := s.repo.after (.update a) }

def run (mine : ι → α) (s : Race ι α) (ts : List (Turn ι α)) : Race ι α := ts.foldl (turn mine) s

theorem run_append (mine : ι → α) (s : Race ι α) (ts us : List (Turn ι α)) :
    s.run mine (ts ++ us) = (s.run mine ts).run mine us := List.foldl_append

theorem run_snoc (mine : ι → α) (s : Race ι α) (ts : List (Turn ι α)) (τ : Turn ι α) :
    s.run mine (ts ++ [τ]) = (s.run mine ts).turn mine τ := run_append mine s ts [τ]

/-! ## One turn -/

section

variable {mine : ι → α} {s t : Race ι α} {m n : ι} {a : α} {k : NaturalKey} {i : Id}

theorem advance_of_ended {e : Except Failure Unit} (h : s.stage n = .ended e) : s.advance mine n = s := by
  simp only [advance, h]

theorem advance_of_holding (h : s.stage n = .holding) : s.advance mine n = s.finish mine n := by
  simp only [advance, h]

/-- a call that is not interrupted adds as `Repository.add` does -/
theorem advance_advance (h : s.stage n = .waiting) :
    (s.advance mine n).advance mine n =
      ⟨(s.repo.add (mine n)).2, Function.update s.stage n (.ended (s.repo.add (mine n)).1)⟩ := by
  unfold Repository.add
  cases hk : Aggregate.key (mine n) with
  | none =>
    have hfirst : s.advance mine n = s.finish mine n := by simp only [advance, h, hk]
    rw [hfirst, advance_of_ended (Function.update_self ..)]
    rfl
  | some k =>
    cases hc : s.repo.claim k (Aggregate.id (mine n)) with
    | none =>
      have hfirst : s.advance mine n = ⟨s.repo, Function.update s.stage n (.ended (.error (Repository.keyTaken α k)))⟩ := by
        simp only [advance, h, hk, hc]
      rw [hfirst, advance_of_ended (Function.update_self ..)]
      simp only [hc]
    | some r =>
      have hfirst : s.advance mine n = ⟨r, Function.update s.stage n .holding⟩ := by simp only [advance, h, hk, hc]
      rw [hfirst, advance_of_holding (Function.update_self ..), finish, Function.update_idem]
      simp only [hc]

/-- what a turn can do to a race of calls whose aggregates have keys -/
inductive Turned (mine : ι → α) (s : Race ι α) : Turn ι α → Race ι α → Prop where
  | idle (n : ι) (e : Except Failure Unit) (ended : s.stage n = .ended e) : Turned mine s (.advance n) s
  | refused (n : ι) (k : NaturalKey) (key : Aggregate.key (mine n) = some k) (waiting : s.stage n = .waiting)
      (taken : k ∈ s.repo.claimed) :
      Turned mine s (.advance n) ⟨s.repo, Function.update s.stage n (.ended (.error (Repository.keyTaken α k)))⟩
  | entered (n : ι) (k : NaturalKey) (key : Aggregate.key (mine n) = some k) (waiting : s.stage n = .waiting)
      (free : k ∉ s.repo.claimed) :
      Turned mine s (.advance n)
        ⟨⟨s.repo.items, s.repo.keys ++ [(k, Aggregate.id (mine n))]⟩, Function.update s.stage n .holding⟩
  | stored (n : ι) (k : NaturalKey) (key : Aggregate.key (mine n) = some k) (holding : s.stage n = .holding)
      (unused : s.repo.get? (Aggregate.id (mine n)) = none) :
      Turned mine s (.advance n) ⟨⟨s.repo.items ++ [mine n], s.repo.keys⟩, Function.update s.stage n (.ended (.ok ()))⟩
  | givenBack (n : ι) (k : NaturalKey) (key : Aggregate.key (mine n) = some k) (holding : s.stage n = .holding)
      (used : s.repo.get? (Aggregate.id (mine n)) ≠ none) :
      Turned mine s (.advance n)
        ⟨s.repo.release k, Function.update s.stage n (.ended (.error (Repository.idTaken α (Aggregate.id (mine n)))))⟩
  | failed (a : α) (refused : ∀ p, s.repo.update a ≠ .ok p) : Turned mine s (.update a) s
  | written (a b : α) (r : Repository α) (update : s.repo.update a = .ok (b, r)) :
      Turned mine s (.update a) ⟨r, s.stage⟩

theorem advance_cases [KeyedAggregate α] (mine : ι → α) (s : Race ι α) (n : ι) :
    Turned mine s (.advance n) (s.advance mine n) := by
  obtain ⟨k, hk⟩ := Option.isSome_iff_exists.1 (KeyedAggregate.key_isSome (mine n))
  cases hs : s.stage n with
  | ended e =>
    rw [advance_of_ended hs]
    exact .idle n e hs
  | waiting =>
    by_cases hc : k ∈ s.repo.claimed
    · have := Turned.refused n k hk hs hc
      simpa only [advance, hs, hk, Repository.claim_of_mem hc] using this
    · have := Turned.entered n k hk hs hc
      simpa only [advance, hs, hk, Repository.claim_of_not_mem hc] using this
  | holding =>
    rw [advance_of_holding hs, finish, Repository.finishAdd, Repository.insert, hk]
    cases hg : s.repo.get? (Aggregate.id (mine n)) with
    | none => exact .stored n k hk hs hg
    | some b => exact .givenBack n k hk hs (by simp [hg])

/-- **What a turn can do.** -/
theorem turn_cases [KeyedAggregate α] (mine : ι → α) (s : Race ι α) (τ : Turn ι α) :
    Turned mine s τ (s.turn mine τ) := by
  cases τ with
  | advance n => exact advance_cases mine s n
  | update a =>
    rw [turn, Repository.after]
    cases hu : s.repo.update a with
    | ok p => exact .written a p.1 p.2 hu
    | refused f => exact .failed a fun p hp => by rw [hu] at hp; cases hp
    | fault f => exact .failed a fun p hp => by rw [hu] at hp; cases hp

/-! ## Entries of the index -/

/-- a stored aggregate has this key and this identity -/
def Stores (r : Repository α) (k : NaturalKey) (i : Id) : Prop :=
  ∃ a ∈ r.items, Aggregate.key a = some k ∧ Aggregate.id a = i

theorem stores_iff {r : Repository α} :
    Stores r k i ↔ (some k, i) ∈ r.items.map fun a => (Aggregate.key a, Aggregate.id a) := by
  simp [Stores]

theorem stores_snoc {r : Repository α} {keys : List (NaturalKey × Id)} :
    Stores ⟨r.items ++ [a], keys⟩ k i ↔ Stores r k i ∨ Aggregate.key a = some k ∧ Aggregate.id a = i := by
  simp [Stores, or_and_right, exists_or]

theorem some_mem_storedKeys {r : Repository α} : some k ∈ r.storedKeys ↔ ∃ i, Stores r k i := by
  simp [Repository.storedKeys, Stores]

/-- an update that keeps the key changes no entry, and neither keys nor identities of what is stored -/
theorem update_keeps [LawfulAggregate α] {r r' : Repository α} {b stored : α} (h : r.update a = .ok (b, r'))
    (hg : r.get? (Aggregate.id a) = some stored) (hk : Aggregate.key a = Aggregate.key stored) :
    r'.keys = r.keys ∧ r'.storedKeys = r.storedKeys ∧ ∀ k i, Stores r' k i ↔ Stores r k i := by
  obtain ⟨-, hstored⟩ := Repository.update_storedKeys h hg hk
  obtain ⟨stored', v, -, -, -, rfl, rfl⟩ := Repository.update_eq_ok h
  refine ⟨rfl, hstored, fun k i => ?_⟩
  have hid := Repository.id_of_get? hg
  rw [← LawfulAggregate.id_withVersion a v] at hg
  rw [stores_iff, stores_iff, Repository.replace, map_updateFirst_of_find? hg (by simp [hk, hid])]

/-- whose the entries are: each is that of a stored aggregate or of one call that holds its key -/
structure Inv (mine : ι → α) (s : Race ι α) : Prop where
  unique : s.repo.storedKeys.Nodup
  claims : s.repo.claimed.Nodup
  stored : ∀ k i, Stores s.repo k i → (k, i) ∈ s.repo.keys
  held : ∀ n k, s.stage n = .holding → Aggregate.key (mine n) = some k →
    (k, Aggregate.id (mine n)) ∈ s.repo.keys ∧ ∀ i, ¬Stores s.repo k i
  apart : ∀ m n, s.stage m = .holding → s.stage n = .holding → Aggregate.key (mine m) = Aggregate.key (mine n) → m = n
  owned : ∀ k i, (k, i) ∈ s.repo.keys → Stores s.repo k i ∨
    ∃ n, s.stage n = .holding ∧ Aggregate.key (mine n) = some k ∧ Aggregate.id (mine n) = i

omit [DecidableEq ι] in
theorem inv_start (mine : ι → α) : Inv mine (start : Race ι α) where
  unique := List.nodup_nil
  claims := List.nodup_nil
  stored := by rintro k i ⟨a, ha, -⟩; cases ha
  held := nofun
  apart := nofun
  owned := nofun

/-- a call that ends holds nothing, and the others hold what they held -/
theorem holding_of_ended {f : ι → Stage} {e : Except Failure Unit}
    (h : Function.update f n (.ended e) m = .holding) : m ≠ n ∧ f m = .holding := by
  rw [Function.update_apply] at h
  split at h
  · cases h
  · exact ⟨‹_›, h⟩

/-- a call that enters its key holds it, and the others hold what they held -/
theorem holding_of_entered {f : ι → Stage} (h : Function.update f n .holding m = .holding) :
    m = n ∨ f m = .holding := by
  rw [Function.update_apply] at h
  split at h
  · exact .inl ‹_›
  · exact .inr h

namespace Inv

variable {e : Except Failure Unit}

/-- a call that waits owns no entry, so all owners stay when it moves on -/
theorem owned_of_waiting (h : Inv mine s) (hn : s.stage n = .waiting) (x : Stage) (hi : (k, i) ∈ s.repo.keys) :
    Stores s.repo k i ∨ ∃ m, Function.update s.stage n x m = .holding ∧ Aggregate.key (mine m) = some k ∧
      Aggregate.id (mine m) = i := by
  refine (h.owned k i hi).imp_right ?_
  rintro ⟨m, hm, hkey⟩
  have hne : m ≠ n := by rintro rfl; rw [hn] at hm; cases hm
  exact ⟨m, (Function.update_of_ne hne ..).trans hm, hkey⟩

theorem refused (h : Inv mine s) (hn : s.stage n = .waiting) :
    Inv mine ⟨s.repo, Function.update s.stage n (.ended e)⟩ where
  unique := h.unique
  claims := h.claims
  stored := h.stored
  held m k hm hk := h.held m k (holding_of_ended hm).2 hk
  apart m m' hm hm' := h.apart m m' (holding_of_ended hm).2 (holding_of_ended hm').2
  owned _ _ hi := h.owned_of_waiting hn _ hi

theorem entered (h : Inv mine s) (hk : Aggregate.key (mine n) = some k) (hn : s.stage n = .waiting)
    (hfree : k ∉ s.repo.claimed) :
    Inv mine ⟨⟨s.repo.items, s.repo.keys ++ [(k, Aggregate.id (mine n))]⟩, Function.update s.stage n .holding⟩ := by
  have hnew : ∀ i, (k, i) ∉ s.repo.keys := fun i hi => hfree (List.mem_map_of_mem hi)
  -- a call that holds a key has entered it, so it is another key
  have hother : ∀ m, s.stage m = .holding → Aggregate.key (mine m) ≠ some k :=
    fun m hm hkm => hnew _ (h.held m k hm hkm).1
  refine ⟨h.unique, ?_, fun k' i hi => List.mem_append_left _ (h.stored k' i hi), fun m k' hm hk' => ?_,
    fun m m' hm hm' hkk => ?_, fun k' i hi => ?_⟩
  · rw [Repository.claimed, List.map_append]
    exact List.nodup_append.2 ⟨h.claims, List.nodup_singleton _, fun x hx y hy => by
      rw [List.mem_singleton.1 hy]
      rintro rfl
      exact hfree hx⟩
  · rcases holding_of_entered hm with rfl | hm
    · obtain rfl := Option.some.inj (hk.symm.trans hk')
      exact ⟨by simp, fun i hi => hnew i (h.stored k i hi)⟩
    · exact ⟨List.mem_append_left _ (h.held m k' hm hk').1, (h.held m k' hm hk').2⟩
  · rcases holding_of_entered hm with hmn | hm
    · rcases holding_of_entered hm' with hmn' | hm'
      · exact hmn.trans hmn'.symm
      · exact absurd (hkk.symm.trans (hmn ▸ hk)) (hother m' hm')
    · rcases holding_of_entered hm' with hmn' | hm'
      · exact absurd (hkk.trans (hmn' ▸ hk)) (hother m hm)
      · exact h.apart m m' hm hm' hkk
  · rcases List.mem_append.1 hi with hi | hi
    · exact h.owned_of_waiting hn _ hi
    · obtain ⟨rfl, rfl⟩ := Prod.mk.inj (List.mem_singleton.1 hi)
      exact .inr ⟨n, Function.update_self .., hk, rfl⟩

theorem stores (h : Inv mine s) (hk : Aggregate.key (mine n) = some k) (hn : s.stage n = .holding) :
    Inv mine ⟨⟨s.repo.items ++ [mine n], s.repo.keys⟩, Function.update s.stage n (.ended e)⟩ := by
  obtain ⟨hentry, hfree⟩ := h.held n k hn hk
  refine ⟨?_, h.claims, fun k' i hi => ?_, fun m k' hm hk' => ?_, fun m m' hm hm' => ?_, fun k' i hi => ?_⟩
  · rw [Repository.storedKeys, List.map_append]
    refine List.nodup_append.2 ⟨h.unique, List.nodup_singleton _, fun x hx y hy => ?_⟩
    rw [List.mem_singleton.1 hy, hk]
    rintro rfl
    obtain ⟨i, hi⟩ := some_mem_storedKeys.1 hx
    exact hfree i hi
  · rcases stores_snoc.1 hi with hi | ⟨hk', rfl⟩
    · exact h.stored k' i hi
    · exact Option.some.inj (hk.symm.trans hk') ▸ hentry
  · obtain ⟨hne, hm⟩ := holding_of_ended hm
    refine ⟨(h.held m k' hm hk').1, fun i hi => ?_⟩
    rcases stores_snoc.1 hi with hi | ⟨hkn, -⟩
    · exact (h.held m k' hm hk').2 i hi
    · exact hne (h.apart m n hm hn (hk'.trans hkn.symm))
  · exact h.apart m m' (holding_of_ended hm).2 (holding_of_ended hm').2
  · rcases h.owned k' i hi with hs | ⟨m, hm, hkm, hid⟩
    · exact .inl (stores_snoc.2 (.inl hs))
    · by_cases hne : m = n
      · subst hne
        exact .inl (stores_snoc.2 (.inr ⟨hkm, hid⟩))
      · exact .inr ⟨m, (Function.update_of_ne hne ..).trans hm, hkm, hid⟩

/-- the key that a call gives back is its own: nobody else has it, stored or held -/
theorem gives_back (h : Inv mine s) (hk : Aggregate.key (mine n) = some k) (hn : s.stage n = .holding) :
    Inv mine ⟨s.repo.release k, Function.update s.stage n (.ended e)⟩ := by
  obtain ⟨-, hfree⟩ := h.held n k hn hk
  have hkept : ∀ {k' i}, (k', i) ∈ (s.repo.release k).keys ↔ (k', i) ∈ s.repo.keys ∧ k' ≠ k := by
    simp [Repository.release]
  refine ⟨h.unique, h.claims.sublist (List.filter_sublist.map _), fun k' i hi => ?_, fun m k' hm hk' => ?_,
    fun m m' hm hm' => ?_, fun k' i hi => ?_⟩
  · exact hkept.2 ⟨h.stored k' i hi, fun he => hfree i (he ▸ hi)⟩
  · obtain ⟨hne, hm⟩ := holding_of_ended hm
    refine ⟨hkept.2 ⟨(h.held m k' hm hk').1, fun he => ?_⟩, (h.held m k' hm hk').2⟩
    exact hne (h.apart m n hm hn (hk'.trans (he ▸ hk.symm)))
  · exact h.apart m m' (holding_of_ended hm).2 (holding_of_ended hm').2
  · obtain ⟨hi, hne⟩ := hkept.1 hi
    refine (h.owned k' i hi).imp_right ?_
    rintro ⟨m, hm, hkm, hid⟩
    have hmn : m ≠ n := by rintro rfl; exact hne (Option.some.inj (hkm.symm.trans hk))
    exact ⟨m, (Function.update_of_ne hmn ..).trans hm, hkm, hid⟩

omit [DecidableEq ι] in
theorem written {r r' : Repository α} {f : ι → Stage} (h : Inv mine ⟨r, f⟩) (hkeys : r'.keys = r.keys)
    (hstored : r'.storedKeys = r.storedKeys) (hstores : ∀ k i, Stores r' k i ↔ Stores r k i) : Inv mine ⟨r', f⟩ where
  unique := hstored ▸ h.unique
  claims := by rw [Repository.claimed, hkeys]; exact h.claims
  stored k i hi := hkeys ▸ h.stored k i ((hstores k i).1 hi)
  held n k hn hk := ⟨hkeys ▸ (h.held n k hn hk).1, fun i hi => (h.held n k hn hk).2 i ((hstores k i).1 hi)⟩
  apart := h.apart
  owned k i hi := (h.owned k i (hkeys ▸ hi)).imp_left (hstores k i).2

/-- **One turn.** A turn leaves every entry with one owner, if an update keeps the key that it writes over. -/
theorem turn [KeyedAggregate α] {τ : Turn ι α} (h : Inv mine s) (ht : Turned mine s τ t)
    (hkeep : ∀ a stored b r, τ = .update a → s.repo.get? (Aggregate.id a) = some stored →
      s.repo.update a = .ok (b, r) → Aggregate.key a = Aggregate.key stored) : Inv mine t := by
  cases ht with
  | idle n e ended => exact h
  | refused n k key waiting taken => exact h.refused waiting
  | entered n k key waiting free => exact h.entered key waiting free
  | stored n k key holding unused => exact h.stores key holding
  | givenBack n k key holding used => exact h.gives_back key holding
  | failed a refused => exact h
  | written a b r update =>
    obtain ⟨old, v, hg, -⟩ := Repository.update_eq_ok update
    obtain ⟨hkeys, hstored, hstores⟩ := update_keeps update hg (hkeep a old b r rfl hg update)
    exact h.written hkeys hstored hstores

end Inv

/-! ## A race for one key -/

/-- calls only go on: what has ended has ended as it did, and what has begun is not waiting again -/
structure Onward (s t : Race ι α) : Prop where
  ended : ∀ n e, s.stage n = .ended e → t.stage n = .ended e
  begun : ∀ n, s.stage n ≠ .waiting → t.stage n ≠ .waiting

omit [DecidableEq ι] [Aggregate α] in
theorem Onward.refl (s : Race ι α) : Onward s s := ⟨fun _ _ h => h, fun _ h => h⟩

omit [DecidableEq ι] [Aggregate α] in
theorem Onward.trans {u : Race ι α} (h : Onward s t) (h' : Onward t u) : Onward s u :=
  ⟨fun n e he => h'.ended n e (h.ended n e he), fun n hn => h'.begun n (h.begun n hn)⟩

omit [Aggregate α] in
/-- a call that has not ended moves to a stage at which it is not waiting -/
theorem Onward.update {r : Repository α} {st : Stage} (hopen : (s.stage n).isOpen = true) (hst : st ≠ .waiting) :
    Onward s ⟨r, Function.update s.stage n st⟩ := by
  refine ⟨fun m e he => ?_, fun m hm => ?_⟩
  · have hne : m ≠ n := by rintro rfl; rw [he] at hopen; cases hopen
    exact (Function.update_of_ne hne ..).trans he
  · by_cases hmn : m = n
    · simpa [hmn] using hst
    · simpa [hmn] using hm

theorem Turned.onward {τ : Turn ι α} (h : Turned mine s τ t) : Onward s t := by
  cases h with
  | idle n e ended => exact .refl s
  | refused n k key waiting taken => exact .update (by rw [waiting]; rfl) nofun
  | entered n k key waiting free => exact .update (by rw [waiting]; rfl) nofun
  | stored n k key holding unused => exact .update (by rw [holding]; rfl) nofun
  | givenBack n k key holding used => exact .update (by rw [holding]; rfl) nofun
  | failed a refused => exact .refl s
  | written a b r update => exact ⟨fun _ _ h => h, fun _ h => h⟩

theorem onward_run [KeyedAggregate α] (mine : ι → α) (s : Race ι α) (ts : List (Turn ι α)) :
    Onward s (s.run mine ts) := by
  induction ts using List.reverseRecOn with
  | nil => exact .refl s
  | append_singleton ts τ ih =>
    rw [run_snoc]
    exact ih.trans (turn_cases mine _ τ).onward

/-- the call goes on between two moments: it had not ended at the first, and has begun by the second -/
def UnderWay (c s : Race ι α) (n : ι) : Prop := (c.stage n).isOpen = true ∧ s.stage n ≠ .waiting

/-- a call under way that adds under this key -/
def Racer (mine : ι → α) (k : NaturalKey) (c s : Race ι α) (n : ι) : Prop :=
  Aggregate.key (mine n) = some k ∧ UnderWay c s n

/-- the identities that the racers bring are not stored, and no other call under way brings one of them -/
def Unrelated (mine : ι → α) (k : NaturalKey) (c s : Race ι α) : Prop :=
  ∀ n, Racer mine k c s n → c.repo.get? (Aggregate.id (mine n)) = none ∧
    ∀ m, UnderWay c s m → m ≠ n → Aggregate.id (mine m) ≠ Aggregate.id (mine n)

section Contest

variable {c : Race ι α}

/-- how a race for a key stands, for those who began at the moment `c` or later -/
inductive Standing (mine : ι → α) (k : NaturalKey) (c s : Race ι α) : Prop where
  | untaken (free : k ∉ s.repo.claimed) (nobody : ∀ n, ¬Racer mine k c s n)
  | taken (w : ι) (racer : Racer mine k c s w) (ahead : s.stage w = .holding ∨ s.stage w = .ended (.ok ()))
      (claimed : k ∈ s.repo.claimed)
      (behind : ∀ m, Racer mine k c s m → m ≠ w → s.stage m = .ended (.error (Repository.keyTaken α k)))

/-- a call that has not moved races as it did -/
theorem racer_update_of_ne {r : Repository α} {st : Stage} (h : m ≠ n) :
    Racer mine k c ⟨r, Function.update s.stage n st⟩ m ↔ Racer mine k c s m := by
  simp [Racer, UnderWay, h]

omit [DecidableEq ι] [Aggregate α] in
/-- a call that holds its key after the moment `c` had not ended then -/
theorem underWay_of_holding (hs : Onward c s) (hn : s.stage n = .holding) : UnderWay c s n := by
  refine ⟨?_, by rw [hn]; nofun⟩
  cases hc : c.stage n with
  | ended e => rw [hs.ended n e hc] at hn; cases hn
  | _ => rfl

namespace Standing

/-- a call with another key moves, and the key is neither entered nor given back -/
theorem aside {r : Repository α} {st : Stage} {k' : NaturalKey} (h : Standing mine k c s)
    (hn : Aggregate.key (mine n) = some k') (hk : ¬k' = k) (hr : k ∈ r.claimed ↔ k ∈ s.repo.claimed) :
    Standing mine k c ⟨r, Function.update s.stage n st⟩ := by
  have hne : ∀ {u m}, Racer mine k c u m → m ≠ n := by
    rintro u m hm rfl
    exact hk (Option.some.inj (hn.symm.trans hm.1))
  cases h with
  | untaken free nobody =>
    exact .untaken (hr.not.2 free) fun m hm => nobody m ((racer_update_of_ne (hne hm)).1 hm)
  | taken w racer ahead claimed behind =>
    refine .taken w ((racer_update_of_ne (hne racer)).2 racer) ?_ (hr.2 claimed) fun m hm hmw => ?_
    · simpa [hne racer] using ahead
    · simpa [hne hm] using behind m ((racer_update_of_ne (hne hm)).1 hm) hmw

/-- who holds the key is ahead of all others -/
theorem holder_ahead (h : Standing mine k c s) (hn : Racer mine k c s n) (hs : s.stage n = .holding) :
    k ∈ s.repo.claimed ∧ ∀ m, Racer mine k c s m → m ≠ n → s.stage m = .ended (.error (Repository.keyTaken α k)) := by
  cases h with
  | untaken free nobody => exact absurd hn (nobody n)
  | taken w racer ahead claimed behind =>
    have hw : n = w := by
      by_contra hne
      have := behind n hn hne
      rw [hs] at this
      cases this
    exact hw ▸ ⟨claimed, behind⟩

/-- **One turn of a race.** The first call that enters the key is ahead from then on. -/
theorem turn {τ : Turn ι α} (h : Standing mine k c s) (hc : Onward c s) (ht : Turned mine s τ t)
    (hfresh : ∀ n, Racer mine k c s n → s.stage n = .holding → s.repo.get? (Aggregate.id (mine n)) = none) :
    Standing mine k c t := by
  cases ht with
  | idle n e ended => exact h
  | failed a refused => exact h
  | written a b r update =>
    obtain ⟨-, -, -, -, -, -, rfl⟩ := Repository.update_eq_ok update
    cases h with
    | untaken free nobody => exact .untaken free nobody
    | taken w racer ahead claimed behind => exact .taken w racer ahead claimed behind
  | refused n k' key waiting taken =>
    by_cases hk : k' = k
    · subst hk
      cases h with
      | untaken free nobody => exact absurd taken free
      | taken w racer ahead claimed behind =>
        have hw : w ≠ n := by rintro rfl; exact racer.2.2 waiting
        refine .taken w ((racer_update_of_ne hw).2 racer) (by simpa [hw] using ahead) claimed fun m hm hmw => ?_
        by_cases hmn : m = n
        · simp [hmn]
        · simpa [hmn] using behind m ((racer_update_of_ne hmn).1 hm) hmw
    · exact h.aside key hk Iff.rfl
  | entered n k' key waiting free =>
    by_cases hk : k' = k
    · subst hk
      cases h with
      | untaken _ nobody =>
        have hstep := (Turned.entered n k' key waiting free : Turned mine s (.advance n) _).onward
        refine .taken n ⟨key, underWay_of_holding (hc.trans hstep) (Function.update_self ..)⟩
          (.inl (Function.update_self ..)) (by simp [Repository.claimed]) fun m hm hmn => ?_
        exact absurd ((racer_update_of_ne hmn).1 hm) (nobody m)
      | taken w racer ahead claimed behind => exact absurd claimed free
    · exact h.aside key hk (by simp [Repository.claimed, Ne.symm hk])
  | stored n k' key holding unused =>
    by_cases hk : k' = k
    · subst hk
      have hn : Racer mine k' c s n := ⟨key, underWay_of_holding hc holding⟩
      obtain ⟨claimed, behind⟩ := h.holder_ahead hn holding
      refine .taken n ⟨key, hn.2.1, by simp⟩ (.inr (Function.update_self ..)) claimed fun m hm hmn => ?_
      simpa [hmn] using behind m ((racer_update_of_ne hmn).1 hm) hmn
    · exact h.aside key hk Iff.rfl
  | givenBack n k' key holding used =>
    by_cases hk : k' = k
    · subst hk
      exact absurd (hfresh n ⟨key, underWay_of_holding hc holding⟩ holding) used
    · exact h.aside key hk (by simp [Repository.claimed, Repository.release, Ne.symm hk])

end Standing

/-- an identity that is not stored is stored only by a call that brings it and ends -/
theorem unused_of_turn [LawfulAggregate α] {τ : Turn ι α} (ht : Turned mine s τ t) (h : s.repo.get? i = none)
    (hi : ∀ n, s.stage n = .holding → t.stage n ≠ .holding → Aggregate.id (mine n) ≠ i) : t.repo.get? i = none := by
  cases ht with
  | stored n k key holding unused =>
    have hne := hi n holding (by simp)
    rw [Repository.get?, List.find?_append]
    change (s.repo.get? i).or _ = none
    rw [h]
    simp [hne]
  | written a b r update =>
    have hid := Repository.id_of_update update
    obtain ⟨old, v, hget, -, -, -, rfl⟩ := Repository.update_eq_ok update
    by_cases hai : Aggregate.id a = i
    · rw [hai, h] at hget
      cases hget
    · exact (Repository.get?_replace_of_ne (hid ▸ hai)).trans h
  | _ => exact h

/-- a race for a key that nobody had at the moment `c`, after some turns and before others -/
theorem contest_run [KeyedAggregate α] (hfree : k ∉ c.repo.claimed) (hc : Inv mine c) (ts us : List (Turn ι α))
    (hun : Unrelated mine k c (c.run mine (ts ++ us))) :
    Standing mine k c (c.run mine ts) ∧
      ∀ n, Racer mine k c (c.run mine (ts ++ us)) n → ((c.run mine ts).stage n).isOpen = true →
        (c.run mine ts).repo.get? (Aggregate.id (mine n)) = none := by
  induction ts using List.reverseRecOn generalizing us with
  | nil =>
    refine ⟨.untaken hfree fun n hn => ?_, fun n hn _ => (hun n hn).1⟩
    -- whoever had begun by then, and had not ended, would hold the key
    obtain ⟨hk, hopen, hbegun⟩ := hn
    exact hfree (List.mem_map_of_mem (hc.held n k (Stage.eq_holding hopen hbegun) hk).1)
  | append_singleton ts τ ih =>
    rw [List.append_assoc] at hun ⊢
    obtain ⟨hstanding, hfresh⟩ := ih _ hun
    have ht := turn_cases mine (c.run mine ts) τ
    rw [← run_snoc] at ht
    have hon : Onward (c.run mine ts) (c.run mine (ts ++ ([τ] ++ us))) := run_append mine c ts _ ▸ onward_run mine _ _
    refine ⟨hstanding.turn (onward_run mine c ts) ht fun n hn hs => ?_, fun n hn hopen => ?_⟩
    · exact hfresh n ⟨hn.1, hn.2.1, hon.begun n hn.2.2⟩ (by rw [hs]; rfl)
    · have hwas : ((c.run mine ts).stage n).isOpen = true := by
        cases hs : (c.run mine ts).stage n with
        | ended e => rw [ht.onward.ended n e hs] at hopen; cases hopen
        | _ => rfl
      refine unused_of_turn ht (hfresh n hn hwas) fun m hm hm' => ?_
      have hne : m ≠ n := by
        rintro rfl
        exact hm' (Stage.eq_holding hopen (ht.onward.begun m (by rw [hm]; nofun)))
      obtain ⟨hmopen, hmbegun⟩ := underWay_of_holding (onward_run mine c ts) hm
      exact (hun n hn).2 m ⟨hmopen, hon.begun m hmbegun⟩ hne

end Contest

/-! ## Schedules -/

/-- an update that is granted keeps the key of the aggregate that it writes over -/
def Turn.KeepsKey (s : Race ι α) : Turn ι α → Prop
  | .advance _ => True
  | .update a => ∀ stored p, s.repo.get? (Aggregate.id a) = some stored → s.repo.update a = .ok p →
      Aggregate.key a = Aggregate.key stored

/-- every update of a schedule that is granted keeps the key -/
def KeepsKeys (mine : ι → α) : Race ι α → List (Turn ι α) → Prop
  | _, [] => True
  | s, τ :: ts => τ.KeepsKey s ∧ KeepsKeys mine (s.turn mine τ) ts

theorem keepsKeys_of_append {ts us : List (Turn ι α)} (h : KeepsKeys mine s (ts ++ us)) : KeepsKeys mine s ts := by
  induction ts generalizing s with
  | nil => trivial
  | cons τ ts ih => exact ⟨h.1, ih h.2⟩

theorem inv_run [KeyedAggregate α] {ts : List (Turn ι α)} (h : Inv mine s) (hkeep : KeepsKeys mine s ts) :
    Inv mine (s.run mine ts) := by
  induction ts generalizing s with
  | nil => exact h
  | cons τ ts ih =>
    refine ih (h.turn (turn_cases mine s τ) ?_) hkeep.2
    rintro a stored b r rfl hg hu
    exact hkeep.1 stored (b, r) hg hu

end

/-- **Racing adds.** Any calls add to an empty repository at the same time, and updates in between keep the keys. At every
moment no two stored aggregates have the same key, and every stored aggregate is in the index. While nobody is adding, the
index leads from the keys of the stored aggregates to their identities, and has nothing else. Of the calls that race for a
key that nobody has, under identities that nobody else brings, one adds its aggregate; to all others it already
exists. -/
theorem racing_adds [KeyedAggregate α] (mine : ι → α) (ts : List (Turn ι α)) (hkeep : KeepsKeys mine start ts) :
    (∀ pre, pre <+: ts →
      (start.run mine pre).repo.storedKeys.Nodup ∧
      (∀ a ∈ (start.run mine pre).repo.items, ∀ k, Aggregate.key a = some k →
        (k, Aggregate.id a) ∈ (start.run mine pre).repo.keys) ∧
      ((∀ n, (start.run mine pre).stage n ≠ .holding) →
        (start.run mine pre).repo.claimed.Nodup ∧
        ∀ k i, (k, i) ∈ (start.run mine pre).repo.keys ↔
          ∃ a ∈ (start.run mine pre).repo.items, Aggregate.key a = some k ∧ Aggregate.id a = i)) ∧
    ∀ pre mid c s k, pre ++ mid <+: ts → c = start.run mine pre → s = start.run mine (pre ++ mid) →
      k ∉ c.repo.claimed → Unrelated mine k c s → (∀ n, Racer mine k c s n → s.stage n ≠ .holding) →
      (∃ n, Racer mine k c s n) →
      ∃ w, Racer mine k c s w ∧ s.stage w = .ended (.ok ()) ∧
        ∀ m, Racer mine k c s m → m ≠ w → s.stage m = .ended (.error (Repository.keyTaken α k)) := by
  have hinv : ∀ pre, pre <+: ts → Inv mine (start.run mine pre) := by
    rintro pre ⟨post, rfl⟩
    exact inv_run (inv_start mine) (keepsKeys_of_append hkeep)
  refine ⟨fun pre hpre => ?_, ?_⟩
  · have h := hinv pre hpre
    refine ⟨h.unique, fun a ha k hk => h.stored k _ ⟨a, ha, hk, rfl⟩, fun hquiet => ⟨h.claims, fun k i => ?_⟩⟩
    refine ⟨fun hi => ?_, h.stored k i⟩
    rcases h.owned k i hi with hs | ⟨n, hn, -⟩
    · exact hs
    · exact absurd hn (hquiet n)
  · rintro pre mid c s k hpre hc rfl hfree hun hdone ⟨n, hn⟩
    have hcinv : Inv mine c := hc ▸ hinv pre ((List.prefix_append pre mid).trans hpre)
    rw [run_append, ← hc] at hun hdone hn ⊢
    obtain ⟨hstanding, -⟩ := contest_run hfree hcinv mid [] (by rwa [List.append_nil])
    cases hstanding with
    | untaken free nobody => exact absurd hn (nobody n)
    | taken w racer ahead claimed behind =>
      exact ⟨w, racer, ahead.resolve_left (hdone w racer), behind⟩

/-- two periods of 2030, and one of 2031 under the identity of the first -/
def periods : Fin 3 → GoalPeriod := ![⟨.ofNat 1, 1, 2030, 1⟩, ⟨.ofNat 2, 1, 2030, 1⟩, ⟨.ofNat 1, 1, 2031, 1⟩]

/-- both calls for 2030 begin before either ends; the period is written again while the call for 2031 holds its key, which
it then gives back -/
def overlapping : List (Turn (Fin 3) GoalPeriod) :=
  [.advance 0, .advance 1, .advance 0, .advance 2, .update ⟨.ofNat 1, 1, 2030, 1⟩, .advance 2]

theorem racing_adds_overlapping :
    KeepsKeys periods start overlapping ∧ (start.run periods overlapping).repo.storedKeys.Nodup ∧
      (start.run periods overlapping).repo.claimed = [.period 1 2030] ∧
      ∃ w, (start.run periods (overlapping.take 3)).stage w = .ended (.ok ()) ∧
        (start.run periods (overlapping.take 3)).stage 1 =
          .ended (.error (Repository.keyTaken GoalPeriod (.period 1 2030))) := by
  have hkeep : KeepsKeys periods start overlapping := by
    refine ⟨trivial, trivial, trivial, trivial, fun stored p hg _ => ?_, trivial, trivial⟩
    cases hg
    rfl
  obtain ⟨hmoments, hraces⟩ := racing_adds periods overlapping hkeep
  have hrace := hraces [] (overlapping.take 3) _ _ (.period 1 2030) (List.take_prefix 3 _) rfl rfl (by decide)
    (by unfold Unrelated Racer UnderWay; decide) (by unfold Racer UnderWay; decide) (by unfold Racer UnderWay; decide)
  obtain ⟨w, hw, hstored, hothers⟩ := hrace
  refine ⟨hkeep, (hmoments _ (List.prefix_refl _)).1, by decide, w, hstored, ?_⟩
  refine hothers 1 (by unfold Racer UnderWay; decide) ?_
  rintro rfl
  revert hstored
  decide

end Race

end Brigade
