/-
Which command of a sequence stored which aggregate.

`Added` ties an identity that a sequence of commands stored to the command that stored it, and to the service on which that
command was run. No command takes an aggregate away, so what was added stays stored (`stored_of_added`), and every command
keeps keys and identities exclusive (`executeIn_exclusive`).
-/
import Brigade.Proofs.SingleWrite

namespace Brigade

/-- a write takes no identity away -/
theorem Store.Wrote.ids_subset {s t : Store} {u : Write} (h : s.Wrote u t) (k : Kind) :
    (s.repo k).items.map Aggregate.id ⊆ (t.repo k).items.map Aggregate.id := by
  rcases h.repo_cases k with heq | ⟨a, -, -, -, heq⟩ | ⟨old, new, op, pre, post, -, hplace, -, hid, heq⟩
  · rw [heq]
    exact List.Subset.refl _
  · rw [heq, List.map_append]
    exact List.subset_append_left _ _
  · rw [heq, hplace, List.map_append, List.map_append, List.map_cons, List.map_cons, hid]
    exact List.Subset.refl _

/-- an identity is not found exactly if no stored aggregate has it -/
theorem Repository.get?_eq_none_iff_not_mem {α : Type} [Aggregate α] {r : Repository α} {i : Id} :
    r.get? i = none ↔ i ∉ r.items.map Aggregate.id := by
  simp [get?]

/-- identities that count up, and a clock that stands still -/
def Surroundings.standstill : Surroundings := ⟨.ofNat, fun _ => .epoch⟩

namespace Service

variable {env : Surroundings} {settings : Settings} {start : Service} {cs : List (Listing × Command)} {l : Listing}
  {k : Kind} {i : Id}

/-! ## One command -/

/-- every command keeps the keys and the identities exclusive -/
theorem executeIn_exclusive (l : Listing) (env : Surroundings) (settings : Settings) (c : Command) (s : Service)
    (k : Kind) (hkeyed : ∀ a : k.Member, (Aggregate.key a).isSome = true) (hi : (s.store.repo k).Indexed)
    (hn : ((s.store.repo k).items.map Aggregate.id).Nodup) :
    ((s.executeIn l env settings c).2.store.repo k).Indexed ∧
      (((s.executeIn l env settings c).2.store.repo k).items.map Aggregate.id).Nodup := by
  obtain ⟨d, -, hstore | ⟨u, -, hwrote⟩⟩ := Solo.outcome_wrote ⟨env, l, settings, c, s⟩
  · change (s.executeIn l env settings c).2.store = s.store at hstore
    rw [hstore]
    exact ⟨hi, hn⟩
  · exact ⟨hwrote.indexed hkeyed hi, hwrote.ids_nodup hn⟩

/-- no command takes an identity away -/
theorem get?_executeIn {s : Service} (c : Command) (h : (s.store.repo k).get? i ≠ none) :
    ((s.executeIn l env settings c).2.store.repo k).get? i ≠ none := by
  rw [ne_eq, Repository.get?_eq_none_iff_not_mem, not_not] at h ⊢
  obtain ⟨d, -, hstore | ⟨u, -, hwrote⟩⟩ := Solo.outcome_wrote ⟨env, l, settings, c, s⟩
  · change (s.executeIn l env settings c).2.store = s.store at hstore
    rwa [hstore]
  · exact hwrote.ids_subset k h

/-! ## Sequences of commands -/

/-- the command `c` of the sequence stored an aggregate under this identity when it was run on `before` -/
def Added (env : Surroundings) (settings : Settings) (start : Service) (cs : List (Listing × Command)) (k : Kind) (i : Id)
    (c : Command) (before : Service) : Prop :=
  ∃ pre l post, cs = pre ++ (l, c) :: post ∧ before = start.executeAllIn env settings pre ∧
    (before.store.repo k).get? i = none ∧ ((before.executeIn l env settings c).2.store.repo k).get? i ≠ none

variable {c d : Command} {before : Service}

/-- an aggregate is stored by an earlier command, or by the last one -/
theorem added_snoc :
    Added env settings start (cs ++ [(l, c)]) k i d before ↔
      Added env settings start cs k i d before ∨
        d = c ∧ before = start.executeAllIn env settings cs ∧ (before.store.repo k).get? i = none ∧
          ((before.executeIn l env settings c).2.store.repo k).get? i ≠ none := by
  constructor
  · rintro ⟨pre, l', post, hcs, hbefore, hnone, hstored⟩
    obtain ⟨rfl, hlast, rfl⟩ | ⟨post', rfl, hold⟩ := split_snoc hcs
    · obtain ⟨rfl, rfl⟩ := Prod.mk.inj hlast
      exact .inr ⟨rfl, hbefore, hnone, hstored⟩
    · exact .inl ⟨pre, l', post', hold, hbefore, hnone, hstored⟩
  · rintro (⟨pre, l', post, rfl, hbefore, hnone, hstored⟩ | ⟨rfl, hbefore, hnone, hstored⟩)
    · exact ⟨pre, l', post ++ [(l, c)], by simp, hbefore, hnone, hstored⟩
    · exact ⟨cs, l, [], rfl, hbefore, hnone, hstored⟩

theorem not_added_nil : ¬Added env settings start [] k i d before := by
  rintro ⟨pre, l, post, hcs, -⟩
  simp at hcs

/-- what was added is stored -/
theorem stored_of_added (h : Added env settings start cs k i d before) :
    ((start.executeAllIn env settings cs).store.repo k).get? i ≠ none := by
  induction cs using List.reverseRecOn with
  | nil => exact absurd h not_added_nil
  | append_singleton cs c ih =>
    obtain ⟨l, c⟩ := c
    rw [executeAllIn_snoc]
    rcases added_snoc.1 h with hold | ⟨rfl, rfl, -, hstored⟩
    · exact get?_executeIn c (ih hold)
    · exact hstored

end Service

end Brigade
