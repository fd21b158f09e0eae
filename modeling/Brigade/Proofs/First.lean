/-
More about changing the first element of a list that fits a condition: what is in the list afterwards, what is found in
it, and what a view of the elements shows. And about lists that grow at their end: an element is the last one, or it was in
the list before (`split_snoc`).
-/
import Mathlib.Tactic
import Brigade.Operation

namespace Brigade

variable {α β : Type} {p : α → Bool} {f : α → α} {g : α → β} {as : List α} {a b : α}

theorem updateFirst_append {pre post : List α} (hpre : ∀ b ∈ pre, p b = false) (ha : p a = true) :
    updateFirst p f (pre ++ a :: post) = pre ++ f a :: post := by
  induction pre with
  | nil => simp [updateFirst, ha]
  | cons b pre ih =>
    rw [List.forall_mem_cons] at hpre
    simp [updateFirst, hpre.1, ih hpre.2]

/-- what is found is what changes, in its place -/
theorem updateFirst_of_find? (f : α → α) (h : as.find? p = some a) :
    ∃ pre post, as = pre ++ a :: post ∧ (∀ b ∈ pre, p b = false) ∧ p a = true ∧
      updateFirst p f as = pre ++ f a :: post := by
  obtain ⟨ha, pre, post, rfl, hpre⟩ := List.find?_eq_some_iff_append.1 h
  have hpre : ∀ b ∈ pre, p b = false := by simpa using hpre
  exact ⟨pre, post, rfl, hpre, ha, updateFirst_append hpre ha⟩

/-- nothing fits and nothing changes, or the first element that fits is changed in its place -/
theorem updateFirst_cases (p : α → Bool) (f : α → α) (as : List α) :
    ((∀ a ∈ as, p a = false) ∧ updateFirst p f as = as) ∨
      ∃ pre a post, as = pre ++ a :: post ∧ (∀ b ∈ pre, p b = false) ∧ p a = true ∧
        updateFirst p f as = pre ++ f a :: post := by
  cases h : as.find? p with
  | none => exact .inl ⟨by simpa using h, updateFirst_of_none h f⟩
  | some a =>
    obtain ⟨pre, post, hsplit⟩ := updateFirst_of_find? f h
    exact .inr ⟨pre, a, post, hsplit⟩

theorem mem_updateFirst (h : b ∈ updateFirst p f as) : b ∈ as ∨ ∃ a ∈ as, b = f a := by
  rcases updateFirst_cases p f as with ⟨-, heq⟩ | ⟨pre, a, post, rfl, -, -, heq⟩
  · exact .inl (heq ▸ h)
  · rw [heq, List.mem_append, List.mem_cons] at h
    rcases h with h | rfl | h
    · exact .inl (List.mem_append_left _ h)
    · exact .inr ⟨a, by simp, rfl⟩
    · exact .inl (List.mem_append_right _ (List.mem_cons_of_mem a h))

theorem mem_updateFirst_of_find? (h : as.find? p = some a) : f a ∈ updateFirst p f as := by
  obtain ⟨pre, post, -, -, -, heq⟩ := updateFirst_of_find? f h
  simp [heq]

/-- what is found first is the changed element, if it still fits -/
theorem find?_updateFirst (h : as.find? p = some a) (hf : p (f a) = true) : (updateFirst p f as).find? p = some (f a) := by
  obtain ⟨pre, post, -, hpre, -, heq⟩ := updateFirst_of_find? f h
  exact List.find?_eq_some_iff_append.2 ⟨hf, pre, post, heq, by simpa using hpre⟩

/-- a condition that the changed element does not fit, before or after, finds what it found -/
theorem find?_updateFirst_of_ne {q : α → Bool} (h : ∀ a, p a = true → q a = false ∧ q (f a) = false) :
    (updateFirst p f as).find? q = as.find? q := by
  rcases updateFirst_cases p f as with ⟨-, heq⟩ | ⟨pre, a, post, rfl, -, ha, heq⟩
  · rw [heq]
  · obtain ⟨hq, hqf⟩ := h a ha
    simp [heq, hq, hqf]

theorem map_updateFirst_of_find? (h : as.find? p = some a) (hg : g (f a) = g a) :
    (updateFirst p f as).map g = as.map g := by
  obtain ⟨pre, post, rfl, -, -, heq⟩ := updateFirst_of_find? f h
  simp [heq, hg]

theorem map_updateFirst (h : ∀ a, g (f a) = g a) : (updateFirst p f as).map g = as.map g := by
  rcases updateFirst_cases p f as with ⟨-, heq⟩ | ⟨pre, a, post, rfl, -, -, heq⟩
  · rw [heq]
  · simp [heq, h]

/-- a view that is given to the changed element and shown by another one already is shown twice -/
theorem not_nodup_map_updateFirst (h : as.find? p = some a) (hne : g a ≠ g (f a)) (hmem : g (f a) ∈ as.map g) :
    ¬((updateFirst p f as).map g).Nodup := by
  obtain ⟨pre, post, rfl, -, -, heq⟩ := updateFirst_of_find? f h
  rw [List.map_append, List.map_cons, List.mem_append, List.mem_cons] at hmem
  have hother : g (f a) ∈ pre.map g ++ post.map g :=
    List.mem_append.2 (hmem.imp_right fun hmem => hmem.resolve_left hne.symm)
  rw [heq, List.map_append, List.map_cons]
  exact fun hn => (List.nodup_middle.1 hn).notMem hother

/-! ## Lists that grow -/

/-- what is found in a list that grew at its end is the last element, or was in the list before -/
theorem split_snoc {pre post : List α} (h : as ++ [a] = pre ++ b :: post) :
    (as = pre ∧ a = b ∧ post = []) ∨ ∃ post', post = post' ++ [a] ∧ as = pre ++ b :: post' := by
  rcases List.eq_nil_or_concat post with rfl | ⟨post', c, rfl⟩
  · obtain ⟨hpre, hlast⟩ := List.append_inj' h rfl
    exact .inl ⟨hpre, List.singleton_inj.1 hlast, rfl⟩
  · rw [List.concat_eq_append, ← List.cons_append, ← List.append_assoc] at h
    obtain ⟨hpre, hlast⟩ := List.append_inj' h rfl
    obtain rfl := List.singleton_inj.1 hlast
    exact .inr ⟨post', List.concat_eq_append, hpre⟩

end Brigade
