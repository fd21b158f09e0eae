/-
Texts that tell apart what they stand for.

A number is told by its digits, an identity by its 32 hexadecimal digits (`Id.text_injective`), and so a natural key by
its text: what stands before a blank has no blank in it (`NaturalKey.text_injective`).
-/
import Brigade.Aggregate
import Mathlib.Algebra.Group.Nat.Defs
import Mathlib.Data.List.Basic

namespace Brigade

open Brigade.Text

/-! ## Parts of a text -/

/-- a text is cut in one way only at a separator that its first part does not have -/
theorem append_separator_inj {α : Type} {sep : α} {a b c d : List α} (ha : sep ∉ a) (hb : sep ∉ b)
    (h : a ++ sep :: c = b ++ sep :: d) : a = b ∧ c = d := by
  induction a generalizing b with
  | nil =>
    cases b with
    | nil => exact ⟨rfl, (List.cons.inj h).2⟩
    | cons y b => exact absurd (List.cons.inj h).1 fun heq => hb (heq ▸ List.mem_cons_self)
  | cons x a ih =>
    cases b with
    | nil => exact absurd (List.cons.inj h).1 fun heq => ha (heq ▸ List.mem_cons_self)
    | cons y b =>
      obtain ⟨rfl, htail⟩ := List.cons.inj h
      obtain ⟨rfl, hrest⟩ := ih (fun hm => ha (List.mem_cons_of_mem _ hm)) (fun hm => hb (List.mem_cons_of_mem _ hm)) htail
      exact ⟨rfl, hrest⟩

/-! ## Digits -/

theorem digits_injective : Function.Injective digits := by
  intro m n h
  calc
    m = Nat.ofDigitChars 10 (digits m) 0 := (Nat.ofDigitChars_toDigits (by decide) (by decide)).symm
    _ = Nat.ofDigitChars 10 (digits n) 0 := by rw [h]
    _ = n := Nat.ofDigitChars_toDigits (by decide) (by decide)

theorem isDigit_of_mem_digits {n : Nat} {c : Char} (h : c ∈ digits n) : c.isDigit = true :=
  Nat.isDigit_of_mem_toDigits (by decide) (by decide) h

theorem not_mem_digits {c : Char} (hc : c.isDigit = false) (n : Nat) : c ∉ digits n := fun h => by
  rw [isDigit_of_mem_digits h] at hc
  cases hc

/-- a whole number as it is written -/
def signed (i : Int) : List Char := (toString i).toList

/-- a whole number is its digits, after a hyphen if it is negative -/
theorem signed_eq (i : Int) : signed i = if 0 ≤ i then digits i.toNat else '-' :: digits (-i).toNat := by
  rw [signed, Int.toString_eq_repr, Int.repr_eq_if]
  split
  · rw [Nat.toList_repr, digits]
  · rw [String.toList_append, Nat.toList_repr, digits]
    rfl

/-! ## Identities -/

theorem hexDigit_injOn : ∀ m < 16, ∀ n < 16, hexDigit m = hexDigit n → m = n := by decide

theorem hexDigit_ne_hyphen : ∀ n < 16, hexDigit n ≠ '-' := by decide

@[simp] theorem length_hexPadded (w n : Nat) : (hexPadded w n).length = w := by
  induction w generalizing n with
  | zero => rfl
  | succ w ih => simp [hexPadded, ih]

theorem hyphen_not_mem_hexPadded (w n : Nat) : '-' ∉ hexPadded w n := by
  induction w generalizing n with
  | zero => exact List.not_mem_nil
  | succ w ih =>
    intro h
    rcases List.mem_append.1 h with h | h
    · exact ih _ h
    · exact hexDigit_ne_hyphen _ (Nat.mod_lt _ (by decide)) (List.mem_singleton.1 h).symm

/-- so many hexadecimal digits tell numbers of that size apart -/
theorem hexPadded_inj {w m n : Nat} (hm : m < 16 ^ w) (hn : n < 16 ^ w) (h : hexPadded w m = hexPadded w n) : m = n := by
  induction w generalizing m n with
  | zero => omega
  | succ w ih =>
    obtain ⟨hhigh, hlow⟩ := List.append_inj' h rfl
    have hhigh := ih (Nat.div_lt_of_lt_mul (by omega)) (Nat.div_lt_of_lt_mul (by omega)) hhigh
    have hlow := hexDigit_injOn _ (Nat.mod_lt _ (by decide)) _ (Nat.mod_lt _ (by decide)) (List.singleton_injective hlow)
    omega

namespace Id

/-- without its hyphens a written identity is its digits -/
theorem filter_hyphenate {ds : List Char} (h : '-' ∉ ds) : (hyphenate ds).filter (· != '-') = ds := by
  have hpart : ∀ xs : List Char, xs ⊆ ds → xs.filter (· != '-') = xs := by
    intro xs hxs
    refine List.filter_eq_self.2 fun c hc => ?_
    have hne : c ≠ '-' := fun heq => h (heq ▸ hxs hc)
    simpa using hne
  have hgroup : ∀ n, ((ds.drop n).take 4).filter (· != '-') = (ds.drop n).take 4 := fun n =>
    hpart _ (List.Subset.trans (List.take_subset _ _) (List.drop_subset _ _))
  have hjoin : ∀ n, (ds.drop n).take 4 ++ ds.drop (n + 4) = ds.drop n := by
    intro n
    rw [← List.drop_drop, List.take_append_drop]
  simp only [hyphenate, List.filter_append, List.filter_cons, bne_self_eq_false, Bool.false_eq_true, if_false,
    List.append_assoc]
  rw [hpart _ (List.take_subset _ _), hgroup, hgroup, hgroup, hpart _ (List.drop_subset _ _), hjoin 16, hjoin 12,
    hjoin 8, List.take_append_drop]

theorem text_injective : Function.Injective text := by
  intro a b h
  have hdigits : a.hexDigits = b.hexDigits := by
    have h := congrArg String.toList h
    simp only [text, String.toList_ofList] at h
    have ha : '-' ∉ a.hexDigits := hyphen_not_mem_hexPadded _ _
    have hb : '-' ∉ b.hexDigits := hyphen_not_mem_hexPadded _ _
    rw [← filter_hyphenate ha, ← filter_hyphenate hb, h]
  have hbits := hexPadded_inj (w := 32) a.bits.isLt b.bits.isLt hdigits
  obtain ⟨a⟩ := a
  obtain ⟨b⟩ := b
  exact congrArg Id.mk (BitVec.eq_of_toNat_eq hbits)

theorem length_text (i : Id) : i.text.toList.length = 36 := by
  simp [text, hyphenate, hexDigits]

end Id

/-! ## Natural keys -/

/-- a whole number of 32 bits as it is written -/
def intText (n : Int32) : List Char := (toString n.toInt).toList

theorem intText_eq (n : Int32) :
    intText n = if 0 ≤ n.toInt then digits n.toInt.toNat else '-' :: digits (-n.toInt).toNat :=
  signed_eq n.toInt

theorem intText_injective : Function.Injective intText := by
  intro m n h
  -- a sign is no digit
  have hsign : ∀ k k' : Nat, digits k ≠ '-' :: digits k' := fun k k' heq =>
    not_mem_digits (c := '-') rfl k (heq ▸ List.mem_cons_self)
  rw [intText_eq, intText_eq] at h
  refine Int32.toInt_inj.1 ?_
  split at h <;> split at h
  · have := digits_injective h
    omega
  · exact absurd h (hsign _ _)
  · exact absurd h.symm (hsign _ _)
  · have := digits_injective (List.cons.inj h).2
    omega

theorem blank_not_mem_intText (n : Int32) : ' ' ∉ intText n := by
  have hdigits : ∀ m : Nat, ' ' ∉ digits m := not_mem_digits rfl
  rw [intText_eq]
  split
  · exact hdigits _
  · intro h
    rcases List.mem_cons.1 h with h | h
    · revert h
      decide
    · exact hdigits _ h

namespace NaturalKey

/-- what follows the team and a blank in the text of a key -/
def rest : NaturalKey → List Char
  | period _ y => ['y', 'e', 'a', 'r', ' '] ++ intText y
  | goalSet _ p u =>
    ['p', 'e', 'r', 'i', 'o', 'd', ' '] ++ (p.text.toList ++ ([' ', 'u', 's', 'e', 'r', ' '] ++ intText u))

def team : NaturalKey → Int32
  | period t _ => t
  | goalSet t _ _ => t

theorem toList_text (k : NaturalKey) : k.text.toList = ['t', 'e', 'a', 'm', ' '] ++ (intText k.team ++ ' ' :: k.rest) := by
  have hteam : "team ".toList = ['t', 'e', 'a', 'm', ' '] := by decide
  have hyear : " year ".toList = [' ', 'y', 'e', 'a', 'r', ' '] := by decide
  have hperiod : " period ".toList = [' ', 'p', 'e', 'r', 'i', 'o', 'd', ' '] := by decide
  have huser : " user ".toList = [' ', 'u', 's', 'e', 'r', ' '] := by decide
  cases k with
  | period t y =>
    rw [text, String.toList_append, String.toList_append, String.toList_append, hteam, hyear]
    simp [rest, team, intText]
  | goalSet t p u =>
    rw [text, String.toList_append, String.toList_append, String.toList_append, String.toList_append,
      String.toList_append, hteam, hperiod, huser]
    simp [rest, team, intText]

theorem rest_injective {a b : NaturalKey} (hteam : a.team = b.team) (h : a.rest = b.rest) : a = b := by
  cases a with
  | period t y =>
    cases b with
    | period t' y' =>
      obtain rfl : t = t' := hteam
      obtain rfl := intText_injective (List.append_cancel_left h)
      rfl
    | goalSet t' p u => cases (List.cons.inj h).1
  | goalSet t p u =>
    cases b with
    | period t' y => cases (List.cons.inj h).1
    | goalSet t' p' u' =>
      obtain rfl : t = t' := hteam
      obtain ⟨hp, hu⟩ := List.append_inj (List.append_cancel_left h) (by rw [Id.length_text, Id.length_text])
      obtain rfl := Id.text_injective (String.toList_injective hp)
      obtain rfl := intText_injective (List.append_cancel_left hu)
      rfl

theorem text_injective : Function.Injective text := by
  intro a b h
  have h := congrArg String.toList h
  rw [toList_text, toList_text] at h
  obtain ⟨hteam, hrest⟩ := append_separator_inj (blank_not_mem_intText _) (blank_not_mem_intText _)
    (List.append_cancel_left h)
  exact rest_injective (intText_injective hteam) hrest

end NaturalKey

end Brigade
