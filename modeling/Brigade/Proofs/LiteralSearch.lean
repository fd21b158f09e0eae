/-
Texts that are looked for and stand in a message letter by letter.

A search lower-cases the message and the text on their own, and the lower case of a capital sigma depends on what stands
around it. So a text can stand in a message and not be found. A sigma of the text has one form in every message exactly if
what decides on the form stands in the text itself (`SigmaSettled`): then the lower case of the text is a part of the lower
case of every message that has the text (`lowerIn_of_settled`), and otherwise one letter put before or behind the text makes
a message in which it is not found (`hidden_in_front`, `hidden_behind`).
- `found_where_literal_iff`: the texts that are found wherever they stand are those whose sigmas are all settled. Texts
  without a capital sigma are among them.
-/
import Brigade.Failure
import Mathlib.Data.List.Infix

namespace Brigade

namespace Text

/-! ## Parts of a list -/

theorem occursIn_iff {needle hay : List Char} : occursIn needle hay = true ↔ needle <:+: hay := by
  induction hay with
  | nil => simp [occursIn]
  | cons h t ih => rw [occursIn, Bool.or_eq_true, List.isPrefixOf_iff_prefix, ih, List.infix_cons_iff]

theorem containsIgnoringCase_iff {hay needle : String} :
    containsIgnoringCase hay needle = true ↔ lowerAfter [] needle.toList <:+: lowerAfter [] hay.toList := by
  rw [containsIgnoringCase, occursIn_iff, lowercase, lowercase, String.toList_ofList, String.toList_ofList]

/-- a part that is one shorter leaves out the first or the last -/
theorem infix_of_length_succ {α : Type} {part whole : List α} (h : part <:+: whole)
    (hlength : whole.length = part.length + 1) : ∃ x, whole = x :: part ∨ whole = part ++ [x] := by
  obtain ⟨pre, post, rfl⟩ := h
  simp only [List.length_append] at hlength
  cases pre with
  | nil =>
    obtain ⟨x, rfl⟩ := List.length_eq_one_iff.1 (by simpa using hlength : post.length = 1)
    exact ⟨x, .inr rfl⟩
  | cons x pre =>
    obtain ⟨rfl, rfl⟩ : pre = [] ∧ post = [] := by
      rw [List.length_cons] at hlength
      exact ⟨List.eq_nil_of_length_eq_zero (by omega), List.eq_nil_of_length_eq_zero (by omega)⟩
    exact ⟨x, .inl (by simp)⟩

/-! ## The lower case of a part -/

/-- the first character that counts for the form of a sigma -/
def firstCounting (cs : List Char) : Option Char := (cs.dropWhile isIgnorable).head?

theorem meetsLetter_eq (cs : List Char) : meetsLetter cs = (firstCounting cs).any isCased := by
  unfold meetsLetter firstCounting
  cases cs.dropWhile isIgnorable <;> rfl

/-- what counts first stays first, whatever follows -/
theorem firstCounting_append (cs more : List Char) :
    firstCounting (cs ++ more) = (firstCounting cs).or (firstCounting more) := by
  unfold firstCounting
  rw [List.dropWhile_append]
  cases h : cs.dropWhile isIgnorable with
  | nil => simp
  | cons c cs => simp

/-- the lower case of a character between others, those before it from the nearest on -/
def lowerBetween (before : List Char) (c : Char) (after : List Char) : List Char :=
  if c = 'Σ' then [if meetsLetter before && !meetsLetter after then 'ς' else 'σ']
  else if c = 'İ' then ['i', Char.ofNat 0x307]
  else [lowerChar c]

/-- the lower case of a text between others -/
def lowerIn (before after : List Char) : List Char → List Char
  | [] => []
  | c :: cs => lowerBetween before c (cs ++ after) ++ lowerIn (c :: before) after cs

theorem lowerAfter_append (before cs after : List Char) :
    lowerAfter before (cs ++ after) = lowerIn before after cs ++ lowerAfter (cs.reverse ++ before) after := by
  induction cs generalizing before with
  | nil => rfl
  | cons c cs ih =>
    change lowerBetween before c (cs ++ after) ++ lowerAfter (c :: before) (cs ++ after) = _
    rw [ih, lowerIn, List.reverse_cons, List.append_assoc, List.append_assoc]
    rfl

theorem lowerAfter_eq (before cs : List Char) : lowerAfter before cs = lowerIn before [] cs := by
  have h := lowerAfter_append before cs []
  rwa [List.append_nil, lowerAfter, List.append_nil] at h

/-- what stands around a text does not change the length of its lower case -/
theorem length_lowerIn (before after before' after' cs : List Char) :
    (lowerIn before after cs).length = (lowerIn before' after' cs).length := by
  induction cs generalizing before before' with
  | nil => rfl
  | cons c cs ih =>
    have hhere : ∀ b a b' a', (lowerBetween b c a).length = (lowerBetween b' c a').length := by
      intro b a b' a'
      unfold lowerBetween
      split_ifs <;> rfl
    rw [lowerIn, lowerIn, List.length_append, List.length_append, hhere, ih]

/-! ## Settled sigmas -/

/-- whatever else stands around it, a sigma between these characters has the same form: a letter follows, or what comes
before is no letter, or something counts on both sides -/
def SigmaSettled (before after : List Char) : Prop :=
  meetsLetter after = true ∨
    ∃ c ∈ firstCounting before, isCased c = false ∨ (firstCounting after).isSome = true

-- only the one character that counts is looked at, not every character there is
instance (before after : List Char) : Decidable (SigmaSettled before after) :=
  have := Option.decidableExistsMem (p := fun c => isCased c = false ∨ (firstCounting after).isSome = true)
    (firstCounting before)
  inferInstanceAs (Decidable (_ ∨ _))

/-- every sigma among the characters that come after `before` is settled -/
def SettledAfter (before : List Char) : List Char → Prop
  | [] => True
  | c :: cs => (c = 'Σ' → SigmaSettled before cs) ∧ SettledAfter (c :: before) cs

instance decidableSettledAfter (before : List Char) : (cs : List Char) → Decidable (SettledAfter before cs)
  | [] => .isTrue trivial
  | c :: cs =>
    have := decidableSettledAfter (c :: before) cs
    inferInstanceAs (Decidable (_ ∧ _))

/-- every sigma of the text is settled -/
def Settled (s : String) : Prop := SettledAfter [] s.toList

instance (s : String) : Decidable (Settled s) := inferInstanceAs (Decidable (SettledAfter [] s.toList))

theorem settledAfter_of_not_mem {before cs : List Char} (h : 'Σ' ∉ cs) : SettledAfter before cs := by
  induction cs generalizing before with
  | nil => trivial
  | cons c cs ih =>
    obtain ⟨hc, hcs⟩ := not_or.1 (mt List.mem_cons.2 h)
    exact ⟨fun heq => absurd heq.symm hc, ih hcs⟩

/-- a sigma that is not settled stands somewhere -/
theorem exists_unsettled {before cs : List Char} (h : ¬SettledAfter before cs) :
    ∃ pre post, cs = pre ++ 'Σ' :: post ∧ ¬SigmaSettled (pre.reverse ++ before) post := by
  induction cs generalizing before with
  | nil => exact absurd trivial h
  | cons c cs ih =>
    rcases not_and_or.1 h with hc | hcs
    · obtain ⟨rfl, hsigma⟩ := Classical.not_imp.1 hc
      exact ⟨[], cs, rfl, hsigma⟩
    · obtain ⟨pre, post, rfl, hpost⟩ := ih hcs
      exact ⟨c :: pre, post, rfl, by simpa using hpost⟩

theorem lowerBetween_sigma (before after : List Char) :
    lowerBetween before 'Σ' after = [if meetsLetter before && !meetsLetter after then 'ς' else 'σ'] := if_pos rfl

/-- more characters further away change nothing about a settled sigma, nor about any other character -/
theorem lowerBetween_of_settled {before after : List Char} {c : Char} (h : c = 'Σ' → SigmaSettled before after)
    (front behind : List Char) : lowerBetween (before ++ front) c (after ++ behind) = lowerBetween before c after := by
  by_cases hc : c = 'Σ'
  · subst hc
    simp only [lowerBetween_sigma, meetsLetter_eq, firstCounting_append]
    rcases h rfl with hletter | ⟨b, hb, hother | hsome⟩
    · rw [meetsLetter_eq] at hletter
      obtain ⟨a, ha, hcased⟩ := (Option.any_eq_true _ _).1 hletter
      simp [ha, hcased]
    · simp [Option.mem_def.1 hb, hother]
    · obtain ⟨a, ha⟩ := Option.isSome_iff_exists.1 hsome
      simp [Option.mem_def.1 hb, ha]
  · simp only [lowerBetween, if_neg hc]

/-- a text whose sigmas are settled has the same lower case wherever it stands -/
theorem lowerIn_of_settled {before cs : List Char} (h : SettledAfter before cs) (front behind : List Char) :
    lowerIn (before ++ front) behind cs = lowerIn before [] cs := by
  induction cs generalizing before with
  | nil => rfl
  | cons c cs ih =>
    obtain ⟨hc, hcs⟩ := h
    rw [lowerIn, lowerIn, lowerBetween_of_settled hc, List.append_nil]
    exact congrArg _ (ih hcs)

/-- so it is found wherever it stands -/
theorem lower_infix_of_settled {needle hay : List Char} (h : SettledAfter [] needle) (hin : needle <:+: hay) :
    lowerAfter [] needle <:+: lowerAfter [] hay := by
  obtain ⟨front, behind, rfl⟩ := hin
  refine ⟨lowerIn [] (needle ++ behind) front, lowerAfter (needle.reverse ++ (front.reverse ++ [])) behind, ?_⟩
  rw [List.append_assoc front, lowerAfter_append [] front, lowerAfter_append _ needle, lowerAfter_eq [] needle,
    ← lowerIn_of_settled h (front.reverse ++ []) behind, List.append_assoc]
  rfl

/-! ## Sigmas that are not settled -/

theorem lowerIn_append (before pre cs after : List Char) :
    lowerIn before after (pre ++ cs) = lowerIn before (cs ++ after) pre ++ lowerIn (pre.reverse ++ before) after cs := by
  induction pre generalizing before with
  | nil => rfl
  | cons c pre ih =>
    rw [List.cons_append, lowerIn, lowerIn, ih, List.reverse_cons, List.append_assoc, List.append_assoc,
      List.append_assoc]
    rfl

/-- where the lower case of a text is the same, that of each of its characters is -/
theorem lowerBetween_eq_of_lowerIn_eq {front front' behind behind' pre post : List Char} {c : Char}
    (h : lowerIn front behind (pre ++ c :: post) = lowerIn front' behind' (pre ++ c :: post)) :
    lowerBetween (pre.reverse ++ front) c (post ++ behind) = lowerBetween (pre.reverse ++ front') c (post ++ behind') := by
  rw [lowerIn_append, lowerIn_append] at h
  obtain ⟨-, h⟩ := List.append_inj h (length_lowerIn _ _ _ _ pre)
  refine (List.append_inj' h (length_lowerIn _ _ _ _ post)).1

/-- a small letter that is not a given character -/
theorem exists_letter_ne (o : Option Char) :
    ∃ x, firstCounting [x] = some x ∧ isCased x = true ∧ (∀ before after, lowerBetween before x after = [x]) ∧
      o ≠ some x := by
  have hletter : ∀ x, x = 'a' ∨ x = 'b' → firstCounting [x] = some x ∧ isCased x = true ∧
      ∀ before after, lowerBetween before x after = [x] := by
    have hlower : ∀ x, lowerChar x = x → x ≠ 'Σ' → x ≠ 'İ' → ∀ before after, lowerBetween before x after = [x] := by
      intro x hx hsigma hdotted before after
      rw [lowerBetween, if_neg hsigma, if_neg hdotted, hx]
    rintro x (rfl | rfl)
    · exact ⟨by decide +kernel, by decide +kernel, hlower 'a' (by decide +kernel) (by decide) (by decide)⟩
    · exact ⟨by decide +kernel, by decide +kernel, hlower 'b' (by decide +kernel) (by decide) (by decide)⟩
  by_cases ho : o = some 'a'
  · obtain ⟨hfirst, hcased, hlower⟩ := hletter 'b' (.inr rfl)
    exact ⟨'b', hfirst, hcased, hlower, by rw [ho]; decide⟩
  · obtain ⟨hfirst, hcased, hlower⟩ := hletter 'a' (.inl rfl)
    exact ⟨'a', hfirst, hcased, hlower, ho⟩

theorem lowerIn_ne_nil (front behind pre post : List Char) : lowerIn front behind (pre ++ 'Σ' :: post) ≠ [] := by
  rw [lowerIn_append, lowerIn, lowerBetween_sigma]
  simp

section Hidden

variable {pre post : List Char}

/-- nothing that counts stands before the sigma and no letter behind it: it is not final, but after a letter it is -/
theorem hidden_in_front (hpre : firstCounting pre.reverse = none) (hpost : meetsLetter post = false) :
    ∃ x, ¬lowerAfter [] (pre ++ 'Σ' :: post) <:+: lowerAfter [] (x :: (pre ++ 'Σ' :: post)) := by
  obtain ⟨x, hfirst, hcased, hlower, hne⟩ := exists_letter_ne (lowerAfter [] (pre ++ 'Σ' :: post)).head?
  refine ⟨x, fun hin => ?_⟩
  have hwhole : lowerAfter [] (x :: (pre ++ 'Σ' :: post)) = x :: lowerIn [x] [] (pre ++ 'Σ' :: post) := by
    rw [lowerAfter_eq, lowerIn, hlower]
    rfl
  rw [hwhole, lowerAfter_eq] at hin
  rw [lowerAfter_eq] at hne
  obtain ⟨y, h | h⟩ := infix_of_length_succ hin (by rw [List.length_cons, length_lowerIn])
  · have hsigma := lowerBetween_eq_of_lowerIn_eq (List.cons.inj h).2
    rw [meetsLetter_eq] at hpost
    simp [lowerBetween_sigma, meetsLetter_eq, firstCounting_append, hpre, hpost, hfirst, hcased] at hsigma
  · -- the lower case of the text would start with the letter
    obtain ⟨c, cs, hcs⟩ := List.exists_cons_of_ne_nil (lowerIn_ne_nil [] [] pre post)
    rw [hcs] at h hne
    obtain ⟨rfl, -⟩ := List.cons.inj h
    exact hne rfl

/-- a letter stands before the sigma and nothing that counts behind it: it is final, but before a letter it is not -/
theorem hidden_behind (hpre : meetsLetter pre.reverse = true) (hpost : firstCounting post = none) :
    ∃ x, ¬lowerAfter [] (pre ++ 'Σ' :: post) <:+: lowerAfter [] ((pre ++ 'Σ' :: post) ++ [x]) := by
  obtain ⟨x, hfirst, hcased, hlower, hne⟩ := exists_letter_ne (lowerAfter [] (pre ++ 'Σ' :: post)).getLast?
  refine ⟨x, fun hin => ?_⟩
  have hwhole : lowerAfter [] ((pre ++ 'Σ' :: post) ++ [x]) = lowerIn [] [x] (pre ++ 'Σ' :: post) ++ [x] := by
    rw [lowerAfter_append, lowerAfter_eq _ [x], lowerIn, hlower]
    rfl
  rw [hwhole, lowerAfter_eq] at hin
  rw [lowerAfter_eq] at hne
  obtain ⟨y, h | h⟩ := infix_of_length_succ hin (by rw [List.length_append, List.length_singleton, length_lowerIn])
  · -- the lower case of the text would end with the letter
    refine hne ?_
    obtain ⟨c, cs, hcs⟩ := List.exists_cons_of_ne_nil (lowerIn_ne_nil [] [] pre post)
    have hlast := congrArg List.getLast? h
    rw [hcs] at hlast ⊢
    rw [List.getLast?_concat, List.getLast?_cons_cons] at hlast
    exact hlast.symm
  · have hsigma := lowerBetween_eq_of_lowerIn_eq (List.append_inj' h rfl).1
    rw [meetsLetter_eq] at hpre
    simp [lowerBetween_sigma, meetsLetter_eq, firstCounting_append, hpre, hpost, hfirst, hcased] at hsigma

end Hidden

/-- a text with a sigma that is not settled stands in a message in which it is not found -/
theorem exists_hidden {needle : List Char} (h : ¬SettledAfter [] needle) :
    ∃ hay, needle <:+: hay ∧ ¬lowerAfter [] needle <:+: lowerAfter [] hay := by
  obtain ⟨pre, post, rfl, hsigma⟩ := exists_unsettled h
  rw [List.append_nil] at hsigma
  obtain ⟨hpost, hpre⟩ := not_or.1 hsigma
  have hpost := Bool.of_not_eq_true hpost
  cases hfirst : firstCounting pre.reverse with
  | none =>
    obtain ⟨x, hx⟩ := hidden_in_front hfirst hpost
    exact ⟨_, List.infix_cons (List.infix_refl _), hx⟩
  | some c =>
    have hc := not_exists.1 hpre c
    have hc := not_or.1 fun hor => hc ⟨hfirst, hor⟩
    have hletter : meetsLetter pre.reverse = true := by
      rw [meetsLetter_eq, hfirst]
      simpa using hc.1
    obtain ⟨x, hx⟩ := hidden_behind hletter (by simpa using hc.2)
    exact ⟨_, (List.prefix_append _ _).isInfix, hx⟩

/-- the texts that are found in every message in which they stand -/
theorem containsIgnoringCase_of_infix_iff {needle : String} :
    (∀ hay : String, needle.toList <:+: hay.toList → containsIgnoringCase hay needle = true) ↔ Settled needle := by
  constructor
  · intro h
    by_contra hunsettled
    obtain ⟨hay, hin, hnot⟩ := exists_hidden hunsettled
    have hfound := h (String.ofList hay) (by rwa [String.toList_ofList])
    rw [containsIgnoringCase_iff, String.toList_ofList] at hfound
    exact hnot hfound
  · intro h hay hin
    exact containsIgnoringCase_iff.2 (lower_infix_of_settled h hin)

end Text

open Text

/-- **Texts that are found wherever they stand.** A refusal or a failure mentions every text that stands in one of its
messages, for all messages, exactly if each capital sigma of the text is settled. A text without a capital sigma is always
found. -/
theorem found_where_literal_iff (needle : String) :
    ((∀ r : Refusal, (∃ m ∈ r.messages, needle.toList <:+: m.toList) → r.mentions needle = true) ↔ Settled needle) ∧
    ((∀ f : Failure, (∃ m ∈ f.messages, needle.toList <:+: m.toList) → f.mentions needle = true) ↔ Settled needle) ∧
    ('Σ' ∉ needle.toList → Settled needle) := by
  refine ⟨?_, ?_, settledAfter_of_not_mem⟩
  · rw [← containsIgnoringCase_of_infix_iff]
    constructor
    · intro h hay hin
      simpa [Refusal.mentions, Refusal.one] using h (.one hay) ⟨hay, by simp [Refusal.one], hin⟩
    · rintro h r ⟨m, hm, hin⟩
      exact List.any_eq_true.2 ⟨m, hm, h m hin⟩
  · rw [← containsIgnoringCase_of_infix_iff]
    constructor
    · intro h hay hin
      simpa [Failure.mentions, Failure.messages] using h (.notFound hay) ⟨hay, by simp [Failure.messages], hin⟩
    · rintro h f ⟨m, hm, hin⟩
      exact List.any_eq_true.2 ⟨m, hm, h m hin⟩

/-- the end of the word settles its last sigma -/
example : Settled "ΟΔΟΣ 5" ∧ ¬Settled "ΟΔΟΣ" := by decide +kernel

/-- the street stands in the pavement, and is not found in it: its sigma is final only where the word ends -/
theorem street_in_pavement :
    "ΟΔΟΣ".toList <:+: "ΟΔΟΣΤΡΩΜΑ".toList ∧ (Refusal.one "ΟΔΟΣΤΡΩΜΑ").mentions "ΟΔΟΣ" = false ∧
      (Failure.notFound "ΟΔΟΣΤΡΩΜΑ").mentions "ΟΔΟΣ" = false := by
  refine ⟨⟨[], "ΤΡΩΜΑ".toList, by decide⟩, by decide +kernel, by decide +kernel⟩

end Brigade
