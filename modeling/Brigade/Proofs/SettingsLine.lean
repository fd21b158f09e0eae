/-
A settings file of one line, which gives a whole number under a bare key, is read as that.

`parse_line`: for every bare key and every whole number of 64 bits, written with a sign if it is negative and without
leading zeros.

The digits of a number are no day and no time of day, for those have a hyphen or a colon behind the first digits; they
are no number in another base and none with places, for those have other characters; so they are read in base ten
(`scalar_signed`). The rest follows the readers from the value outwards: key, line, document.
-/
import Brigade.Config.Toml.Document
import Brigade.Proofs.JsonText
import Mathlib.Data.List.TakeWhile

namespace Brigade.Toml

open Brigade.Text

/-! ## Digits -/

/-- digits without underscores are taken as they stand -/
theorem grouped_of_all {ds : List Char} (hds : ∀ c ∈ ds, isDigit c = true) (hne : ds ≠ []) :
    grouped isDigit ds = some ds := by
  induction ds with
  | nil => exact absurd rfl hne
  | cons c ds ih =>
    have hc : isDigit c = true := hds c (List.mem_cons_self ..)
    cases ds with
    | nil => simp [grouped, hc]
    | cons d ds =>
      have hd : d ≠ '_' := by
        rintro rfl
        exact absurd (hds '_' (by simp)) (by decide)
      have hrest := ih (fun x hx => hds x (List.mem_cons_of_mem _ hx)) (List.cons_ne_nil _ _)
      simp [grouped, hc, hd, hrest]

theorem numberOf_ten {ds : List Char} (hds : ∀ c ∈ ds, isDigit c = true) : numberOf 10 ds = numberFrom 0 ds := by
  refine List.foldl_ext _ _ _ fun n c hc => ?_
  have hdigit : '0' ≤ c ∧ c ≤ '9' := by simpa [isDigit] using hds c hc
  simp [hexValue?, hdigit]

theorem wholeDigits_digits (n : Nat) : wholeDigits? (digits n) = some (digits n) := by
  simp [wholeDigits?, grouped_of_all (isDigit_digits n) (digits_ne_nil n), head_digits n]

/-- digits alone are a whole number in base ten -/
theorem decimal_digits (negative : Bool) (n : Nat) :
    decimal? negative (digits n) = int64? (if negative then -(n : Int) else n) := by
  have hmark : ∀ c ∈ digits n, (!(c = 'e' || c = 'E')) = true := by
    intro c hc
    have he : c ≠ 'e' := fun heq => not_mem_digits (c := 'e') rfl n (heq ▸ hc)
    have hE : c ≠ 'E' := fun heq => not_mem_digits (c := 'E') rfl n (heq ▸ hc)
    simp [he, hE]
  have hpoint : ∀ c ∈ digits n, (c != '.') = true := by
    intro c hc
    simpa using fun heq : c = '.' => not_mem_digits (c := '.') rfl n (heq ▸ hc)
  have hcontains : (digits n).contains '.' = false := by simpa using not_mem_digits (c := '.') rfl n
  simp only [decimal?, List.takeWhile_eq_self_iff.2 hmark, List.dropWhile_eq_nil_iff.2 hmark,
    List.takeWhile_eq_self_iff.2 hpoint, List.dropWhile_eq_nil_iff.2 hpoint, wholeDigits_digits, hcontains]
  simp [numberOf_ten (isDigit_digits n), numberFrom_digits]

/-! ## Written whole numbers -/

theorem signed_cases (i : Int) :
    (∃ n : Nat, i = n ∧ signed i = digits n) ∨ ∃ n : Nat, i = -(n : Int) ∧ signed i = '-' :: digits n := by
  rw [signed_eq]
  split
  · exact .inl ⟨i.toNat, by omega, rfl⟩
  · exact .inr ⟨(-i).toNat, by omega, rfl⟩

/-- what a written whole number is made of -/
theorem mem_signed {i : Int} {c : Char} (h : c ∈ signed i) : isDigit c = true ∨ c = '-' := by
  rcases signed_cases i with ⟨n, -, hn⟩ | ⟨n, -, hn⟩
  · exact .inl (isDigit_digits n c (hn ▸ h))
  · rcases List.mem_cons.1 (hn ▸ h) with h | h
    · exact .inr h
    · exact .inl (isDigit_digits n c h)

theorem hyphen_not_mem_tail (i : Int) : '-' ∉ (signed i).tail := by
  rcases signed_cases i with ⟨n, -, hn⟩ | ⟨n, -, hn⟩
  · rw [hn]
    exact fun h => not_mem_digits rfl n (List.mem_of_mem_tail h)
  · rw [hn]
    exact not_mem_digits rfl n

theorem signed_ne_nil (i : Int) : signed i ≠ [] := by
  rcases signed_cases i with ⟨n, -, hn⟩ | ⟨n, -, hn⟩ <;> rw [hn]
  · exact digits_ne_nil n
  · exact List.cons_ne_nil _ _

/-- a whole number starts with a digit or a hyphen -/
theorem head_signed (i : Int) : ∃ c cs, signed i = c :: cs ∧ ∀ d, isDigit d = false → d ≠ '-' → c ≠ d := by
  obtain ⟨c, cs, hcons⟩ := List.exists_cons_of_ne_nil (signed_ne_nil i)
  refine ⟨c, cs, hcons, fun d hd hhyphen heq => ?_⟩
  rcases mem_signed (hcons ▸ List.mem_cons_self .. : c ∈ signed i) with h | h
  · rw [heq, hd] at h
    cases h
  · exact hhyphen (heq ▸ h)

/-! ## Words -/

/-- digits have no letter in the second place, and they do not start with a sign -/
theorem number_digits (n : Nat) : number? (digits n) = int64? n := by
  have hdecimal := decimal_digits false n
  have hno := fun c hc => not_mem_digits (c := c) hc n
  generalize digits n = ds at *
  unfold number?
  split
  · exact absurd (by simp) (hno 'x' rfl)
  · exact absurd (by simp) (hno 'o' rfl)
  · exact absurd (by simp) (hno 'b' rfl)
  · exact absurd (by simp) (hno 'i' rfl)
  · exact absurd (by simp) (hno 'i' rfl)
  · exact absurd (by simp) (hno 'n' rfl)
  · exact absurd (by simp) (hno 'n' rfl)
  · exact absurd (by simp) (hno '-' rfl)
  · exact hdecimal

theorem number_negative (n : Nat) : number? ('-' :: digits n) = int64? (-(n : Int)) := by
  have hdecimal := decimal_digits true n
  have hno := fun c hc => not_mem_digits (c := c) hc n
  generalize digits n = ds at *
  unfold number?
  split <;> rename_i heq
  · exact absurd (List.cons.inj heq).1 (by decide)
  · exact absurd (List.cons.inj heq).1 (by decide)
  · exact absurd (List.cons.inj heq).1 (by decide)
  · exact absurd (List.cons.inj heq).1 (by decide)
  · exact absurd (by simp [(List.cons.inj heq).2]) (hno 'i' rfl)
  · exact absurd (List.cons.inj heq).1 (by decide)
  · exact absurd (by simp [(List.cons.inj heq).2]) (hno 'n' rfl)
  · cases heq
    exact hdecimal
  · exact absurd rfl (heq ds)

/-- a whole number is read as a word -/
theorem word_signed (i : Int) : word? (signed i) = int64? i := by
  rcases signed_cases i with ⟨n, rfl, h⟩ | ⟨n, rfl, h⟩
  · rw [h]
    have hnumber := number_digits n
    have hno := fun c hc => not_mem_digits (c := c) hc n
    generalize digits n = ds at *
    unfold word?
    split
    · exact absurd (by simp) (hno 't' rfl)
    · exact absurd (by simp) (hno 'f' rfl)
    · exact absurd (by simp) (hno '+' rfl)
    · exact hnumber
  · rw [h]
    exact number_negative n

/-! ## Values -/

/-- what is read as two digits is gone from what is left -/
theorem pair_eq_some {lo hi : Nat} {cs : List Char} {p : List Char × List Char} (h : pair? lo hi cs = some p) :
    ∃ a b, cs = a :: b :: p.2 := by
  unfold pair? at h
  split at h
  · dsimp only at h
    split at h
    · cases h
      exact ⟨_, _, rfl⟩
    · cases h
  · cases h

theorem mem_of_pairAfter {mark : Char} {lo hi : Nat} {cs : List Char} {p : List Char × List Char}
    (h : pairAfter? mark lo hi cs = some p) : mark ∈ cs := by
  unfold pairAfter? at h
  split at h
  · split at h
    · rename_i heq
      exact heq ▸ List.mem_cons_self ..
    · cases h
  · cases h

/-- a day has a hyphen behind its year -/
theorem day_eq_none {cs : List Char} (h : '-' ∉ cs.tail) : day? cs = none := by
  refine Option.eq_none_iff_forall_ne_some.2 fun p hp => h ?_
  simp only [day?, Option.bind_eq_bind, Option.bind_eq_some_iff] at hp
  obtain ⟨q, hq, q', hq', m, hm, -⟩ := hp
  obtain ⟨a, b, rfl⟩ := pair_eq_some hq
  obtain ⟨a', b', hcs⟩ := pair_eq_some hq'
  have hmem := mem_of_pairAfter hm
  simp [hcs, hmem]

/-- a time of day has a colon behind its hour -/
theorem timeOfDay_eq_none {cs : List Char} (h : ':' ∉ cs) : timeOfDay? cs = none := by
  refine Option.eq_none_iff_forall_ne_some.2 fun p hp => h ?_
  simp only [timeOfDay?, Option.bind_eq_bind, Option.bind_eq_some_iff] at hp
  obtain ⟨q, hq, m, hm, -⟩ := hp
  obtain ⟨a, b, rfl⟩ := pair_eq_some hq
  simp [mem_of_pairAfter hm]

/-- a whole number at the end of a line is read as that -/
theorem scalar_signed (i : Int) : scalar? (signed i ++ ['\n']) = (int64? i).map fun v => (v, ['\n']) := by
  have hmoment : moment? (signed i ++ ['\n']) = none := by
    have hday : '-' ∉ (signed i ++ ['\n']).tail := by
      rw [List.tail_append_of_ne_nil (signed_ne_nil i)]
      simpa using hyphen_not_mem_tail i
    have htime : ':' ∉ signed i ++ ['\n'] := by
      intro h
      rcases List.mem_append.1 h with h | h
      · exact absurd (mem_signed h) (by decide)
      · exact absurd h (by decide)
    rw [moment?, day_eq_none hday]
    exact timeOfDay_eq_none htime
  have hword : ∀ c ∈ signed i, inScalar c = true := by
    intro c hc
    rcases mem_signed hc with h | rfl
    · simp [inScalar, inWord, Char.isAlphanum, ← isDigit_eq, h]
    · decide
  have hend : ['\n'].takeWhile inScalar = [] ∧ ['\n'].dropWhile inScalar = ['\n'] := by decide
  simp only [scalar?, hmoment, List.takeWhile_append_of_pos hword, List.dropWhile_append_of_pos hword, hend,
    List.append_nil, word_signed]

theorem value_signed (fuel : Nat) (i : Int) :
    value (fuel + 1) (signed i ++ ['\n']) = (int64? i).map fun v => (v, ['\n']) := by
  obtain ⟨c, cs, hcons, hne⟩ := head_signed i
  have htext : ¬(c = '"' ∨ c = '\'') := not_or.2 ⟨hne '"' rfl (by decide), hne '\'' rfl (by decide)⟩
  have hlist : c ≠ '[' := hne '[' rfl (by decide)
  have htable : c ≠ '\x7b' := hne '\x7b' rfl (by decide)
  rw [← scalar_signed, hcons, List.cons_append, value, if_neg htext, if_neg hlist, if_neg htable]

/-! ## Lines -/

/-- a bare key -/
def IsBare (k : List Char) : Prop := k ≠ [] ∧ k.all inWord = true

instance (k : List Char) : Decidable (IsBare k) := inferInstanceAs (Decidable (_ ∧ _))

theorem IsBare.inWord {k : List Char} (h : IsBare k) : ∀ c ∈ k, inWord c = true := List.all_eq_true.1 h.2

theorem key_bare {k : List Char} (hk : IsBare k) (fuel : Nat) (rest : List Char) :
    key? (fuel + 1) (k ++ ' ' :: '=' :: rest) = some ([String.ofList k], '=' :: rest) := by
  have htake : (k ++ ' ' :: '=' :: rest).takeWhile inWord = k := by
    rw [List.takeWhile_append_of_pos hk.inWord, List.takeWhile_cons_of_neg (by decide), List.append_nil]
  have hdrop : (k ++ ' ' :: '=' :: rest).dropWhile inWord = ' ' :: '=' :: rest := by
    rw [List.dropWhile_append_of_pos hk.inWord, List.dropWhile_cons_of_neg (by decide)]
  have hspace : skipSpace (' ' :: '=' :: rest) = '=' :: rest := by
    rw [skipSpace, List.dropWhile_cons_of_pos (by decide), List.dropWhile_cons_of_neg (by decide)]
  simp [key?, simpleKey?, htake, hdrop, hspace, hk.1]

/-- the line of a key with a whole number -/
def line (k : String) (i : Int) : String := k ++ " = " ++ toString i ++ "\n"

theorem toList_line (k : String) (i : Int) :
    (line k i).toList = k.toList ++ ' ' :: '=' :: ' ' :: (signed i ++ ['\n']) := by
  simp [line, signed]

theorem keyValue_line {k : List Char} (hk : IsBare k) {i : Int} {v : Toml} (hi : int64? i = some v) :
    keyValue? ⟨[], []⟩ (k ++ ' ' :: '=' :: ' ' :: (signed i ++ ['\n'])) =
      some (⟨[(String.ofList k, v)], []⟩, []) := by
  have hspace : skipSpace (' ' :: (signed i ++ ['\n'])) = signed i ++ ['\n'] := by
    obtain ⟨c, cs, hcons, hne⟩ := head_signed i
    have hc : ¬isSpace c = true := by simp [isSpace, hne ' ' rfl (by decide), hne '\t' rfl (by decide)]
    rw [skipSpace, List.dropWhile_cons_of_pos (by decide), hcons, List.cons_append, List.dropWhile_cons_of_neg hc]
  simp only [keyValue?, key_bare hk, Option.bind_eq_bind, Option.bind_some, hspace, value_signed, hi, Option.map_some]
  rfl

theorem plainLines_of_not_mem {cs : List Char} (h : '\r' ∉ cs) : plainLines cs = cs := by
  induction cs with
  | nil => rfl
  | cons c cs ih =>
    have hcs := ih fun hmem => h (List.mem_cons_of_mem _ hmem)
    unfold plainLines
    split
    · rename_i heq
      exact absurd (heq ▸ List.mem_cons_self ..) h
    · rename_i heq
      obtain ⟨rfl, rfl⟩ := List.cons.inj heq
      rw [hcs]
    · rename_i heq
      cases heq

/-- a bare key starts with no blank, no mark of a comment and no bracket -/
theorem head_bare {k : List Char} (hk : IsBare k) : ∃ c cs, k = c :: cs ∧ ∀ d, inWord d = false → c ≠ d := by
  obtain ⟨c, cs, rfl⟩ := List.exists_cons_of_ne_nil hk.1
  refine ⟨c, cs, rfl, fun d hd heq => ?_⟩
  rw [← heq, hk.inWord c (List.mem_cons_self ..)] at hd
  cases hd

/-- one step of a document: a line with a key -/
theorem document_bare {k : List Char} (hk : IsBare k) (fuel : Nat) (d : Draft) (rest : List Char) :
    document (fuel + 1) d (k ++ rest) = (keyValue? d (k ++ rest)).bind fun p => document fuel p.1 p.2 := by
  obtain ⟨c, cs, rfl, hne⟩ := head_bare hk
  have hskip : skipAll false (c :: (cs ++ rest)) = c :: (cs ++ rest) := by
    simp [skipAll, isSpace, hne ' ' rfl, hne '\t' rfl, hne '\n' rfl, hne '#' rfl]
  rw [List.cons_append, document, hskip]
  split
  · rename_i heq
    cases heq
  · rename_i heq
    exact absurd (List.cons.inj heq).1 (hne '[' rfl)
  · rename_i heq
    exact absurd (List.cons.inj heq).1 (hne '[' rfl)
  · rfl

/-- **One line.** A whole number of 64 bits under a bare key is all that such a file says. -/
theorem parse_line {k : String} (hk : IsBare k.toList) {i : Int} (hi : -two63 ≤ i ∧ i < two63) :
    parse (line k i) = some [(k, .int i)] := by
  have hreturn : '\r' ∉ (line k i).toList := by
    rw [toList_line]
    simp only [List.mem_append, List.mem_cons, List.not_mem_nil, or_false]
    rintro (h | h | h | h | h | h)
    · exact absurd (hk.inWord _ h) (by decide)
    · cases h
    · cases h
    · cases h
    · exact absurd (mem_signed h) (by decide)
    · cases h
  have hmark : dropMark (line k i).toList = (line k i).toList := by
    obtain ⟨c, cs, hcons, hne⟩ := head_bare hk
    rw [toList_line, hcons, List.cons_append, dropMark, if_neg (hne _ (by decide))]
  have hlength : (line k i).toList.length ≠ 0 := by simp [toList_line]
  obtain ⟨fuel, hfuel⟩ := Nat.exists_eq_succ_of_ne_zero hlength
  simp only [parse, hmark, plainLines_of_not_mem hreturn, hfuel]
  rw [toList_line, document_bare hk, keyValue_line hk (if_pos hi : int64? i = some (.int i)), String.ofList_toList]
  rfl

end Brigade.Toml
