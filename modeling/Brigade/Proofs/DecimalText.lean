/-
Decimals that are read back from their text.

All digits of a decimal fit, before the point and after it, so reading never rounds: what is read is put together from the
parts that were written (`ofText?_text_eq`). That is the decimal itself, unless it is a zero with a minus
(`ofText?_text_iff`). Products are never such a zero, nor are sums of decimals that are not.
-/
import Brigade.Decimal.Basic
import Brigade.Decimal.Text
import Brigade.Proofs.JsonText

namespace Brigade

open Brigade.Text

namespace Text

theorem numberFrom_append (n : Nat) (cs ds : List Char) : numberFrom n (cs ++ ds) = numberFrom (numberFrom n cs) ds :=
  List.foldl_append

theorem digitValue?_of_isDigit {c : Char} (h : isDigit c = true) : digitValue? c = some (c.toNat - '0'.toNat) := by
  have hrange : '0' ≤ c ∧ c ≤ '9' := by simpa [isDigit] using h
  exact if_pos hrange

end Text

namespace Decimal

open Json.Scan (fractionText)

/-! ## Zeros with a minus -/

/-- a zero has no minus -/
def Plain (d : Decimal) : Prop := d.negative = true → d.size ≠ 0

instance (d : Decimal) : Decidable d.Plain := inferInstanceAs (Decidable (_ → _))

variable {ε : Type} {a b d : Decimal}

theorem plain_zero : zero.Plain := nofun

theorem plain_of_ofParts? {c : Int} {s : Nat} (h : ofParts? c s = some d) : d.Plain := by
  unfold ofParts? at h
  split at h
  · obtain rfl := Option.some.inj h
    intro hnegative hzero
    have hlt : c < 0 := of_decide_eq_true hnegative
    exact absurd (Int.natAbs_eq_zero.1 hzero) hlt.ne
  · cases h

theorem plain_of_fit {c : Int} {s : Nat} (h : fit c s = some d) : d.Plain := by
  obtain ⟨k, -, hk⟩ := List.exists_of_findSome?_eq_some h
  exact plain_of_ofParts? hk

theorem plain_of_mul (h : (mul a b : Outcome ε Decimal) = .ok d) : d.Plain := by
  unfold mul at h
  split_ifs at h
  · obtain rfl := Outcome.ok.inj h
    exact plain_zero
  · split at h
    · obtain rfl := Outcome.ok.inj h
      exact plain_of_fit ‹_›
    · cases h

theorem plain_of_add (ha : a.Plain) (hb : b.Plain) (h : (add a b : Outcome ε Decimal) = .ok d) : d.Plain := by
  unfold add at h
  split_ifs at h
  · obtain rfl := Outcome.ok.inj h
    exact hb
  · obtain rfl := Outcome.ok.inj h
    exact ha
  · simp only at h
    split at h
    · obtain rfl := Outcome.ok.inj h
      exact plain_of_fit ‹_›
    · cases h

/-! ## Texts -/

/-- digits with room for them, before the point or after it -/
theorem readDigits_append {ds : List Char} (hds : ∀ c ∈ ds, isDigit c = true) (rest : List Char) {n s : Nat}
    (point seen : Bool) (hroom : numberFrom n ds < two96) (hplaces : point = true → s + ds.length ≤ 28) :
    readDigits (ds ++ rest) n s point seen =
      readDigits rest (numberFrom n ds) (if point then s + ds.length else s) point (seen || !ds.isEmpty) := by
  induction ds generalizing n s seen with
  | nil => cases point <;> simp [numberFrom]
  | cons c ds ih =>
    have hnext : numberFrom n (c :: ds) = numberFrom (n * 10 + (c.toNat - '0'.toNat)) ds := rfl
    rw [List.length_cons] at hplaces
    have hbefore : ¬(point && decide (28 ≤ s)) = true := by
      rw [Bool.and_eq_true, decide_eq_true_eq]
      rintro ⟨hpoint, hs⟩
      have := hplaces hpoint
      omega
    have hfits : n * 10 + (c.toNat - '0'.toNat) < two96 := lt_of_le_of_lt (le_numberFrom _ ds) hroom
    have hds' : ∀ d ∈ ds, isDigit d = true := fun d hd => hds d (List.mem_cons_of_mem _ hd)
    rw [List.cons_append, readDigits, if_neg hbefore, digitValue?_of_isDigit (hds c List.mem_cons_self)]
    simp only
    rw [if_pos hfits, hnext]
    cases point with
    | false => simpa using ih hds' true hroom Bool.noConfusion
    | true =>
      have hafter := ih (s := s + 1) hds' true hroom fun h => by have := hplaces h; omega
      simpa [Nat.add_assoc, Nat.add_comm 1] using hafter

theorem readDigits_point (cs : List Char) (n s : Nat) (seen : Bool) :
    readDigits ('.' :: cs) n s false seen = readDigits cs n s true seen := by
  simp [readDigits, digitValue?]

/-- digits after a sign, or without one -/
theorem ofPlainText?_sign (negative : Bool) {c : Char} {cs : List Char} (hc : isDigit c = true) :
    ofPlainText? ((if negative then ['-'] else []) ++ c :: cs) =
      (readDigits (c :: cs) 0 0 false false).bind fun p => ofParts? (if negative then -(p.1 : Int) else p.1) p.2 := by
  cases negative with
  | true => rfl
  | false =>
    have hminus : c ≠ '-' := by rintro rfl; cases hc
    have hplus : c ≠ '+' := by rintro rfl; cases hc
    unfold ofPlainText?
    simp [hminus, hplus]

/-- the digits before and after the point of a written decimal -/
theorem toList_text (d : Decimal) : ∃ whole places : List Char,
    d.text.toList = (if d.negative then ['-'] else []) ++ (whole ++ fractionText places) ∧ whole ≠ [] ∧
      (∀ c ∈ whole ++ places, isDigit c = true) ∧ numberFrom 0 (whole ++ places) = d.size ∧ places.length = d.scale := by
  have hsign : (if d.negative then "-" else "").toList = if d.negative then ['-'] else [] := by split <;> rfl
  have hdot : ".".toList = ['.'] := rfl
  have hdigits := isDigit_digits d.size
  have hsize := numberFrom_digits d.size
  by_cases hscale : d.scale = 0
  · refine ⟨digits d.size, [], ?_, digits_ne_nil _, by simpa using hdigits, by simpa using hsize, hscale.symm⟩
    simp [text, hscale, hsign, fractionText]
  · -- zeros in front, so that a digit stands before the point
    let full := List.replicate (d.scale + 1 - (digits d.size).length) '0' ++ digits d.size
    have hlength : d.scale + 1 ≤ full.length := by
      rw [List.length_append, List.length_replicate]
      omega
    have hfull : full.take (full.length - d.scale) ++ full.drop (full.length - d.scale) = full := List.take_append_drop _ _
    have hplaces : (full.drop (full.length - d.scale)).length = d.scale := by
      rw [List.length_drop]
      omega
    refine ⟨full.take (full.length - d.scale), full.drop (full.length - d.scale), ?_, ?_, ?_, ?_, hplaces⟩
    · have htext : d.text = (if d.negative then "-" else "") ++ String.ofList (full.take (full.length - d.scale)) ++ "." ++
          String.ofList (full.drop (full.length - d.scale)) := by
        simp only [text, if_neg hscale]
        rfl
      have hne : full.drop (full.length - d.scale) ≠ [] := by
        rw [← List.length_pos_iff, hplaces]
        omega
      rw [fractionText, if_neg (List.isEmpty_iff.not.2 hne), htext]
      simp only [String.toList_append, String.toList_ofList, hsign, hdot, List.append_assoc, List.singleton_append]
    · rw [← List.length_pos_iff, List.length_take]
      omega
    · rw [hfull]
      intro c hc
      rcases List.mem_append.1 hc with hc | hc
      · rw [List.eq_of_mem_replicate hc]
        rfl
      · exact hdigits c hc
    · rw [hfull, numberFrom_zeros, hsize]

/-- what is read of a written decimal is put together from its parts -/
theorem ofText?_text_eq (d : Decimal) : ofText? d.text = ofParts? d.coeff d.scale := by
  obtain ⟨whole, places, htext, hne, hdigits, hsize, hscale⟩ := toList_text d
  have hwhole : ∀ c ∈ whole, isDigit c = true := fun c hc => hdigits c (List.mem_append_left _ hc)
  have hplaces : ∀ c ∈ places, isDigit c = true := fun c hc => hdigits c (List.mem_append_right _ hc)
  rw [numberFrom_append] at hsize
  have hroom : numberFrom (numberFrom 0 whole) places < two96 := hsize ▸ d.size_lt
  have hbody : readDigits (whole ++ fractionText places) 0 0 false false = some (d.size, d.scale) := by
    rw [readDigits_append hwhole _ false false (lt_of_le_of_lt (le_numberFrom _ _) hroom) nofun]
    cases places with
    | nil => simp [fractionText, readDigits, hne, ← hsize, ← hscale, numberFrom]
    | cons c cs =>
      have hafter := readDigits_append (s := 0) hplaces [] true true hroom fun _ => by have := d.scale_le; omega
      have hseen : (false || !whole.isEmpty) = true := by simp [hne]
      rw [List.append_nil] at hafter
      rw [fractionText, if_neg (by simp), readDigits_point, hseen]
      simpa [readDigits, hsize, hscale] using hafter
  obtain ⟨c, cs, hcons⟩ := List.exists_cons_of_ne_nil hne
  have hplain : ofPlainText? d.text.toList = ofParts? d.coeff d.scale := by
    rw [hcons, List.cons_append] at hbody htext
    rw [htext, ofPlainText?_sign _ (hwhole c (hcons ▸ List.mem_cons_self)), hbody]
    rfl
  have hroom : (ofParts? d.coeff d.scale).isSome := ofParts?_isSome.2 ⟨by rw [natAbs_coeff]; exact d.size_lt, d.scale_le⟩
  obtain ⟨d', hparts⟩ := Option.isSome_iff_exists.1 hroom
  rw [ofText?, hplain, hparts]
  rfl

/-- all decimals but the zeros with a minus are read back -/
theorem ofText?_text_iff : ofText? d.text = some d ↔ d.Plain := by
  rw [ofText?_text_eq]
  exact ⟨plain_of_ofParts?, ofParts?_self⟩

end Decimal

end Brigade
