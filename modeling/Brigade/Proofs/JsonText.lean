/-
Trees that are read back from their text.

Writing a tree and scanning the text are inverse wherever a text can tell what the tree is: numerals whose places are digits,
strings that have a text, and members with such strings for names (`Written`).
- `value_render`: the text of a written tree is scanned as the tree, whatever follows that does not go on the text.
- `parse_render`: such a text holds the tree and nothing else.

The induction is over the tree. Fuel is spent on values and on what follows a bracket, so twice the length of a text is
enough for a value, and one more for what stands between brackets.
-/
import Brigade.Json.Print
import Brigade.Json.Scan
import Brigade.Proofs.TextForms
import Mathlib.Tactic

namespace Brigade

open Brigade.Text

/-! ## Digits -/

namespace Text

theorem isDigit_eq (c : Char) : isDigit c = c.isDigit := by
  simp [isDigit, Char.isDigit, Char.le_def, ge_iff_le]

theorem numberFrom_digits (n : Nat) : numberFrom 0 (digits n) = n := by
  have hfold : numberFrom 0 (digits n) = Nat.ofDigitChars 10 (digits n) 0 := by
    simp only [numberFrom, Nat.ofDigitChars, Nat.mul_comm]
  rw [hfold]
  exact Nat.ofDigitChars_toDigits (by decide) (by decide)

/-- leading zeros do not count -/
theorem numberFrom_zeros (k : Nat) (ds : List Char) : numberFrom 0 (List.replicate k '0' ++ ds) = numberFrom 0 ds := by
  induction k with
  | zero => rfl
  | succ k ih => exact ih

/-- a number never gets smaller by more digits -/
theorem le_numberFrom (n : Nat) (cs : List Char) : n ≤ numberFrom n cs := by
  induction cs generalizing n with
  | nil => exact Nat.le_refl n
  | cons c cs ih => exact le_trans (by omega) (ih (n * 10 + (c.toNat - '0'.toNat)))

theorem digits_ne_nil (n : Nat) : digits n ≠ [] := Nat.toDigits_ne_nil

/-- a number of more than one digit does not start with a zero -/
theorem head_digits (n : Nat) : (digits n).length = 1 ∨ (digits n).head? ≠ some '0' := by
  induction n using Nat.strongRecOn with
  | ind n ih =>
    by_cases hn : n < 10
    · left
      simp [digits, Nat.toDigits_of_lt_base hn]
    · right
      have hsplit : digits n = digits (n / 10) ++ [Nat.digitChar (n % 10)] :=
        Nat.toDigits_of_base_le (by decide) (by omega)
      rw [hsplit, List.head?_append_of_ne_nil _ (digits_ne_nil _)]
      rcases ih (n / 10) (by omega) with h | h
      · have hlt : n / 10 < 10 := by
          by_contra hge
          have := (Nat.length_toDigits_le_iff (b := 10) (k := 1) (n := n / 10) (by decide) (by decide)).1 (le_of_eq h)
          omega
        rw [digits, Nat.toDigits_of_lt_base hlt]
        have hpos : 0 < n / 10 := by omega
        interval_cases n / 10 <;> decide
      · exact h

/-- the digits in front of what is no digit -/
theorem span_digits {ds rest : List Char} (hds : ∀ c ∈ ds, isDigit c = true)
    (hrest : ∀ c ∈ rest.head?, isDigit c = false) :
    (ds ++ rest).takeWhile isDigit = ds ∧ (ds ++ rest).dropWhile isDigit = rest := by
  rw [List.takeWhile_append_of_pos hds, List.dropWhile_append_of_pos hds]
  cases rest with
  | nil => simp
  | cons c cs =>
    have hc : isDigit c = false := hrest c rfl
    simp [hc]

theorem isDigit_digits (n : Nat) : ∀ c ∈ digits n, isDigit c = true :=
  fun c hc => (isDigit_eq c).trans (isDigit_of_mem_digits hc)

theorem hexValue?_hexDigit : ∀ n < 16, hexValue? (hexDigit n) = some n := by decide

end Text

namespace Json.Scan

/-! ## Strings -/

theorem takeHex4_hexPadded {n : Nat} (hn : n < 16 ^ 4) (rest : List Char) :
    takeHex4 (hexPadded 4 n ++ rest) = some (n, rest) := by
  have hdigit : ∀ m, hexValue? (hexDigit (m % 16)) = some (m % 16) := fun m =>
    hexValue?_hexDigit _ (Nat.mod_lt _ (by decide))
  simp only [hexPadded, List.nil_append, List.cons_append, takeHex4, hdigit, Option.bind_eq_bind, Option.bind_some,
    Option.some.injEq, Prod.mk.injEq, and_true]
  omega

/-- one character inside quotes -/
theorem chars_escape (fuel : Nat) (c : Char) (rest : List Char) :
    chars (fuel + 1) (escape c ++ rest) = (chars fuel rest).map fun p => (some c :: p.1, p.2) := by
  unfold escape
  split_ifs with hquote hback hnewline hreturn htab hbell hform hcontrol
  · simp [chars, simpleEscape?, hquote]
  · simp [chars, simpleEscape?, hback]
  · simp [chars, simpleEscape?, hnewline]
  · simp [chars, simpleEscape?, hreturn]
  · simp [chars, simpleEscape?, htab]
  · have hc : Char.ofNat 8 = c := by rw [← hbell, Char.ofNat_toNat]
    subst hc
    simp [chars, simpleEscape?]
  · have hc : Char.ofNat 12 = c := by rw [← hform, Char.ofNat_toNat]
    subst hc
    simp [chars, simpleEscape?]
  · have hhigh : ¬(0xD800 ≤ c.toNat ∧ c.toNat < 0xDC00) := by omega
    have hlow : ¬(0xDC00 ≤ c.toNat ∧ c.toNat < 0xE000) := by omega
    have hhex := takeHex4_hexPadded (n := c.toNat) (by omega) rest
    simp only [List.cons_append, List.nil_append, chars, hhex, if_neg hhigh, if_neg hlow, Char.ofNat_toNat]
    rfl
  · simp [chars, hquote, hback, hcontrol]

theorem chars_flatMap {fuel : Nat} (cs rest : List Char) (hfuel : cs.length < fuel) :
    chars fuel (cs.flatMap escape ++ '"' :: rest) = some (cs.map some, rest) := by
  induction cs generalizing fuel with
  | nil =>
    obtain ⟨fuel, rfl⟩ := Nat.exists_eq_succ_of_ne_zero (by omega : fuel ≠ 0)
    simp [chars]
  | cons c cs ih =>
    obtain ⟨fuel, rfl⟩ := Nat.exists_eq_succ_of_ne_zero (by omega : fuel ≠ 0)
    rw [List.flatMap_cons, List.append_assoc, chars_escape, ih (by simpa using hfuel)]
    rfl

/-- a string after its opening quote -/
theorem string_quoted (s : String) (rest : List Char) :
    string (s.toList.flatMap escape ++ '"' :: rest) = (text s, some rest) := by
  have hlength : ∀ cs : List Char, cs.length ≤ (cs.flatMap escape).length := by
    intro cs
    induction cs with
    | nil => exact Nat.le_refl _
    | cons c cs ih =>
      have hescape : 1 ≤ (escape c).length := by
        unfold escape
        split_ifs <;> simp
      simp only [List.flatMap_cons, List.length_append, List.length_cons]
      omega
  have hall : (s.toList.map some).mapM (m := Option) id = some s.toList := by
    rw [List.mapM_map]
    exact List.mapM_pure.trans (congrArg some (List.map_id _))
  have hfuel : s.toList.length < (s.toList.flatMap escape ++ '"' :: rest).length + 1 := by
    rw [List.length_append, List.length_cons]
    have := hlength s.toList
    omega
  unfold string
  rw [chars_flatMap _ _ hfuel]
  simp only [hall, Option.map_some, String.ofList_toList]

theorem toList_quote (s : String) : (quote s).toList = '"' :: (s.toList.flatMap escape ++ ['"']) := by
  simp [quote]

/-! ## Numbers -/

/-- what may stand after a value: nothing, or what ends it -/
def Ends (rest : List Char) : Prop := ∀ c ∈ rest.head?, c = ',' ∨ c = ']' ∨ c = '\x7d'

theorem Ends.not_digit {rest : List Char} (h : Ends rest) : ∀ c ∈ rest.head?, isDigit c = false := by
  intro c hc
  rcases h c hc with rfl | rfl | rfl <;> rfl

/-- an exponent as it is written -/
def exponentText : Option Int → List Char
  | some x => 'e' :: ((if x < 0 then ['-'] else []) ++ digits x.natAbs)
  | none => []

/-- the places of a numeral as they are written -/
def fractionText (f : List Char) : List Char := if f.isEmpty then [] else '.' :: f

theorem toList_text (l : Numeral) :
    l.text.toList = (if l.negative then ['-'] else []) ++
      (digits l.whole ++ (fractionText l.fraction ++ exponentText l.exponent)) := by
  obtain ⟨negative, whole, fraction, e⟩ := l
  simp only [Numeral.text, String.toList_append, List.append_assoc, String.toList_ofList]
  congr 1
  · cases negative <;> simp
  · congr 2
    · unfold fractionText
      split <;> simp
    · cases e with
      | none => simp [exponentText]
      | some x =>
        simp only [exponentText, String.toList_append, String.toList_ofList]
        split <;> simp

theorem exponent_text (e : Option Int) {rest : List Char} (h : Ends rest) :
    exponent (exponentText e ++ rest) = some (e, rest) := by
  cases e with
  | none =>
    unfold exponent exponentText
    cases rest with
    | nil => rfl
    | cons c cs => rcases h c rfl with rfl | rfl | rfl <;> rfl
  | some x =>
    obtain ⟨hds, hrest⟩ := span_digits (isDigit_digits x.natAbs) h.not_digit
    have hne : (digits x.natAbs).isEmpty = false := by simpa using digits_ne_nil x.natAbs
    by_cases hx : x < 0
    · have hvalue : -(x.natAbs : Int) = x := by omega
      simp only [exponent, exponentText, if_pos hx, List.cons_append, List.nil_append, hds, hrest, hne,
        numberFrom_digits, Bool.false_eq_true, if_false, if_true, hvalue]
    · have hvalue : (x.natAbs : Int) = x := by omega
      -- the first digit is no sign
      obtain ⟨d, ds, hcons⟩ := List.exists_cons_of_ne_nil (digits_ne_nil x.natAbs)
      have hd : isDigit d = true := isDigit_digits x.natAbs d (hcons ▸ List.mem_cons_self)
      have hplus : d ≠ '+' := by rintro rfl; cases hd
      have hminus : d ≠ '-' := by rintro rfl; cases hd
      simp only [exponent, exponentText, if_neg hx, List.nil_append, List.cons_append]
      split
      · rename_i heq
        rw [hcons] at heq
        exact absurd (List.cons.inj heq).1 hplus
      · rename_i heq
        rw [hcons] at heq
        exact absurd (List.cons.inj heq).1 hminus
      · simp [hds, hrest, hne, numberFrom_digits, hvalue]

/-- what may stand after the places -/
theorem head_exponentText (e : Option Int) {rest : List Char} (h : Ends rest) :
    ∀ c ∈ (exponentText e ++ rest).head?, isDigit c = false ∧ c ≠ '.' := by
  intro c hc
  cases e with
  | none => rcases h c hc with rfl | rfl | rfl <;> decide
  | some x =>
    obtain rfl := Option.some.inj hc
    decide

theorem unsignedNumber_text (negative : Bool) (n : Nat) {f : List Char} (e : Option Int) {rest : List Char}
    (hf : ∀ c ∈ f, isDigit c = true) (h : Ends rest) :
    unsignedNumber negative (digits n ++ (fractionText f ++ (exponentText e ++ rest))) =
      some (⟨negative, n, f, e⟩, rest) := by
  have hexponent := exponent_text e h
  have hafter := head_exponentText e h
  generalize exponentText e ++ rest = after at hexponent hafter
  have hboundary : ∀ c ∈ (fractionText f ++ after).head?, isDigit c = false := by
    unfold fractionText
    split
    · exact fun c hc => (hafter c hc).1
    · intro c hc
      obtain rfl := Option.some.inj hc
      rfl
  obtain ⟨hds, hrest⟩ := span_digits (isDigit_digits n) hboundary
  have hne : (digits n).isEmpty = false := by simpa using digits_ne_nil n
  have hzero : ((digits n).length != 1 && (digits n).head? == some '0') = false := by
    rcases head_digits n with h | h <;> simp [h]
  simp only [unsignedNumber, hds, hrest, hne, hzero, numberFrom_digits]
  cases f with
  | nil =>
    cases after with
    | nil => simp [fractionText, hexponent]
    | cons c cs =>
      have hpoint : c ≠ '.' := (hafter c rfl).2
      simp [fractionText, hexponent, hpoint]
  | cons d f =>
    obtain ⟨hfs, hfrest⟩ := span_digits hf fun c hc => (hafter c hc).1
    rw [List.cons_append] at hfs hfrest
    simp [fractionText, hfs, hfrest, hexponent]

/-- a minus or a digit -/
def StartsNumber (d : Char) : Prop := d = '-' ∨ isDigit d = true

instance (d : Char) : Decidable (StartsNumber d) := inferInstanceAs (Decidable (_ ∨ _))

theorem StartsNumber.not_space {d : Char} (h : StartsNumber d) : isSpace d = false := by
  have hne : ∀ c : Char, ¬StartsNumber c → d ≠ c := fun c hc heq => hc (heq ▸ h)
  simp [isSpace, hne ' ' (by decide), hne '\n' (by decide), hne '\t' (by decide), hne '\r' (by decide)]

theorem head_text (l : Numeral) : ∃ d ds, l.text.toList = d :: ds ∧ StartsNumber d := by
  rw [toList_text]
  cases l.negative with
  | true => exact ⟨'-', _, rfl, .inl rfl⟩
  | false =>
    obtain ⟨d, ds, hcons⟩ := List.exists_cons_of_ne_nil (digits_ne_nil l.whole)
    exact ⟨d, _, by rw [hcons]; rfl, .inr (isDigit_digits l.whole d (hcons ▸ List.mem_cons_self))⟩

/-- a numeral whose places are digits -/
theorem number_text {l : Numeral} (hl : ∀ c ∈ l.fraction, isDigit c = true) {rest : List Char} (h : Ends rest) :
    number (l.text.toList ++ rest) = some (l, rest) := by
  have hunsigned := fun negative => unsignedNumber_text negative l.whole l.exponent hl h
  obtain ⟨negative, whole, fraction, e⟩ := l
  simp only [toList_text, List.append_assoc]
  cases negative with
  | true => simpa [number] using hunsigned true
  | false =>
    obtain ⟨d, ds, hcons⟩ := List.exists_cons_of_ne_nil (digits_ne_nil whole)
    have hd : isDigit d = true := isDigit_digits whole d (hcons ▸ List.mem_cons_self)
    have hminus : d ≠ '-' := by rintro rfl; cases hd
    have hplain := hunsigned false
    simp only [hcons, List.cons_append] at hplain ⊢
    simpa [number, hminus] using hplain

end Json.Scan

/-! ## Trees -/

namespace Json

open Scan

/-- trees that a text can tell -/
inductive Written : Json → Prop where
  | null : Written null
  | bool (b : Bool) : Written (bool b)
  | num (l : Numeral) (places : ∀ c ∈ l.fraction, isDigit c = true) : Written (num l)
  | text (s : String) : Written (text s)
  | arr (xs : List Json) (elements : ∀ x ∈ xs, Written x) : Written (arr xs)
  | record (ms : List (String × Json)) (values : ∀ m ∈ ms, Written m.2) : Written (record ms)

attribute [simp] Written.null Written.bool Written.text Written.record

@[simp] theorem written_word (w : Int32) : (Json.word w).Written := .num _ nofun

@[simp] theorem written_option {α : Type} {f : α → Json} {o : Option α} (h : ∀ a ∈ o, (f a).Written) :
    (option f o).Written := by
  cases o with
  | none => exact .null
  | some a => exact h a rfl

@[simp] theorem written_map {α : Type} {f : α → Json} {xs : List α} (h : ∀ a ∈ xs, (f a).Written) :
    (arr (xs.map f)).Written := by
  refine .arr _ fun x hx => ?_
  obtain ⟨a, ha, rfl⟩ := List.mem_map.1 hx
  exact h a ha

/-- whatever ends a value, the text of the tree is scanned as the tree, with fuel for twice its length -/
def ReadBack (j : Json) : Prop :=
  ∀ (fuel : Nat) (rest : List Char), 2 * (render j).toList.length ≤ fuel → Ends rest →
    value fuel ((render j).toList ++ rest) = (j, some rest)

theorem skip_cons {c : Char} {cs : List Char} (h : isSpace c = false) : skip (c :: cs) = c :: cs := by
  simp [skip, h]

/-- texts with commas between them -/
theorem toList_commas (s t : String) (ts : List String) :
    (",".intercalate (s :: t :: ts)).toList = s.toList ++ ',' :: (",".intercalate (t :: ts)).toList := by
  have hcomma : ",".toList = [','] := by decide
  simp only [String.intercalate_cons_cons, String.toList_append, hcomma, List.append_assoc, List.singleton_append]

theorem head_commas {s : String} {c : Char} {cs : List Char} (h : s.toList = c :: cs) (ts : List String) :
    ∃ cs', (",".intercalate (s :: ts)).toList = c :: cs' := by
  cases ts with
  | nil => exact ⟨cs, by rw [String.intercalate_singleton, h]⟩
  | cons t ts => exact ⟨_, by rw [toList_commas, h, List.cons_append]⟩

/-- elements up to the closing bracket -/
theorem elements_render (fuel : Nat) {x : Json} {xs : List Json} (hx : ∀ y ∈ x :: xs, ReadBack y) (rest : List Char)
    (hfuel : 2 * (",".intercalate (renderAll (x :: xs))).toList.length + 1 ≤ fuel) :
    elements fuel ((",".intercalate (renderAll (x :: xs))).toList ++ ']' :: rest) = (x :: xs, some rest) := by
  induction xs generalizing fuel x with
  | nil =>
    obtain ⟨fuel, rfl⟩ := Nat.exists_eq_succ_of_ne_zero (by omega : fuel ≠ 0)
    simp only [renderAll, String.intercalate_singleton] at hfuel ⊢
    have hvalue := hx x List.mem_cons_self fuel (']' :: rest) (by omega) (by simp [Ends])
    simp [elements, hvalue, skip_cons (show isSpace ']' = false by decide)]
  | cons y ys ih =>
    obtain ⟨fuel, rfl⟩ := Nat.exists_eq_succ_of_ne_zero (by omega : fuel ≠ 0)
    have hmore := ih fuel (x := y) fun z hz => hx z (List.mem_cons_of_mem _ hz)
    simp only [renderAll, toList_commas] at hfuel hmore ⊢
    generalize (",".intercalate (render y :: renderAll ys)).toList = body at hfuel hmore ⊢
    simp only [List.length_append, List.length_cons] at hfuel
    have hvalue := hx x List.mem_cons_self fuel (',' :: (body ++ ']' :: rest)) (by omega) (by simp [Ends])
    simp [elements, hvalue, skip_cons (show isSpace ',' = false by decide), hmore (by omega)]

/-- members up to the closing brace -/
theorem members_render (fuel : Nat) {m : String × Json} {ms : List (String × Json)}
    (hm : ∀ n ∈ m :: ms, ReadBack n.2) (rest : List Char)
    (hfuel : 2 * (",".intercalate (renderMembers ((m :: ms).map fun m => (text m.1, m.2)))).toList.length + 1 ≤ fuel) :
    members fuel ((",".intercalate (renderMembers ((m :: ms).map fun m => (text m.1, m.2)))).toList ++ '\x7d' :: rest) =
      ((m :: ms).map fun m => (text m.1, m.2), some rest) := by
  have hcolon : ":".toList = [':'] := by decide
  induction ms generalizing fuel m with
  | nil =>
    obtain ⟨fuel, rfl⟩ := Nat.exists_eq_succ_of_ne_zero (by omega : fuel ≠ 0)
    simp only [List.map_cons, List.map_nil, renderMembers, String.intercalate_singleton, String.toList_append, render,
      toList_quote, hcolon, List.cons_append, List.append_assoc, List.nil_append, List.length_cons, List.length_append]
      at hfuel ⊢
    have hvalue := hm m List.mem_cons_self fuel ('\x7d' :: rest) (by omega) (by simp [Ends])
    simp [members, skip_cons (show isSpace '"' = false by decide), string_quoted,
      skip_cons (show isSpace ':' = false by decide), hvalue, skip_cons (show isSpace '\x7d' = false by decide)]
  | cons n ns ih =>
    obtain ⟨fuel, rfl⟩ := Nat.exists_eq_succ_of_ne_zero (by omega : fuel ≠ 0)
    have hmore := ih fuel (m := n) fun z hz => hm z (List.mem_cons_of_mem _ hz)
    simp only [List.map_cons, renderMembers, toList_commas, String.toList_append] at hfuel hmore ⊢
    generalize (",".intercalate ((render (text n.1) ++ ":" ++ render n.2) ::
      renderMembers (ns.map fun m => (text m.1, m.2)))).toList = body at hfuel hmore ⊢
    simp only [render, toList_quote, hcolon, List.cons_append, List.append_assoc, List.nil_append, List.length_cons,
      List.length_append] at hfuel ⊢
    have hvalue := hm m List.mem_cons_self fuel (',' :: (body ++ '\x7d' :: rest)) (by omega) (by simp [Ends])
    simp [members, skip_cons (show isSpace '"' = false by decide), string_quoted,
      skip_cons (show isSpace ':' = false by decide), hvalue, skip_cons (show isSpace ',' = false by decide),
      hmore (by omega)]

/-- what starts like a number is scanned as one -/
theorem value_of_number {fuel : Nat} {d : Char} {ds rest : List Char} {l : Numeral} (hd : StartsNumber d)
    (h : number (d :: ds) = some (l, rest)) : value (fuel + 1) (d :: ds) = (num l, some rest) := by
  have hne : ∀ c : Char, ¬StartsNumber c → d ≠ c := fun c hc heq => hc (heq ▸ hd)
  simp [value, skip_cons hd.not_space, h, hne '"' (by decide), hne '[' (by decide), hne '\x7b' (by decide),
    hne 'n' (by decide), hne 't' (by decide), hne 'f' (by decide)]

/-- a value does not start with white space, and not with the end of an array -/
theorem head_render {j : Json} (h : Written j) :
    ∃ c cs, (render j).toList = c :: cs ∧ isSpace c = false ∧ c ≠ ']' := by
  cases h with
  | null => exact ⟨'n', _, rfl, by decide⟩
  | bool b => cases b <;> exact ⟨_, _, rfl, by decide⟩
  | text s => exact ⟨'"', _, toList_quote s, by decide⟩
  | arr xs => exact ⟨'[', _, by rw [render, String.toList_append, String.toList_append]; rfl, by decide⟩
  | record ms => exact ⟨'\x7b', _, by rw [record, render, String.toList_append, String.toList_append]; rfl, by decide⟩
  | num l places =>
    obtain ⟨d, ds, htext, hd⟩ := head_text l
    exact ⟨d, ds, htext, hd.not_space, by rintro rfl; revert hd; decide⟩

/-- it is enough that what follows the first character of a text is scanned with the fuel that is left -/
theorem readBack_of {j : Json} (c : Char) (cs : List Char) (htext : (render j).toList = c :: cs)
    (h : ∀ (fuel : Nat) (rest : List Char), 2 * cs.length + 1 ≤ fuel → Ends rest →
      value (fuel + 1) (c :: (cs ++ rest)) = (j, some rest)) : ReadBack j := by
  intro fuel rest hfuel hends
  rw [htext] at hfuel ⊢
  rw [List.length_cons] at hfuel
  obtain ⟨fuel, rfl⟩ := Nat.exists_eq_succ_of_ne_zero (by omega : fuel ≠ 0)
  exact h fuel rest (by omega) hends

/-- **Written trees are read back.** The text of a tree is scanned as the tree, up to what ends it. -/
theorem value_render {j : Json} (h : Written j) : ReadBack j := by
  induction h with
  | null =>
    refine readBack_of 'n' ['u', 'l', 'l'] (by decide) fun fuel rest _ _ => ?_
    simp [value, skip, isSpace, Scan.word]
  | bool b =>
    cases b with
    | true =>
      refine readBack_of 't' ['r', 'u', 'e'] (by decide) fun fuel rest _ _ => ?_
      simp [value, skip, isSpace, Scan.word]
    | false =>
      refine readBack_of 'f' ['a', 'l', 's', 'e'] (by decide) fun fuel rest _ _ => ?_
      simp [value, skip, isSpace, Scan.word]
  | num l places =>
    obtain ⟨d, ds, htext, hd⟩ := head_text l
    refine readBack_of d ds htext fun fuel rest _ hends => ?_
    have hnumber := number_text places hends
    rw [htext, List.cons_append] at hnumber
    exact value_of_number hd hnumber
  | text s =>
    refine readBack_of '"' (s.toList.flatMap escape ++ ['"']) (toList_quote s) fun fuel rest _ _ => ?_
    simp [value, skip_cons (show isSpace '"' = false by decide), string_quoted]
  | arr xs elements ih =>
    refine readBack_of '[' ((",".intercalate (renderAll xs)).toList ++ [']']) ?_ fun fuel rest hfuel _ => ?_
    · rw [render, String.toList_append, String.toList_append, List.append_assoc]
      rfl
    · rw [List.length_append, List.length_singleton] at hfuel
      rw [List.append_assoc, List.singleton_append]
      cases xs with
      | nil => simp [renderAll, value, skip, isSpace]
      | cons x xs =>
        obtain ⟨c, cs, hx, hspace, hclose⟩ := head_render (elements x List.mem_cons_self)
        obtain ⟨cs, hbody⟩ := head_commas hx (renderAll xs)
        have hscan := elements_render fuel ih rest (by omega)
        simp only [renderAll, hbody, List.cons_append] at hscan ⊢
        simp [value, skip_cons (show isSpace '[' = false by decide), skip_cons hspace, hclose, hscan]
  | record ms values ih =>
    refine readBack_of '\x7b' ((",".intercalate (renderMembers (ms.map fun m => (text m.1, m.2)))).toList ++ ['\x7d']) ?_
      fun fuel rest hfuel _ => ?_
    · rw [record, render, String.toList_append, String.toList_append, List.append_assoc]
      rfl
    · rw [List.length_append, List.length_singleton] at hfuel
      rw [List.append_assoc, List.singleton_append]
      cases ms with
      | nil => simp [record, renderMembers, value, skip, isSpace]
      | cons m ms =>
        have hquoted : (render (text m.1) ++ ":" ++ render m.2).toList =
            '"' :: (m.1.toList.flatMap escape ++ '"' :: ':' :: (render m.2).toList) := by
          simp [render, toList_quote]
        obtain ⟨cs, hbody⟩ := head_commas hquoted (renderMembers (ms.map fun m => (text m.1, m.2)))
        have hscan := members_render fuel ih rest (by omega)
        simp only [List.map_cons, renderMembers, hbody, List.cons_append] at hscan ⊢
        simp [record, value, skip_cons (show isSpace '\x7b' = false by decide),
          skip_cons (show isSpace '"' = false by decide), hscan]

/-- the text of a tree holds the tree and nothing else -/
theorem parse_render {j : Json} (h : Written j) : parse (render j) = some j := by
  have hscan := value_render h (2 * (render j).toList.length + 2) [] (by omega) (by simp [Ends])
  rw [List.append_nil] at hscan
  simp [parse, scan, hscan, skip]

end Json

end Brigade
