/-
Values that are read back from the tree they are written as.

What a type writes is a record of its fields, in the order in which they are declared, with distinct names. So the walk
over the members meets each field once (`walk_record`), and each field is taken from its own member.
-/
import Brigade.Proofs.JsonText
import Brigade.Proofs.Readers

namespace Brigade

open Brigade.Text

/-! ## Identities -/

namespace Id

theorem foldlM_hexPadded (w n acc : Nat) :
    (hexPadded w n).foldlM (fun n c => (hexValue? c).map (n * 16 + ·)) acc = some (acc * 16 ^ w + n % 16 ^ w) := by
  induction w generalizing n with
  | zero => simp [hexPadded, Nat.mod_one]
  | succ w ih =>
    have hlow := hexValue?_hexDigit (n % 16) (Nat.mod_lt _ (by decide))
    simp only [hexPadded, List.foldlM_append, ih, List.foldlM_cons, List.foldlM_nil, hlow, Option.map_some,
      Option.bind_eq_bind, Option.bind_some, Option.pure_def, Option.some.injEq]
    rw [Nat.pow_succ', Nat.mod_mul]
    ring

/-- the groups of a hyphenated text, put together -/
theorem ofHyphenated?_groups {a b c d e : List Char} (ha : a.length = 8) (hb : b.length = 4) (hc : c.length = 4)
    (hd : d.length = 4) (he : e.length = 12) :
    ofHyphenated? (a ++ '-' :: b ++ '-' :: c ++ '-' :: d ++ '-' :: e) = ofHex? (a ++ b ++ c ++ d ++ e) := by
  simp [ofHyphenated?, List.drop_append, List.drop_of_length_le, ha, hb, hc, hd, he]

theorem ofText?_text (i : Id) : ofText? i.text = some i := by
  have hlength : i.hexDigits.length = 32 := length_hexPadded 32 _
  have hjoin : ∀ n, (i.hexDigits.drop n).take 4 ++ i.hexDigits.drop (n + 4) = i.hexDigits.drop n := fun n => by
    rw [← List.drop_drop, List.take_append_drop]
  have hgroups : ofHyphenated? (hyphenate i.hexDigits) = ofHex? i.hexDigits := by
    rw [hyphenate, ofHyphenated?_groups (by simp [hlength]) (by simp [hlength]) (by simp [hlength]) (by simp [hlength])
      (by simp [hlength])]
    simp only [List.append_assoc, hjoin 16, hjoin 12, hjoin 8, List.take_append_drop]
  have hhex : ofHex? i.hexDigits = some i := by
    rw [ofHex?, if_pos hlength, hexDigits, foldlM_hexPadded, Nat.zero_mul, Nat.zero_add,
      Nat.mod_eq_of_lt (by exact i.bits.isLt)]
    simp [ofNat]
  have htext : i.text.toList.length = 36 := i.length_text
  unfold ofText?
  simp only [htext]
  rw [text, String.toList_ofList]
  simpa using hgroups.trans hhex

end Id

/-! ## Numbers -/

theorem Numeral.absorb_of_lt {n : Nat} {cs : List Char} (h : numberFrom n cs < two64) :
    absorb n cs = (numberFrom n cs, []) := by
  induction cs generalizing n with
  | nil => rfl
  | cons c cs ih =>
    have hnext : numberFrom n (c :: cs) = numberFrom (n * 10 + (c.toNat - '0'.toNat)) cs := rfl
    rw [hnext] at h ⊢
    unfold absorb
    simp only
    rw [if_pos (lt_of_le_of_lt (le_numberFrom _ cs) h)]
    exact ih h

theorem Numeral.value_ofInt {i : Int} (h : i.natAbs ≤ two63) : (ofInt i).value = .whole i := by
  have habsorb : absorb 0 (digits i.natAbs) = (i.natAbs, []) := by
    have hvalue := numberFrom_digits i.natAbs
    rw [absorb_of_lt, hvalue]
    rw [hvalue]
    exact lt_of_le_of_lt h (by decide)
  unfold value ofInt
  by_cases hi : i < 0
  · simp [habsorb, hi, abs_of_neg hi]
    omega
  · simp [habsorb, hi, abs_of_nonneg (not_lt.1 hi)]

namespace Reader

variable {α : Type} {r : Reader α} {j : Json} {a : α}

@[simp] theorem ok_bind {ε α β : Type} (a : α) (k : α → Except ε β) : ((.ok a : Except ε α) >>= k) = k a := rfl

/-! ## Plain values -/

theorem whole_num {l : Numeral} {lo hi i : Int} (h : l.value = .whole i) (hrange : lo ≤ i ∧ i ≤ hi) :
    whole lo hi (.num l) = .ok i := by
  simp [whole, h, hrange]

theorem int32_word (w : Int32) : int32 (.word w) = .ok w := by
  have hlow := w.le_toInt
  have hhigh := w.toInt_lt
  have hvalue : (Numeral.ofInt w.toInt).value = .whole w.toInt := Numeral.value_ofInt (by unfold two63; omega)
  have hrange : -(two31 : Int) ≤ w.toInt ∧ w.toInt ≤ two31 - 1 := by
    unfold two31
    omega
  have hwhole : whole (-two31) (two31 - 1) (.word w) = .ok w.toInt := whole_num hvalue hrange
  exact Except.bind_eq_ok.2 ⟨_, hwhole, by rw [Word.ofInt?_toInt]⟩

theorem string_text (s : String) : string (.text s) = .ok s := rfl

theorem bool_bool (b : Bool) : bool (.bool b) = .ok b := rfl

theorem id_text (i : Id) : id (.text i.text) = .ok i := by
  simp [id, Id.ofText?_text]

theorem time_text {t : Timestamp} (h : Timestamp.ofText? t.text = some t) : time (.text t.text) = .ok t := by
  simp [time, h]

theorem decimal_text {d : Decimal} (h : Decimal.ofText? d.text = some d) : decimal (.text d.text) = .ok d := by
  simp [decimal, h, orInvalid]

/-! ## Options, lists, names -/

theorem option_option {f : α → Json} {o : Option α} (h : ∀ a ∈ o, r (f a) = .ok a) (hf : ∀ a, f a ≠ .null) :
    option r (.option f o) = .ok o := by
  cases o with
  | none => rfl
  | some a =>
    unfold option Json.option
    split
    · rename_i hnull
      exact absurd hnull (hf a)
    · rw [h a rfl]
      rfl

theorem option_text (o : Option String) : option string (.option .text o) = .ok o :=
  option_option (fun s _ => string_text s) nofun

theorem list_map {f : α → Json} {xs : List α} (h : ∀ a ∈ xs, r (f a) = .ok a) : list r (.arr (xs.map f)) = .ok xs := by
  change all r (xs.map f) = .ok xs
  induction xs with
  | nil => rfl
  | cons x xs ih =>
    simp only [List.map_cons, all, h x List.mem_cons_self, ih fun a ha => h a (List.mem_cons_of_mem _ ha)]
    rfl

/-- a name is read as what it names, if all names are distinct -/
theorem named_text {all : List α} {name : α → String} (hname : (all.map name).Nodup) (ha : a ∈ all) :
    named (all.map fun b => (name b, b)) (.text (name a)) = .ok a := by
  have hlookup : (all.map fun b => (name b, b)).lookup (name a) = some a := by
    induction all with
    | nil => cases ha
    | cons b bs ih =>
      obtain ⟨hb, hbs⟩ := List.nodup_cons.1 hname
      rw [List.map_cons, List.lookup_cons]
      rcases List.mem_cons.1 ha with rfl | ha
      · simp
      · have hne : (name a == name b) = false := by
          rw [beq_eq_false_iff_ne]
          exact fun heq => hb (heq ▸ List.mem_map_of_mem ha)
        rw [hne]
        exact ih hbs ha
  change (variantNamed _ (name a) >>= _) = _
  rw [variantNamed_of_names, hlookup]
  rfl

/-! ## Records -/

/-- the member is written for the field, and its value passes -/
def Fits (f : Field) (m : String × Json) : Prop := f.name = m.1 ∧ f.check m.2 = .ok ()

theorem fits_field {name : String} (h : r j = .ok a) : Fits (field name r) (name, j) :=
  ⟨rfl, by simp [field, h, Except.map]⟩

theorem find?_name {fields : List Field} (h : (fields.map (·.name)).Nodup) {f : Field} (hf : f ∈ fields) :
    fields.find? (·.name == f.name) = some f := by
  induction fields with
  | nil => cases hf
  | cons g gs ih =>
    obtain ⟨hg, hgs⟩ := List.nodup_cons.1 h
    rcases List.mem_cons.1 hf with rfl | hf
    · simp
    · have hne : (g.name == f.name) = false := by
        rw [beq_eq_false_iff_ne]
        exact fun heq => hg (List.mem_map.2 ⟨f, hf, heq.symm⟩)
      rw [List.find?_cons, hne]
      exact ih hgs hf

/-- members that are written for the fields, one after another, are gone through without a mistake -/
theorem walk_record {fields : List Field} {ms : List (String × Json)} (hnames : (fields.map (·.name)).Nodup)
    (hfits : List.Forall₂ Fits fields ms) (closed : Bool) :
    walk fields closed [] (ms.map fun m => (.text m.1, m.2)) = .ok () := by
  suffices hwalk : ∀ (fs : List Field) (ms : List (String × Json)) (seen : List String), List.Forall₂ Fits fs ms →
      (∀ f ∈ fs, f ∈ fields) → (fs.map (·.name)).Nodup → (∀ f ∈ fs, f.name ∉ seen) →
      walk fields closed seen (ms.map fun m => (.text m.1, m.2)) = .ok () from
    hwalk fields ms [] hfits (fun _ hf => hf) hnames (by simp)
  intro fs ms seen hfits
  induction hfits generalizing seen with
  | nil => exact fun _ _ _ => rfl
  | @cons f m fs ms hfit hrest ih =>
    intro hmem hnodup hseen
    obtain ⟨hname, hcheck⟩ := hfit
    obtain ⟨hf, hnodup⟩ := List.nodup_cons.1 hnodup
    have hnew : seen.contains m.1 = false := by
      rw [← hname]
      simpa using hseen f List.mem_cons_self
    have hfound : fields.find? (·.name == m.1) = some f := hname ▸ find?_name hnames (hmem f List.mem_cons_self)
    have hmore := ih (m.1 :: seen) (fun g hg => hmem g (List.mem_cons_of_mem _ hg)) hnodup (by
      intro g hg hmem
      rcases List.mem_cons.1 hmem with heq | hmem
      · exact hf (List.mem_map.2 ⟨g, hg, heq.trans hname.symm⟩)
      · exact hseen g (List.mem_cons_of_mem _ hg) hmem)
    rw [List.map_cons]
    unfold walk
    simp only [hfound, hnew, hcheck]
    exact hmore

/-- a record whose members are its fields is what is built from them -/
theorem record_record {fields : List Field} {closed : Bool} {build : Source → Except ReadError α}
    {ms : List (String × Json)} (hnames : (fields.map (·.name)).Nodup) (hfits : List.Forall₂ Fits fields ms)
    (hbuild : build (.named (ms.map fun m => (.text m.1, m.2))) = .ok a) :
    record fields closed build (.record ms) = .ok a := by
  change (walk fields closed [] (ms.map fun m => (.text m.1, m.2)) >>= fun _ => build _) = _
  rw [walk_record hnames hfits closed]
  exact hbuild

/-! ## What was read -/

theorem source_of_record {fields : List Field} {closed : Bool} {build : Source → Except ReadError α}
    (h : record fields closed build j = .ok a) : ∃ s, build s = .ok a := by
  unfold record at h
  split at h
  · obtain ⟨-, -, h⟩ := Except.bind_eq_ok.1 h
    exact ⟨_, h⟩
  · obtain ⟨b, hb, h⟩ := Except.bind_eq_ok.1 h
    split_ifs at h
    obtain rfl := Except.ok.inj h
    exact ⟨_, hb⟩
  · cases h

theorem read_of_required {s : Source} {i : Nat} {name : String} (h : s.required i name r = .ok a) : ∃ j, r j = .ok a := by
  unfold Source.required at h
  split at h <;> split at h <;> first | exact ⟨_, h⟩ | cases h

theorem read_of_option {o : Option α} (h : option r j = .ok o) : ∀ a ∈ o, r j = .ok a := by
  unfold option at h
  split at h
  · obtain rfl := Except.ok.inj h
    exact nofun
  · intro a ha
    cases hr : r j with
    | ok b =>
      rw [hr] at h
      obtain rfl := Except.ok.inj h
      exact congrArg Except.ok (Option.some.inj ha)
    | error e =>
      rw [hr] at h
      cases h

theorem read_of_optional {s : Source} {i : Nat} {name : String} {o : Option α} (h : s.optional i name r = .ok o) :
    ∀ a ∈ o, ∃ j, r j = .ok a := by
  intro a ha
  unfold Source.optional at h
  split at h <;> split at h
  · exact ⟨_, read_of_option h a ha⟩
  · obtain rfl := Except.ok.inj h
    cases ha
  · exact ⟨_, read_of_option h a ha⟩
  · cases h

theorem read_of_list {as : List α} (h : list r j = .ok as) : ∀ a ∈ as, ∃ i, r i = .ok a := by
  unfold list at h
  split at h
  · rename_i xs
    induction xs generalizing as with
    | nil =>
      obtain rfl := Except.ok.inj h
      simp
    | cons x xs ih =>
      obtain ⟨b, hb, h⟩ := Except.bind_eq_ok.1 h
      obtain ⟨bs, hbs, h⟩ := Except.bind_eq_ok.1 h
      obtain rfl := Except.ok.inj h
      intro a ha
      rcases List.mem_cons.1 ha with rfl | ha
      · exact ⟨x, hb⟩
      · exact ih hbs a ha
  · cases h

end Reader

end Brigade
