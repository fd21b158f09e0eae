/-
Readers that read what another one reads, and refuse some of it.

A reader whose type has rules of its own reads a value and then looks for a flaw in it. Where such a reader is used for a
part of something, its flaw is met before mistakes that stand later in the text, so the two steps do not come apart. What
holds is `Sifts`: whatever the reader without the rules reads, the other one reads as well, or refuses for its flaw; and
it reads nothing else.
- `Sifts.list`, `Sifts.record`: this goes over to lists, and to records with a field that is read in one way or the other.
- `Sifts.ofText`: and to texts.
-/
import Brigade.Proofs.ReadBack

namespace Brigade.Reader

variable {α β γ : Type}

/-- a value without a flaw, or its flaw -/
def sift (flaw : α → Option ReadError) (a : α) : Except ReadError α :=
  match flaw a with
  | none => .ok a
  | some e => .error e

/-- `r'` reads what `r` reads if it has no flaw, and else refuses it for the flaw -/
structure Sifts (flaw : α → Option ReadError) (r r' : β → Except ReadError α) : Prop where
  reads : ∀ {x a}, r' x = .ok a → r x = .ok a
  sifts : ∀ {x a}, r x = .ok a → r' x = sift flaw a

variable {flaw : α → Option ReadError} {flaw' : γ → Option ReadError} {a : α} {e : ReadError}

theorem sift_of_none (h : flaw a = none) : sift flaw a = .ok a := by
  rw [sift, h]

theorem sift_of_some (h : flaw a = some e) : sift flaw a = .error e := by
  rw [sift, h]

namespace Sifts

theorem of_sift (r : β → Except ReadError α) : Sifts flaw r fun x => r x >>= sift flaw where
  reads h := by
    obtain ⟨a, ha, h⟩ := Except.bind_eq_ok.1 h
    rw [sift] at h
    split at h
    · rwa [← Except.ok.inj h]
    · cases h
  sifts h := by
    rw [h]
    rfl

theorem eq_ok {r r' : β → Except ReadError α} {x : β} (h : Sifts flaw r r') :
    r' x = .ok a ↔ r x = .ok a ∧ flaw a = none := by
  refine ⟨fun ha => ⟨h.reads ha, ?_⟩, fun ⟨ha, hf⟩ => (h.sifts ha).trans (sift_of_none hf)⟩
  cases hf : flaw a with
  | none => rfl
  | some e =>
    rw [h.sifts (h.reads ha), sift_of_some hf] at ha
    cases ha

/-! ## Steps -/

/-- a step before is taken either way -/
theorem after {δ : Type} (first : β → Except ReadError δ) {k k' : δ → β → Except ReadError γ}
    (h : ∀ d, Sifts flaw' (k d) (k' d)) : Sifts flaw' (fun x => first x >>= (k · x)) fun x => first x >>= (k' · x) where
  reads hc := by
    obtain ⟨d, hd, hc⟩ := Except.bind_eq_ok.1 hc
    exact Except.bind_eq_ok.2 ⟨d, hd, (h d).reads hc⟩
  sifts hc := by
    obtain ⟨d, hd, hc⟩ := Except.bind_eq_ok.1 hc
    rw [hd]
    exact (h d).sifts hc

/-- the flaw of a result is that of the value it was made of -/
theorem before {r r' : β → Except ReadError α} {k : α → β → Except ReadError γ} (h : Sifts flaw r r')
    (hk : ∀ a x c, k a x = .ok c → flaw' c = flaw a) :
    Sifts flaw' (fun x => r x >>= (k · x)) fun x => r' x >>= (k · x) where
  reads hc := by
    obtain ⟨a, ha, hc⟩ := Except.bind_eq_ok.1 hc
    exact Except.bind_eq_ok.2 ⟨a, h.reads ha, hc⟩
  sifts hc := by
    obtain ⟨a, ha, hc⟩ := Except.bind_eq_ok.1 hc
    rw [h.sifts ha]
    have hflaw := hk a _ _ hc
    cases hf : flaw a with
    | none =>
      rw [sift_of_none hf, sift_of_none (hflaw.trans hf)]
      exact hc
    | some e =>
      rw [sift_of_some hf, sift_of_some (hflaw.trans hf)]
      rfl

theorem required {r r' : Reader α} (h : Sifts flaw r r') (i : Nat) (name : String) :
    Sifts flaw (fun s : Source => s.required i name r) fun s => s.required i name r' where
  reads {s a} ha := by
    unfold Source.required at ha ⊢
    split at ha <;> split at ha <;> first | exact h.reads ha | cases ha
  sifts {s a} ha := by
    unfold Source.required at ha ⊢
    split at ha <;> split at ha <;> first | exact h.sifts ha | cases ha

/-! ## Lists -/

theorem all {r r' : Reader α} (h : Sifts flaw r r') : Sifts (List.findSome? flaw) (all r) (all r') where
  reads {js as} has := by
    induction js generalizing as with
    | nil => exact has
    | cons j js ih =>
      obtain ⟨a, ha, has⟩ := Except.bind_eq_ok.1 has
      obtain ⟨bs, hbs, has⟩ := Except.bind_eq_ok.1 has
      exact Except.bind_eq_ok.2 ⟨a, h.reads ha, Except.bind_eq_ok.2 ⟨bs, ih hbs, has⟩⟩
  sifts {js as} has := by
    induction js generalizing as with
    | nil =>
      obtain rfl := Except.ok.inj has
      rfl
    | cons j js ih =>
      obtain ⟨a, ha, has⟩ := Except.bind_eq_ok.1 has
      obtain ⟨bs, hbs, has⟩ := Except.bind_eq_ok.1 has
      obtain rfl := Except.ok.inj has
      -- the flaw of the first element is met first
      rw [Reader.all, h.sifts ha, ih hbs, sift, sift, sift, List.findSome?_cons]
      cases flaw a with
      | some e => rfl
      | none => cases bs.findSome? flaw <;> rfl

theorem list {r r' : Reader α} (h : Sifts flaw r r') : Sifts (List.findSome? flaw) (list r) (list r') where
  reads {j as} has := by
    unfold Reader.list at has ⊢
    split at has
    · exact h.all.reads has
    · cases has
  sifts {j as} has := by
    unfold Reader.list at has ⊢
    split at has
    · exact h.all.sifts has
    · cases has

end Sifts

/-! ## Records -/

section Records

variable {r r' : Reader α} {pre post : List Field} {name : String} {closed : Bool}

/-- of two rows of fields that differ in how one field is read, a name finds the same field or that one -/
theorem find?_swapped (r r' : Reader α) (post : List Field) (hpre : ∀ f ∈ pre, f.name ≠ name) (m : String) :
    m = name ∧ (pre ++ field name r :: post).find? (·.name == m) = some (field name r) ∧
        (pre ++ field name r' :: post).find? (·.name == m) = some (field name r') ∨
      m ≠ name ∧ (pre ++ field name r' :: post).find? (·.name == m) =
        (pre ++ field name r :: post).find? (·.name == m) := by
  by_cases hm : m = name
  · subst hm
    have hnone : pre.find? (·.name == m) = none := by
      rw [List.find?_eq_none]
      exact fun f hf => by simpa using hpre f hf
    exact .inl ⟨rfl, by simp [hnone, field], by simp [hnone, field]⟩
  · exact .inr ⟨hm, by simp [field, Ne.symm hm]⟩

/-- an object that passes with the field read one way, and what it comes to with the field read the other way: the member
of the field decides, the first of its name -/
theorem walk_swapped (hpre : ∀ f ∈ pre, f.name ≠ name) {seen : List String} {ms : List (Json × Json)}
    (h : walk (pre ++ field name r :: post) closed seen ms = .ok ()) :
    walk (pre ++ field name r' :: post) closed seen ms =
      if name ∈ seen then .ok ()
      else match Json.find? name ms with
        | some j => (r' j).map fun _ => ()
        | none => .ok () := by
  generalize hfields : pre ++ field name r :: post = fields at h
  fun_induction walk fields closed seen ms with
  | case1 => simp [walk, Json.find?]
  | case3 seen m v ms f hf hseen ih =>
    subst hfields
    obtain ⟨⟨⟩, hcheck, hrest⟩ := Except.bind_eq_ok.1 h
    have ih := ih hrest
    unfold walk Json.find?
    rcases find?_swapped r r' post hpre m with ⟨rfl, -, hr'⟩ | ⟨hne, hsame⟩
    · -- the member of the field: what follows it has no other one
      have hnew : m ∉ seen := by simpa using hseen
      rw [if_pos List.mem_cons_self] at ih
      simp only [hr', hseen, ih, hnew, if_true, if_false]
      simp only [field]
      cases r' v <;> rfl
    · simp only [hsame, hf, hseen, hcheck, ok_bind, ih, if_neg hne, List.mem_cons, Ne.symm hne, false_or]
      rfl
  | case5 seen m v ms hf hclosed hsound ih =>
    subst hfields
    rcases find?_swapped r r' post hpre m with ⟨rfl, hr, -⟩ | ⟨hne, hsame⟩
    · rw [hf] at hr
      cases hr
    · obtain rfl : closed = false := by simpa using hclosed
      unfold walk Json.find?
      simp only [hsame, hf, hsound, if_true, if_neg hne, Bool.false_eq_true, if_false, ih h]
  | _ => cases h

theorem find?_of_required {ms : List (Json × Json)} {i : Nat} (h : Source.required (.named ms) i name r = .ok a) :
    ∃ j, Json.find? name ms = some j ∧ r j = .ok a := by
  simp only [Source.required] at h
  split at h
  · exact ⟨_, ‹_›, h⟩
  · cases h

/-- a record is sifted for the flaw of one of its fields -/
theorem Sifts.record (pre post : List Field) {build build' : Source → Except ReadError γ} {i : Nat}
    (h : Sifts flaw r r') (hpre : ∀ f ∈ pre, f.name ≠ name) (hbuild : Sifts flaw' build build')
    (hflaw : ∀ s c, build s = .ok c → ∃ a, s.required i name r = .ok a ∧ flaw' c = flaw a) :
    Sifts flaw' (record (pre ++ field name r :: post) closed build)
      (record (pre ++ field name r' :: post) closed build') where
  reads {j c} hc := by
    unfold Reader.record at hc ⊢
    split at hc
    · rename_i ms
      obtain ⟨⟨⟩, hwalk, hc⟩ := Except.bind_eq_ok.1 hc
      have hb := hbuild.reads hc
      obtain ⟨a, ha, -⟩ := hflaw _ _ hb
      obtain ⟨v, hv, hva⟩ := find?_of_required ha
      refine Except.bind_eq_ok.2 ⟨(), ?_, hb⟩
      simp [walk_swapped hpre hwalk, hv, hva, Except.map]
    · obtain ⟨c', hc', hc⟩ := Except.bind_eq_ok.1 hc
      refine Except.bind_eq_ok.2 ⟨c', hbuild.reads hc', ?_⟩
      simpa using hc
    · cases hc
  sifts {j c} hc := by
    unfold Reader.record at hc ⊢
    split at hc
    · rename_i ms
      obtain ⟨⟨⟩, hwalk, hc⟩ := Except.bind_eq_ok.1 hc
      obtain ⟨a, ha, hca⟩ := hflaw _ _ hc
      obtain ⟨v, hv, hva⟩ := find?_of_required ha
      have hwalk' : walk (pre ++ field name r' :: post) closed [] ms = (sift flaw a).map fun _ => () := by
        simp [walk_swapped hpre hwalk, hv, h.sifts hva]
      rw [hwalk', hbuild.sifts hc, sift, sift, hca]
      cases flaw a <;> rfl
    · obtain ⟨c', hc', hc⟩ := Except.bind_eq_ok.1 hc
      split_ifs at hc with hlength
      obtain rfl := Except.ok.inj hc
      have hlength' : (pre ++ field name r :: post).length = (pre ++ field name r' :: post).length := by simp
      rw [hbuild.sifts hc', sift]
      cases flaw' c' with
      | none => exact if_pos (hlength' ▸ hlength)
      | some e => rfl
    · cases hc

end Records

/-! ## Texts -/

/-- **Sifted texts.** A text is read if the other reader reads it and there is no flaw; if it reads a value with a flaw,
the text is refused for the flaw. -/
theorem Sifts.ofText {r r' : Reader α} (h : Sifts flaw r r') (text : String) :
    (Reader.ofText r' text = .ok a ↔ Reader.ofText r text = .ok a ∧ flaw a = none) ∧
      ∀ e, Reader.ofText r text = .ok a → flaw a = some e → Reader.ofText r' text = .error e := by
  refine ⟨?_, fun e ha he => ?_⟩
  · rw [ofText_eq_ok, ofText_eq_ok]
    constructor
    · rintro ⟨j, hj, hr⟩
      exact ⟨⟨j, hj, (h.eq_ok.1 hr).1⟩, (h.eq_ok.1 hr).2⟩
    · rintro ⟨⟨j, hj, hr⟩, hf⟩
      exact ⟨j, hj, h.eq_ok.2 ⟨hr, hf⟩⟩
  · unfold Reader.ofText at ha ⊢
    generalize Json.scan text.toList = scanned at ha ⊢
    obtain ⟨j, rest⟩ := scanned
    obtain ⟨b, hb, hrest⟩ := Except.bind_eq_ok.1 ha
    have hab : b = a := by
      cases rest with
      | none => cases hrest
      | some cs =>
        simp only at hrest
        split_ifs at hrest
        exact Except.ok.inj hrest
    simp only [h.sifts hb, hab, sift_of_some he]
    rfl

end Brigade.Reader
