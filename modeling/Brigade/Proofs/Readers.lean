/-
What readers do whatever they read.

- A text is read as a value exactly if it holds one tree that is (`ofText_eq_ok`).
- A reader put together from the plain ones is never at fault (`Faultless`): it gives a value or names a mistake. Faults
  come from arithmetic that a type does on what was read.
-/
import Brigade.Json.Read
import Brigade.Proofs.OrderSheet

namespace Brigade.Reader

variable {α β : Type}

/-! ## Texts -/

/-- a text is read as a value exactly if it is one tree that is read as the value -/
theorem ofText_eq_ok {r : Reader α} {text : String} {a : α} :
    ofText r text = .ok a ↔ ∃ j, Json.parse text = some j ∧ r j = .ok a := by
  unfold ofText Json.parse
  obtain ⟨j, rest⟩ := Json.scan text.toList
  cases rest with
  | none =>
    constructor
    · intro h
      obtain ⟨b, -, h⟩ := Except.bind_eq_ok.1 h
      cases h
    · rintro ⟨i, h, -⟩
      cases h
  | some cs =>
    simp only [Except.bind_eq_ok]
    by_cases hcs : (Json.Scan.skip cs).isEmpty = true
    · simp [hcs]
    · simp [hcs]

/-- a value under rules of its own is read if the rules grant it -/
theorem ofOutcome_eq_ok {ε : Type} {message : ε → String} {x : Outcome ε α} {a : α} :
    ofOutcome message x = .ok a ↔ x = .ok a := by
  cases x with
  | ok b => exact ⟨fun h => congrArg Outcome.ok (Except.ok.inj h), fun h => congrArg Except.ok (Outcome.ok.inj h)⟩
  | refused e => exact iff_of_false (fun h => by cases h) fun h => by cases h
  | fault f => exact iff_of_false (fun h => by cases h) fun h => by cases h

/-! ## No faults -/

/-- a value or a mistake, and no fault -/
def Faultless (x : Except ReadError α) : Prop := ∀ f, x ≠ .error (.fault f)

theorem faultless_ok (a : α) : Faultless (.ok a : Except ReadError α) := fun f h => by cases h

/-- before steps without faults, a fault comes from the first step -/
theorem bind_eq_fault {x : Except ReadError α} {k : α → Except ReadError β} {f : Fault} (hk : ∀ a, Faultless (k a)) :
    (x >>= k) = .error (.fault f) ↔ x = .error (.fault f) := by
  cases x with
  | ok a => exact iff_of_false (hk a f) fun h => by cases h
  | error e => exact ⟨fun h => congrArg Except.error (Except.error.inj h), fun h => by rw [h]; rfl⟩

theorem faultless_bind {x : Except ReadError α} {k : α → Except ReadError β} (hx : Faultless x)
    (hk : ∀ a, Faultless (k a)) : Faultless (x >>= k) :=
  fun f h => hx f ((bind_eq_fault hk).1 h)

/-- a fault is met before what follows the value -/
theorem ofText_eq_fault {r : Reader α} {text : String} {f : Fault} :
    ofText r text = .error (.fault f) ↔ r (Json.scan text.toList).1 = .error (.fault f) := by
  unfold ofText
  obtain ⟨j, rest⟩ := Json.scan text.toList
  refine bind_eq_fault fun a g h => ?_
  cases rest with
  | none => cases h
  | some cs =>
    simp only at h
    split_ifs at h
    cases h

theorem faultless_map {x : Except ReadError α} (g : α → β) (hx : Faultless x) : Faultless (x.map g) := by
  intro f h
  cases hx' : x with
  | ok a => rw [hx'] at h; cases h
  | error e =>
    rw [hx'] at h
    cases h
    exact hx f hx'

theorem faultless_mismatch (j : Json) : Faultless (.error (mismatch j) : Except ReadError α) := by
  intro f h
  have hmismatch := Except.error.inj h
  unfold mismatch at hmismatch
  split at hmismatch
  · cases hmismatch
  · cases hmismatch
  · split at hmismatch <;> cases hmismatch
  · cases hmismatch

theorem faultless_string (j : Json) : Faultless (string j) := by
  unfold string
  split
  · exact faultless_ok _
  · exact faultless_mismatch _

theorem faultless_whole (lo hi : Int) (j : Json) : Faultless (whole lo hi j) := by
  unfold whole
  split
  · intro f h
    split at h
    · split_ifs at h
      cases h
    · cases h
    · cases h
  · exact faultless_mismatch _

theorem faultless_int32 (j : Json) : Faultless (int32 j) := by
  refine faultless_bind (faultless_whole _ _ j) fun i => ?_
  intro f h
  split at h <;> cases h

theorem faultless_orInvalid (a : Option α) : Faultless (orInvalid a) := by
  intro f h
  cases a <;> cases h

theorem faultless_decimal (j : Json) : Faultless (decimal j) := by
  unfold decimal
  split
  · exact faultless_orInvalid _
  · split
    · exact faultless_orInvalid _
    · exact faultless_orInvalid _
    · intro f h
      cases h
  · exact faultless_mismatch _

theorem faultless_id (j : Json) : Faultless (id j) := by
  unfold id
  split
  · intro f h
    split at h <;> cases h
  · exact faultless_mismatch _

theorem faultless_time (j : Json) : Faultless (time j) := by
  unfold time
  split
  · intro f h
    split at h <;> cases h
  · exact faultless_mismatch _

section Parts

variable {r : Reader α} (hr : ∀ j, Faultless (r j))

include hr

theorem faultless_option (j : Json) : Faultless (option r j) := by
  unfold option
  split
  · exact faultless_ok _
  · exact faultless_map _ (hr j)

theorem faultless_all (js : List Json) : Faultless (all r js) := by
  induction js with
  | nil => exact faultless_ok _
  | cons j js ih => exact faultless_bind (hr j) fun a => faultless_bind ih fun as => faultless_ok _

theorem faultless_list (j : Json) : Faultless (list r j) := by
  unfold list
  split
  · exact faultless_all hr _
  · exact faultless_mismatch _

theorem faultless_field (name : String) (j : Json) : Faultless ((field name r).check j) := faultless_map _ (hr j)

theorem faultless_required (s : Source) (i : Nat) (name : String) : Faultless (s.required i name r) := by
  unfold Source.required
  split <;> split <;> first | exact hr _ | (intro f h; cases h)

theorem faultless_optional (s : Source) (i : Nat) (name : String) : Faultless (s.optional i name r) := by
  unfold Source.optional
  split <;> split <;> first | exact faultless_option hr _ | (intro f h; cases h)

theorem faultless_defaulted (s : Source) (i : Nat) (name : String) (d : α) : Faultless (s.defaulted i name r d) := by
  unfold Source.defaulted
  split <;> split <;> first | exact hr _ | exact faultless_ok _

end Parts

theorem faultless_walk {fields : List Field} (hfields : ∀ f ∈ fields, ∀ j, Faultless (f.check j)) (closed : Bool)
    (seen : List String) (ms : List (Json × Json)) : Faultless (walk fields closed seen ms) := by
  fun_induction walk fields closed seen ms with
  | case1 => exact faultless_ok _
  | case3 seen name v ms f hf hseen ih => exact faultless_bind (hfields f (List.mem_of_find?_eq_some hf) v) fun _ => ih
  | case5 seen name v ms hf hclosed hsound ih => exact ih
  | _ =>
    intro f h
    cases h

theorem faultless_record {fields : List Field} (hfields : ∀ f ∈ fields, ∀ j, Faultless (f.check j)) {closed : Bool}
    {build : Source → Except ReadError α} (hbuild : ∀ s, Faultless (build s)) (j : Json) :
    Faultless (record fields closed build j) := by
  unfold record
  split
  · exact faultless_bind (faultless_walk hfields closed [] _) fun _ => hbuild _
  · refine faultless_bind (hbuild _) fun a => ?_
    intro f h
    split_ifs at h
    cases h
  · exact faultless_mismatch _

theorem variantNamed_of_names (vs : List (String × α)) (name : String) :
    variantNamed (vs.map fun v => (v.1, .nothing v.2)) name =
      match vs.lookup name with
      | some a => .ok (.nothing a)
      | none => .error (.unknownVariant name (vs.map (·.1))) := by
  have hlookup : (vs.map fun v => (v.1, Content.nothing v.2)).lookup name = (vs.lookup name).map Content.nothing := by
    induction vs with
    | nil => rfl
    | cons v vs ih =>
      obtain ⟨known, a⟩ := v
      simp only [List.map_cons, List.lookup_cons, ih]
      cases name == known <;> rfl
  unfold variantNamed
  rw [hlookup, List.map_map]
  cases vs.lookup name <;> rfl

theorem faultless_named (vs : List (String × α)) (j : Json) : Faultless (named vs j) := by
  have hname : ∀ (name : String) (k : Content α → Except ReadError α), (∀ a, Faultless (k (.nothing a))) →
      Faultless (variantNamed (vs.map fun v => (v.1, .nothing v.2)) name >>= k) := by
    intro name k hk
    rw [variantNamed_of_names]
    split
    · exact hk _
    · intro f h
      cases h
  unfold named variant
  split
  · exact hname _ _ fun a => faultless_ok a
  · refine hname _ _ fun a => faultless_bind ?_ fun b => ?_
    · unfold Content.read
      split
      · exact faultless_ok _
      · exact faultless_mismatch _
      · contradiction
    · intro f h
      split_ifs at h
      cases h
  · exact faultless_mismatch _
  · intro f h
    cases h

end Brigade.Reader
