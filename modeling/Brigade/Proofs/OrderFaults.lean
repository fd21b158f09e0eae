/-
Orders that cannot be added up.

An order has its lines added up whenever they change, and when it is read. There is no room for every sum, and no refusal
for the lack of it: a granted operation that leaves lines without a sum is at fault.
- `faults_iff_overflow`: it is at fault exactly then, and so is the reading of an order. Everything else ends in an order or
  in a refusal, and a refusal changes nothing.
- `dear_twice`: two of the dearest dish are too many.

`Overflows` says where a sum breaks off. Along a run it is asked of sheets, which have no totals, so it is decided by the
operations alone.
-/
import Brigade.Proofs.DecimalRoom
import Brigade.Proofs.Readers

namespace Brigade

namespace Order

open Decimal

variable {o o' : Order} {op : Op} {ls : List OrderLine} {acc : Decimal}

/-! ## Sums that break off -/

/-- at some line, the lines before it added up to a sum: its price has no room, or the sum with its price has none -/
def OverflowsFrom (acc : Decimal) (ls : List OrderLine) : Prop :=
  ∃ pre l post sum, ls = pre ++ l :: post ∧ (addLines acc pre : Outcome OrderError Decimal) = .ok sum ∧
    (¬HasRoom (l.unitPrice.toRat * l.quantity.toInt) ∨
      ∃ price, (l.total : Outcome OrderError Decimal) = .ok price ∧ ¬HasRoom (sum.toRat + price.toRat))

/-- the lines cannot be added up -/
def Overflows (ls : List OrderLine) : Prop := OverflowsFrom Decimal.zero ls

theorem lineTotal_ok_iff {l : OrderLine} :
    (∃ price, (l.total : Outcome OrderError Decimal) = .ok price) ↔ HasRoom (l.unitPrice.toRat * l.quantity.toInt) := by
  unfold OrderLine.total
  rw [mul_ok_iff, toRat_ofInt32]

theorem addLines_append (pre post : List OrderLine) :
    (addLines acc (pre ++ post) : Outcome OrderError Decimal) = addLines acc pre >>= fun sum => addLines sum post := by
  induction pre generalizing acc with
  | nil => rfl
  | cons l pre ih => simp only [List.cons_append, addLines, bind_assoc, ih]

theorem OverflowsFrom.cons {l : OrderLine} {price acc' : Decimal}
    (hprice : (l.total : Outcome OrderError Decimal) = .ok price)
    (hsum : (acc.add price : Outcome OrderError Decimal) = .ok acc') (h : OverflowsFrom acc' ls) :
    OverflowsFrom acc (l :: ls) := by
  obtain ⟨pre, m, post, sum, rfl, hpre, hbreak⟩ := h
  refine ⟨l :: pre, m, post, sum, rfl, ?_, hbreak⟩
  rw [addLines, hprice, Outcome.ok_bind, hsum, Outcome.ok_bind]
  exact hpre

theorem addLines_ok_iff : (∃ d, (addLines acc ls : Outcome OrderError Decimal) = .ok d) ↔ ¬OverflowsFrom acc ls := by
  constructor
  · rintro ⟨d, hd⟩ ⟨pre, l, post, sum, rfl, hpre, hbreak⟩
    rw [addLines_append, hpre, Outcome.ok_bind, addLines] at hd
    obtain ⟨price, hprice, hd⟩ := Outcome.bind_eq_ok.1 hd
    obtain ⟨acc', hsum, -⟩ := Outcome.bind_eq_ok.1 hd
    rcases hbreak with hroom | ⟨price', hprice', hroom⟩
    · exact hroom (lineTotal_ok_iff.1 ⟨price, hprice⟩)
    · obtain rfl := Outcome.ok.inj (hprice.symm.trans hprice')
      exact hroom (add_ok_iff.1 ⟨acc', hsum⟩)
  · intro h
    induction ls generalizing acc with
    | nil => exact ⟨acc, rfl⟩
    | cons l ls ih =>
      have hprice : HasRoom (l.unitPrice.toRat * l.quantity.toInt) := by
        by_contra hroom
        exact h ⟨[], l, ls, acc, rfl, rfl, .inl hroom⟩
      obtain ⟨price, hprice⟩ := lineTotal_ok_iff.2 hprice
      have hsum : HasRoom (acc.toRat + price.toRat) := by
        by_contra hroom
        exact h ⟨[], l, ls, acc, rfl, rfl, .inr ⟨price, hprice, hroom⟩⟩
      obtain ⟨acc', hsum⟩ : ∃ acc', (acc.add price : Outcome OrderError Decimal) = .ok acc' := add_ok_iff.2 hsum
      obtain ⟨d, hd⟩ := ih fun hbreak => h (hbreak.cons hprice hsum)
      refine ⟨d, ?_⟩
      rw [addLines, hprice, Outcome.ok_bind, hsum, Outcome.ok_bind]
      exact hd

theorem totalOf_fault_iff : (∃ f, (totalOf ls : Outcome OrderError Decimal) = .fault f) ↔ Overflows ls := by
  have hok : (∃ d, (totalOf ls : Outcome OrderError Decimal) = .ok d) ↔ ¬Overflows ls := addLines_ok_iff
  rw [← not_iff_not, ← hok]
  cases h : (totalOf ls : Outcome OrderError Decimal) with
  | ok d => simp
  | refused e => exact absurd h (addLines_ne_refused ls _)
  | fault f => simp

/-! ## Operations -/

theorem rewritten_fault_iff {s : Sheet} : (∃ f, o.rewritten s = .fault f) ↔ Overflows s.lines := by
  rw [← totalOf_fault_iff]
  unfold rewritten
  cases (totalOf s.lines : Outcome OrderError Decimal) <;> simp

/-- **One operation.** It is at fault exactly if the sheet grants it and the lines it leaves cannot be added up. -/
theorem apply_fault_iff (h : o.AddedUp) :
    (∃ f, o.apply op = .fault f) ↔ ∃ s, o.sheet.apply op = .ok s ∧ Overflows s.lines := by
  rw [apply_eq_sheet h]
  cases hop : o.sheet.apply op with
  | ok s => simpa using rewritten_fault_iff
  | refused e => simp
  | fault f => exact absurd hop Sheet.apply_ne_fault

theorem step_fault_iff (h : o.AddedUp) :
    (∃ f, o.step op = .error f) ↔ ∃ s, o.sheet.apply op = .ok s ∧ Overflows s.lines := by
  rw [← apply_fault_iff h]
  unfold step
  cases o.apply op <;> simp [Outcome.settle]

/-- **A run.** It is at fault exactly if it comes to an operation that is granted and leaves lines without a sum. -/
theorem run_fault_iff (h : o.AddedUp) (ops : List Op) :
    (∃ f, o.run ops = .error f) ↔
      ∃ pre op post s, ops = pre ++ op :: post ∧ (o.sheet.run pre).apply op = .ok s ∧ Overflows s.lines := by
  induction ops generalizing o with
  | nil => simp [run, pure, Except.pure]
  | cons op ops ih =>
    have hcons : o.run (op :: ops) = o.step op >>= fun m => m.run ops := List.foldlM_cons
    rw [hcons]
    cases hstep : o.step op with
    | error f =>
      obtain ⟨s, hs, hbreak⟩ := (step_fault_iff h).1 ⟨f, hstep⟩
      exact iff_of_true ⟨f, rfl⟩ ⟨[], op, ops, s, rfl, hs, hbreak⟩
    | ok m =>
      obtain ⟨hm, hsheet⟩ := step_eq_sheet h hstep
      have hrun : ∀ pre, m.sheet.run pre = o.sheet.run (op :: pre) := by
        intro pre
        rw [hsheet]
        rfl
      refine (ih hm).trans ⟨?_, ?_⟩
      · rintro ⟨pre, op', post, s, rfl, hs, hbreak⟩
        exact ⟨op :: pre, op', post, s, rfl, hrun pre ▸ hs, hbreak⟩
      · rintro ⟨pre, op', post, s, hsplit, hs, hbreak⟩
        cases pre with
        | nil =>
          obtain ⟨rfl, rfl⟩ := List.cons.inj hsplit
          obtain ⟨f, hf⟩ := (step_fault_iff h).2 ⟨s, hs, hbreak⟩
          rw [hstep] at hf
          cases hf
        | cons first pre =>
          obtain ⟨rfl, rfl⟩ := List.cons.inj hsplit
          exact ⟨pre, op', post, s, rfl, (hrun pre).symm ▸ hs, hbreak⟩

/-! ## Reading -/

theorem read_eq (j : Json) : read j = stored j >>= fun o => Reader.ofOutcome OrderError.message (o.setLines o.lines) := rfl

open Reader in
theorem faultless_line (j : Json) : Faultless (OrderLine.read j) := by
  refine faultless_record (fun f hf j => ?_) (fun s => ?_) j
  · simp only [OrderLine.fields, List.mem_cons, List.not_mem_nil, or_false] at hf
    rcases hf with rfl | rfl | rfl | rfl | rfl
    · exact faultless_field faultless_id _ j
    · exact faultless_field faultless_id _ j
    · exact faultless_field faultless_int32 _ j
    · exact faultless_field faultless_decimal _ j
    · exact faultless_field (faultless_option faultless_string) _ j
  · refine faultless_bind (faultless_required faultless_id s _ _) fun _ => ?_
    refine faultless_bind (faultless_required faultless_id s _ _) fun _ => ?_
    refine faultless_bind (faultless_required faultless_int32 s _ _) fun _ => ?_
    refine faultless_bind (faultless_required faultless_decimal s _ _) fun _ => ?_
    exact faultless_bind (faultless_optional faultless_string s _ _) fun _ => faultless_ok _

open Reader in
/-- all that can go wrong with the parts of an order is a mistake in the text -/
theorem faultless_stored (j : Json) : Faultless (stored j) := by
  refine faultless_record (fun f hf j => ?_) (fun s => ?_) j
  · simp only [fields, List.mem_cons, List.not_mem_nil, or_false] at hf
    rcases hf with rfl | rfl | rfl | rfl | rfl | rfl | rfl | rfl | rfl
    · exact faultless_field faultless_id _ j
    · exact faultless_field faultless_string _ j
    · exact faultless_field faultless_id _ j
    · exact faultless_field faultless_time _ j
    · exact faultless_field (faultless_named _) _ j
    · exact faultless_field (faultless_list faultless_line) _ j
    · exact faultless_field faultless_decimal _ j
    · exact faultless_field (faultless_option faultless_string) _ j
    · exact faultless_field faultless_int32 _ j
  · refine faultless_bind (faultless_required faultless_id s _ _) fun _ => ?_
    refine faultless_bind (faultless_required faultless_string s _ _) fun _ => ?_
    refine faultless_bind (faultless_required faultless_id s _ _) fun _ => ?_
    refine faultless_bind (faultless_required faultless_time s _ _) fun _ => ?_
    refine faultless_bind (faultless_required (faultless_named _) s _ _) fun _ => ?_
    refine faultless_bind (faultless_required (faultless_list faultless_line) s _ _) fun _ => ?_
    refine faultless_bind (faultless_defaulted faultless_decimal s _ _ _) fun _ => ?_
    refine faultless_bind (faultless_optional faultless_string s _ _) fun _ => ?_
    exact faultless_bind (faultless_required faultless_int32 s _ _) fun _ => faultless_ok _

theorem read_fault_iff {j : Json} :
    (∃ f, read j = .error (.fault f)) ↔ ∃ o, stored j = .ok o ∧ Overflows o.lines := by
  rw [read_eq]
  cases hstored : stored j with
  | error e =>
    constructor
    · rintro ⟨f, hf⟩
      obtain rfl := Except.error.inj hf
      exact absurd hstored (faultless_stored j f)
    · rintro ⟨o, ho, -⟩
      cases ho
  | ok o =>
    have hsum : (∃ f, Reader.ofOutcome OrderError.message (o.setLines o.lines) = .error (.fault f)) ↔ Overflows o.lines := by
      rw [setLines_eq_rewritten, ← rewritten_fault_iff (o := o) (s := { o.sheet with lines := o.lines })]
      cases o.rewritten { o.sheet with lines := o.lines } <;> simp [Reader.ofOutcome]
    refine hsum.trans ⟨fun h => ⟨o, rfl, h⟩, ?_⟩
    rintro ⟨o', ho', h⟩
    obtain rfl := Except.ok.inj ho'
    exact h

/-! ## Everything that is asked of an order -/

/-- **Faults are sums without room.** Along every run from a new order or one that was read, a fault comes exactly from an
operation that is granted and leaves lines that cannot be added up; every other answer is an order or a refusal, and a
refusal changes nothing. Reading a text is at fault exactly if it holds an order whose lines cannot be added up. -/
theorem faults_iff_overflow (o : Order) (ho : o.Starts) (ops : List Op) (text : String) :
    ((∃ f, o.run ops = .error f) ↔
      ∃ pre op post s, ops = pre ++ op :: post ∧ (o.sheet.run pre).apply op = .ok s ∧ Overflows s.lines) ∧
    (∀ o', o.run ops = .ok o' → ∀ op,
      ((∃ f, o'.apply op = .fault f) ↔ ∃ s, o'.sheet.apply op = .ok s ∧ Overflows s.lines) ∧
      ∀ e, o'.apply op = .refused e → o'.step op = .ok o') ∧
    ((∃ f, Reader.ofText read text = .error (.fault f)) ↔
      ∃ o, stored (Json.scan text.toList).1 = .ok o ∧ Overflows o.lines) := by
  refine ⟨run_fault_iff ho.addedUp ops, fun o' ho' op => ⟨?_, fun e he => ?_⟩, ?_⟩
  · exact apply_fault_iff (run_eq_sheet ho.addedUp ho').1
  · unfold step
    rw [he]
    rfl
  · simp only [Reader.ofText_eq_fault, read_fault_iff]

/-- the greatest decimal -/
def dearest : Decimal := ⟨false, two96 - 1, 0, by decide, zero.scale_le⟩

/-- an order for the second table, without lines -/
def bareOrder : Order := ⟨.ofNat 1, "ORD-1", .ofNat 2, .epoch, .pending, [], Decimal.zero, none, 1⟩

/-- two of the dearest dish -/
def dearLine : OrderLine := ⟨.ofNat 7, .ofNat 8, 2, dearest, none⟩

/-- the same order as a text, with that line -/
def dearText : String := String.join
  ["[\"00000000-0000-0000-0000-000000000001\", ", "\"ORD-1\", ", "\"00000000-0000-0000-0000-000000000002\", ",
    "\"1970-01-01T00:00:00Z\", ", "\"Pending\", [[", "\"00000000-0000-0000-0000-000000000007\", ",
    "\"00000000-0000-0000-0000-000000000008\", ", "2, \"79228162514264337593543950335\", null]], ", "\"0\", null, 1]"]

/-- neither can the line be added, nor can an order that has it be read -/
theorem faults_iff_overflow_dearTwice :
    create (.ofNat 1) "ORD-1" (.ofNat 2) .epoch none = .ok bareOrder ∧
    (∃ f, bareOrder.run [.addLine (.ofNat 7) (.ofNat 8) 2 dearest none] = .error f) ∧
    ∃ f, Reader.ofText read dearText = .error (.fault f) := by
  have hnew : create (.ofNat 1) "ORD-1" (.ofNat 2) .epoch none = .ok bareOrder := by decide +kernel
  have hroom : ¬HasRoom (dearest.toRat * (2 : Int32).toInt) := by
    have hvalue : dearest.toRat * (2 : Int32).toInt = 158456325028528675187087900670 := by
      have htwo : (2 : Int32).toInt = 2 := rfl
      rw [htwo]
      norm_num [toRat, dearest, coeff, tenPow]
    rw [hvalue]
    norm_num [HasRoom]
  have hbreak : Overflows [dearLine] := ⟨[], _, [], _, rfl, rfl, .inl hroom⟩
  have hstored : stored (Json.scan dearText.toList).1 = .ok { bareOrder with lines := [dearLine] } :=
    (congrArg (fun cs => stored (Json.scan cs).1) String.toList_join).trans (by decide +kernel)
  obtain ⟨hrun, -, hread⟩ := faults_iff_overflow bareOrder (.inl ⟨_, _, _, _, _, hnew⟩)
    [.addLine (.ofNat 7) (.ofNat 8) 2 dearest none] dearText
  refine ⟨hnew, hrun.2 ?_, hread.2 ⟨_, hstored, hbreak⟩⟩
  exact ⟨[], _, [], { bareOrder.sheet with lines := [dearLine] }, rfl, by decide +kernel, hbreak⟩

/-- two of the dearest dish are neither added nor refused -/
theorem dear_twice :
    ∃ o, create (.ofNat 1) "ORD-1" (.ofNat 2) .epoch none = .ok o ∧
      o.apply (.addLine (.ofNat 7) (.ofNat 8) 2 dearest none) = .fault .decimalProductTooLarge :=
  ⟨_, rfl, by decide +kernel⟩

end Order

end Brigade
