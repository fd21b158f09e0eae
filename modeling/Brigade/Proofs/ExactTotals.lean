/-
Totals without rounding.

A sum of positive lines only grows. So if the whole of it, written with as many places as any unit price has, is small
enough for a decimal (`Fits`), then the price of every line is too, and the sum of every first part of the lines; there is
room for each of these as it is, and nothing is rounded on the way.
- `exact_total`: in that range the total is what the lines are worth (`worth`), to the last place of the prices, in whatever
  order they are. A line that is added and taken away again leaves the order as it was.

A product keeps the places of the price and a sum takes the larger number of places; both are exact when they fit
(`mul_exact`, `add_exact`).
-/
import Brigade.Proofs.OrderFaults
import Brigade.Proofs.PositivePrices

namespace Brigade

namespace Decimal

variable {ε : Type} {a b d e : Decimal}

/-! ## Exact products and sums -/

theorem toRat_pos_iff : 0 < d.toRat ↔ d.Positive := by
  have hpow : (0 : ℚ) < tenPow d.scale := by exact_mod_cast tenPow_pos d.scale
  rw [toRat, div_pos_iff_of_pos_right hpow, Int.cast_pos, Positive]

theorem isZero_of_positive (h : d.Positive) : d.isZero = false := by
  unfold Positive at h
  have hsize := natAbs_coeff d
  simp only [isZero, beq_eq_false_iff_ne]
  omega

/-- the coefficient is the number in units of the last place -/
theorem toRat_mul_tenPow (d : Decimal) : d.toRat * tenPow d.scale = d.coeff := by
  rw [toRat, div_mul_cancel₀ _ (tenPow_ne_zero d.scale)]

/-- a decimal is told by its number, its places and its sign -/
theorem eq_of_toRat (hvalue : d.toRat = e.toRat) (hscale : d.scale = e.scale) (hsign : d.negative = e.negative) :
    d = e := by
  have hcoeff : d.coeff = e.coeff := by
    have h : (d.coeff : ℚ) = e.coeff := by rw [← toRat_mul_tenPow, ← toRat_mul_tenPow, hvalue, hscale]
    exact_mod_cast h
  have hsize : d.size = e.size := by rw [← natAbs_coeff, ← natAbs_coeff, hcoeff]
  cases d
  cases e
  simp_all

/-- there is room for a positive number in units of a place -/
theorem exists_ofParts {c : Int} {s : Nat} (hpos : 0 < c) (hfits : c < two96) (hs : s ≤ 28) :
    ∃ d, ofParts? c s = some d ∧ d.toRat = (c : ℚ) / tenPow s ∧ d.scale = s ∧ d.negative = false := by
  have hsome : (ofParts? c s).isSome := ofParts?_isSome.2 ⟨by omega, hs⟩
  obtain ⟨d, hd⟩ := Option.isSome_iff_exists.1 hsome
  obtain ⟨hcoeff, hscale⟩ := coeff_scale_of_ofParts? hd
  refine ⟨d, hd, by rw [toRat, hcoeff, hscale], hscale, ?_⟩
  unfold coeff at hcoeff
  split at hcoeff
  · omega
  · rename_i hsign
    simpa using hsign

theorem lt_two96_of_cast {c : Int} {x : ℚ} (hc : (c : ℚ) = x) (h : x < two96) : c < two96 := by
  rw [← hc] at h
  exact_mod_cast h

/-- a price times a quantity keeps its places, if it fits -/
theorem mul_exact {q : Int32} (ha : a.Positive) (hq : 0 < q.toInt) (h : a.toRat * q.toInt * tenPow a.scale < two96) :
    ∃ d, (a.mul (ofInt32 q) : Outcome ε Decimal) = .ok d ∧ d.toRat = a.toRat * q.toInt ∧ d.scale = a.scale ∧
      d.negative = false := by
  have hq' : (ofInt32 q).toRat = q.toInt := toRat_ofInt32 q
  have hqpos : (ofInt32 q).Positive := by
    rw [← toRat_pos_iff, hq']
    exact_mod_cast hq
  have hscale : (ofInt32 q).scale = 0 := rfl
  have hcoeff : ((a.coeff * (ofInt32 q).coeff : ℤ) : ℚ) = a.toRat * q.toInt * tenPow a.scale := by
    have hunit := toRat_mul_tenPow (ofInt32 q)
    rw [hscale, tenPow_zero, Nat.cast_one, mul_one, hq'] at hunit
    rw [Int.cast_mul, ← hunit, ← toRat_mul_tenPow a]
    ring
  obtain ⟨d, hd, hvalue, hplaces, hsign⟩ := exists_ofParts (s := a.scale + (ofInt32 q).scale) (Int.mul_pos ha hqpos)
    (lt_two96_of_cast hcoeff h) a.scale_le
  refine ⟨d, mul_of_room (isZero_of_positive ha) (isZero_of_positive hqpos) hd, ?_, hplaces, hsign⟩
  rw [hvalue, hcoeff, hscale, Nat.add_zero, mul_div_cancel_right₀ _ (tenPow_ne_zero a.scale)]

/-- a sum takes the larger number of places, if it fits -/
theorem add_exact (ha : a.Positive) (hb : b.Positive)
    (h : (a.toRat + b.toRat) * tenPow (max a.scale b.scale) < two96) :
    ∃ d, (a.add b : Outcome ε Decimal) = .ok d ∧ d.toRat = a.toRat + b.toRat ∧ d.scale = max a.scale b.scale ∧
      d.negative = false := by
  set s := max a.scale b.scale with hs
  have hcoeff : ((a.coeffAt s + b.coeffAt s : ℤ) : ℚ) = (a.toRat + b.toRat) * tenPow s := by
    rw [← coeffAt_div (le_max_left a.scale b.scale), ← coeffAt_div (le_max_right a.scale b.scale), ← hs, ← add_div,
      div_mul_cancel₀ _ (tenPow_ne_zero s), Int.cast_add]
  have hpos : 0 < a.coeffAt s + b.coeffAt s := by
    have hpow : ∀ n, (0 : ℤ) < tenPow n := fun n => by exact_mod_cast tenPow_pos n
    exact Int.add_pos (Int.mul_pos ha (hpow _)) (Int.mul_pos hb (hpow _))
  obtain ⟨d, hd, hvalue, hplaces, hsign⟩ :=
    exists_ofParts hpos (lt_two96_of_cast hcoeff h) (max_le a.scale_le b.scale_le)
  refine ⟨d, add_of_room (isZero_of_positive ha) (isZero_of_positive hb) hd, ?_, hplaces, hsign⟩
  rw [hvalue, hcoeff, mul_div_cancel_right₀ _ (tenPow_ne_zero s)]

end Decimal

/-- what a line costs, exactly -/
def OrderLine.worth (l : OrderLine) : ℚ := l.unitPrice.toRat * l.quantity.toInt

theorem OrderLine.Positive.worth_pos {l : OrderLine} (h : l.Positive) : 0 < l.worth := by
  have hquantity : (0 : ℚ) < l.quantity.toInt := by exact_mod_cast h.1
  exact mul_pos (Decimal.toRat_pos_iff.2 h.2) hquantity

/-- a positive line may go on an order -/
theorem OrderLine.make_of_positive {l : OrderLine} (h : l.Positive) :
    make l.id l.menuItem l.quantity l.unitPrice l.instructions = .ok l := by
  obtain ⟨hquantity, hprice⟩ := h
  have hzero : (0 : Int32).toInt = 0 := rfl
  have hq : ¬l.quantity ≤ 0 := by
    rw [Int32.le_iff_toInt_le]
    omega
  have hp : ¬l.unitPrice.coeff ≤ 0 := not_le.2 hprice
  rw [make, if_neg hq, if_neg hp]

namespace Order

open Decimal

variable {ls pre post : List OrderLine} {l : OrderLine} {d : Decimal}

/-! ## What lines are worth -/

/-- what the lines cost, exactly -/
def worth (ls : List OrderLine) : ℚ := (ls.map OrderLine.worth).sum

/-- the largest number of places of a unit price -/
def places (ls : List OrderLine) : Nat := ls.foldl (fun s l => max s l.unitPrice.scale) 0

/-- with as many places as a unit price has, what the lines cost is written with a size that a decimal has room for -/
def Fits (ls : List OrderLine) : Prop := worth ls * tenPow (places ls) ≤ two96 - 1

/-- the decimal is what the lines cost, to the last place of their prices -/
structure Costs (ls : List OrderLine) (d : Decimal) : Prop where
  value : d.toRat = worth ls
  scale : d.scale = places ls
  sign : d.negative = false

theorem worth_append (pre post : List OrderLine) : worth (pre ++ post) = worth pre + worth post := by
  rw [worth, List.map_append, List.sum_append]
  rfl

theorem worth_nonneg (h : ∀ l ∈ ls, l.Positive) : 0 ≤ worth ls := by
  apply List.sum_nonneg
  intro x hx
  obtain ⟨l, hl, rfl⟩ := List.mem_map.1 hx
  exact (h l hl).worth_pos.le

theorem places_snoc (ls : List OrderLine) (l : OrderLine) : places (ls ++ [l]) = max (places ls) l.unitPrice.scale := by
  rw [places, List.foldl_append]
  rfl

theorem places_le_append (pre post : List OrderLine) : places pre ≤ places (pre ++ post) := by
  induction post using List.reverseRecOn with
  | nil => rw [List.append_nil]
  | append_singleton post l ih =>
    rw [← List.append_assoc, places_snoc]
    exact ih.trans (le_max_left _ _)

theorem worth_perm {ls' : List OrderLine} (h : ls'.Perm ls) : worth ls' = worth ls := (h.map _).sum_eq

theorem places_perm {ls' : List OrderLine} (h : ls'.Perm ls) : places ls' = places ls := by
  have : RightCommutative fun (s : Nat) (l : OrderLine) => max s l.unitPrice.scale := ⟨fun s l m => max_right_comm ..⟩
  exact h.foldl_eq 0

/-- there is one decimal that lines can cost -/
theorem Costs.eq {ls' : List OrderLine} {d' : Decimal} (h : Costs ls d) (h' : Costs ls' d') (hp : ls'.Perm ls) :
    d' = d := by
  apply eq_of_toRat
  · rw [h'.value, h.value, worth_perm hp]
  · rw [h'.scale, h.scale, places_perm hp]
  · rw [h'.sign, h.sign]

theorem costs_nil : Costs [] zero := ⟨by simp [toRat, zero, coeff, worth], rfl, rfl⟩

/-- lines written with more places than they need only look larger -/
theorem worth_mul_le {ls' : List OrderLine} (hpos : 0 ≤ worth ls) (hworth : worth ls ≤ worth ls')
    {s s' : Nat} (hplaces : s ≤ s') : worth ls * tenPow s ≤ worth ls' * tenPow s' := by
  have hpow : (tenPow s : ℚ) ≤ tenPow s' := by exact_mod_cast tenPow_mono hplaces
  have hnonneg : (0 : ℚ) ≤ tenPow s := Nat.cast_nonneg _
  exact mul_le_mul hworth hpow hnonneg (hpos.trans hworth)

/-- a first part of lines that fit fits -/
theorem Fits.left (h : Fits (pre ++ post)) (hpos : ∀ l ∈ pre ++ post, l.Positive) : Fits pre := by
  have hpre : 0 ≤ worth pre := worth_nonneg fun l hl => hpos l (List.mem_append_left post hl)
  have hpost : 0 ≤ worth post := worth_nonneg fun l hl => hpos l (List.mem_append_right pre hl)
  have hle : worth pre ≤ worth (pre ++ post) := by
    rw [worth_append]
    linarith
  calc worth pre * tenPow (places pre)
    _ ≤ worth (pre ++ post) * tenPow (places (pre ++ post)) := worth_mul_le hpre hle (places_le_append pre post)
    _ ≤ two96 - 1 := h

/-! ## Adding up -/

/-- the price of a line of lines that fit is exact -/
theorem lineTotal_exact (hpos : ∀ m ∈ ls ++ [l], m.Positive) (h : Fits (ls ++ [l])) :
    ∃ d, (l.total : Outcome OrderError Decimal) = .ok d ∧ Costs [l] d := by
  have hl : l.Positive := hpos l (List.mem_append_right ls List.mem_cons_self)
  have hls : 0 ≤ worth ls := worth_nonneg fun m hm => hpos m (List.mem_append_left [l] hm)
  have hworth : worth [l] = l.unitPrice.toRat * l.quantity.toInt := List.sum_singleton
  have hfits : worth [l] * tenPow l.unitPrice.scale < two96 := by
    have hle : worth [l] ≤ worth (ls ++ [l]) := by
      rw [worth_append]
      linarith
    have hscale : l.unitPrice.scale ≤ places (ls ++ [l]) := by
      rw [places_snoc]
      exact le_max_right _ _
    have hpos : 0 ≤ worth [l] := hworth ▸ hl.worth_pos.le
    calc worth [l] * tenPow l.unitPrice.scale
      _ ≤ worth (ls ++ [l]) * tenPow (places (ls ++ [l])) := worth_mul_le hpos hle hscale
      _ ≤ two96 - 1 := h
      _ < two96 := by linarith
  rw [hworth] at hfits
  obtain ⟨d, hd, hvalue, hplaces, hsign⟩ := mul_exact hl.2 hl.1 hfits
  refine ⟨d, hd, hvalue.trans hworth.symm, ?_, hsign⟩
  rw [hplaces]
  exact (Nat.zero_max _).symm

/-- one more line: its price and the new sum are exact -/
theorem add_snoc (hpos : ∀ m ∈ ls ++ [l], m.Positive) (h : Fits (ls ++ [l])) (hd : Costs ls d) :
    ∃ price sum, (l.total : Outcome OrderError Decimal) = .ok price ∧ Costs [l] price ∧
      (d.add price : Outcome OrderError Decimal) = .ok sum ∧ Costs (ls ++ [l]) sum := by
  obtain ⟨price, hprice, hcosts⟩ := lineTotal_exact hpos h
  have hl : l.Positive := hpos l (List.mem_append_right ls List.mem_cons_self)
  have hpricepos : price.Positive := by
    rw [← toRat_pos_iff, hcosts.value]
    exact hl.worth_pos.trans_eq List.sum_singleton.symm
  have hscale : price.scale = l.unitPrice.scale := hcosts.scale.trans (Nat.zero_max _)
  have hworth : worth (ls ++ [l]) = d.toRat + price.toRat := by rw [worth_append, hd.value, hcosts.value]
  have hplaces : places (ls ++ [l]) = max d.scale price.scale := by rw [places_snoc, hd.scale, hscale]
  rcases List.eq_nil_or_concat ls with rfl | ⟨before, m, rfl⟩
  · -- adding to nothing changes nothing, not even the places
    obtain rfl := costs_nil.eq hd (.refl [])
    exact ⟨price, price, hprice, hcosts, rfl, hcosts⟩
  · have hdpos : d.Positive := by
      have hm : m.Positive := hpos m (by simp)
      have hbefore : 0 ≤ worth before := worth_nonneg fun k hk => hpos k (by simp [hk])
      have hlast : worth [m] = m.worth := List.sum_singleton
      rw [← toRat_pos_iff, hd.value, List.concat_eq_append, worth_append, hlast]
      exact add_pos_of_nonneg_of_pos hbefore hm.worth_pos
    have hfits : (d.toRat + price.toRat) * tenPow (max d.scale price.scale) < two96 := by
      rw [← hworth, ← hplaces]
      have hsize : worth (before.concat m ++ [l]) * tenPow (places (before.concat m ++ [l])) ≤ two96 - 1 := h
      linarith
    obtain ⟨sum, hsum, hvalue, hsumscale, hsign⟩ := add_exact hdpos hpricepos hfits
    exact ⟨price, sum, hprice, hcosts, hsum, hvalue.trans hworth.symm, hsumscale.trans hplaces.symm, hsign⟩

theorem totalOf_snoc (ls : List OrderLine) (l : OrderLine) :
    (totalOf (ls ++ [l]) : Outcome OrderError Decimal) = totalOf ls >>= fun d => l.total >>= fun price => d.add price := by
  refine (addLines_append ls [l]).trans ?_
  congr 1
  funext d
  simp only [addLines]
  cases (l.total : Outcome OrderError Decimal) with
  | ok price => cases h : (d.add price : Outcome OrderError Decimal) <;> simp [h]
  | _ => rfl

/-- **Adding up.** Lines that fit have a total, and it is what they cost. -/
theorem totalOf_exact (hpos : ∀ l ∈ ls, l.Positive) (h : Fits ls) :
    ∃ d, (totalOf ls : Outcome OrderError Decimal) = .ok d ∧ Costs ls d := by
  induction ls using List.reverseRecOn with
  | nil => exact ⟨zero, rfl, costs_nil⟩
  | append_singleton ls l ih =>
    obtain ⟨d, hd, hcosts⟩ := ih (fun m hm => hpos m (List.mem_append_left [l] hm)) (h.left hpos)
    obtain ⟨price, sum, hprice, -, hsum, hcosts'⟩ := add_snoc hpos h hcosts
    refine ⟨sum, ?_, hcosts'⟩
    rw [totalOf_snoc, hd, Outcome.ok_bind, hprice, Outcome.ok_bind, hsum]

/-! ## Orders -/

theorem setLines_exact (o : Order) (hd : (totalOf ls : Outcome OrderError Decimal) = .ok d) :
    (o.setLines ls : Outcome OrderError Order) = .ok { o with lines := ls, total := d } := by
  rw [setLines, hd]
  rfl

/-- a positive line goes on a pending order whose lines then fit -/
theorem addLine_exact {o : Order} {i m : Id} {q : Int32} {p : Decimal} {t : Option String} (hpending : o.status = .pending)
    (hl : (OrderLine.mk i m q p t).Positive)
    (hd : (totalOf (o.lines ++ [⟨i, m, q, p, t⟩]) : Outcome OrderError Decimal) = .ok d) :
    o.addLine i m q p t = .ok { o with lines := o.lines ++ [⟨i, m, q, p, t⟩], total := d } := by
  have hopen : ¬(!o.canBeModified) = true := by simp [canBeModified, hpending]
  rw [addLine, if_neg hopen, OrderLine.make_of_positive hl, Outcome.ok_bind]
  exact setLines_exact o hd

/-- the only line under its identity is taken away without a trace -/
theorem removeLine_snoc {o : Order} {l : OrderLine} (hpending : o.status = .pending) (hfresh : ∀ m ∈ ls, m.id ≠ l.id)
    (hd : (totalOf ls : Outcome OrderError Decimal) = .ok d) (ho : o.lines = ls ++ [l]) :
    o.removeLine l.id = .ok { o with lines := ls, total := d } := by
  have hopen : ¬(!o.canBeModified) = true := by simp [canBeModified, hpending]
  have hrest : o.lines.filter (·.id != l.id) = ls := by
    have hkept : ls.filter (·.id != l.id) = ls := List.filter_eq_self.2 fun m hm => by simpa using hfresh m hm
    rw [ho, List.filter_append, hkept]
    simp
  have hshorter : ¬ls.length = o.lines.length := by
    rw [ho, List.length_append, List.length_singleton]
    omega
  simp only [removeLine, if_neg hopen, hrest, if_neg hshorter]
  exact setLines_exact o hd

/-- **Totals without rounding.** Let all lines be positive, and let what they cost, written with as many places as any unit
price has, be of a size of at most 2^96 - 1. Then adding them up is not at fault, and the total is what they cost, with that
many places: the price of each line and the sum after it are exact. Rearranged, the lines have the same total. It is the
total of every order that has these lines, whatever was done to it and however it was read; and if a line under a new
identity is added to it with which the lines still fit, taking that line away again gives back the order. -/
theorem exact_total (hpos : ∀ l ∈ ls, l.Positive) (hfits : Fits ls) :
    ∃ total : Decimal,
      total.toRat = worth ls ∧ total.scale = places ls ∧
      (∀ o : Order, (o.setLines ls : Outcome OrderError Order) = .ok { o with lines := ls, total := total }) ∧
      (∀ pre l post, ls = pre ++ l :: post →
        ∃ before price after, (totalOf pre : Outcome OrderError Decimal) = .ok before ∧
          (l.total : Outcome OrderError Decimal) = .ok price ∧
          (before.add price : Outcome OrderError Decimal) = .ok after ∧
          (totalOf (pre ++ [l]) : Outcome OrderError Decimal) = .ok after ∧
          price.toRat = l.unitPrice.toRat * l.quantity.toInt ∧ after.toRat = before.toRat + price.toRat) ∧
      (∀ ls' : List OrderLine, ls'.Perm ls → (totalOf ls' : Outcome OrderError Decimal) = .ok total) ∧
      ∀ (start : Order) ops o, start.Starts → start.run ops = .ok o → o.lines = ls →
        o.total = total ∧
        ∀ i m q p t, o.status = .pending → (∀ l ∈ ls, l.id ≠ i) → 0 < q.toInt → p.Positive →
          Fits (ls ++ [⟨i, m, q, p, t⟩]) →
          ∃ more, o.addLine i m q p t = .ok more ∧ more.total.toRat = total.toRat + p.toRat * q.toInt ∧
            more.removeLine i = .ok o := by
  obtain ⟨total, htotal, hcosts⟩ := totalOf_exact hpos hfits
  refine ⟨total, hcosts.value, hcosts.scale, fun o => setLines_exact o htotal, ?_, ?_, ?_⟩
  · intro pre l post hsplit
    have hcut : ls = pre ++ [l] ++ post := by rw [hsplit, List.append_assoc, List.singleton_append]
    subst hcut
    have hpre : ∀ m ∈ pre ++ [l], m.Positive := fun m hm => hpos m (List.mem_append_left post hm)
    have hprefits : Fits (pre ++ [l]) := hfits.left hpos
    obtain ⟨before, hbefore, hbeforecosts⟩ :=
      totalOf_exact (fun m hm => hpre m (List.mem_append_left [l] hm)) (hprefits.left hpre)
    obtain ⟨price, after, hprice, hpricecosts, hafter, haftercosts⟩ := add_snoc hpre hprefits hbeforecosts
    refine ⟨before, price, after, hbefore, hprice, hafter, ?_, ?_, ?_⟩
    · rw [totalOf_snoc, hbefore, Outcome.ok_bind, hprice, Outcome.ok_bind, hafter]
    · exact hpricecosts.value.trans List.sum_singleton
    · rw [haftercosts.value, worth_append, hbeforecosts.value, hpricecosts.value]
  · intro ls' hperm
    have hpos' : ∀ l ∈ ls', l.Positive := fun l hl => hpos l (hperm.mem_iff.1 hl)
    have hfits' : Fits ls' := by
      unfold Fits
      rw [worth_perm hperm, places_perm hperm]
      exact hfits
    obtain ⟨d, hd, hdcosts⟩ := totalOf_exact hpos' hfits'
    rw [hd, hcosts.eq hdcosts hperm]
  · intro start ops o hstart hrun hlines
    have haddedUp : o.AddedUp := (run_eq_sheet hstart.addedUp hrun).1
    have hstored : o.total = total := by
      unfold AddedUp at haddedUp
      rw [hlines, htotal] at haddedUp
      exact (Outcome.ok.inj haddedUp).symm
    refine ⟨hstored, ?_⟩
    intro i m q p t hpending hfresh hq hp hmore
    have hl : (OrderLine.mk i m q p t).Positive := ⟨hq, hp⟩
    have hall : ∀ l ∈ ls ++ [⟨i, m, q, p, t⟩], l.Positive := by
      intro l hl'
      rcases List.mem_append.1 hl' with hold | hnew
      · exact hpos l hold
      · exact List.mem_singleton.1 hnew ▸ hl
    obtain ⟨sum, hsum, hsumcosts⟩ := totalOf_exact hall hmore
    rw [← hlines] at hsum
    refine ⟨_, addLine_exact hpending hl hsum, ?_, ?_⟩
    · rw [hsumcosts.value, worth_append, hcosts.value]
      exact congrArg (worth ls + ·) List.sum_singleton
    · have hremoved := removeLine_snoc (o := { o with lines := o.lines ++ [⟨i, m, q, p, t⟩], total := sum })
        (l := ⟨i, m, q, p, t⟩) hpending hfresh htotal (by rw [hlines])
      rw [hremoved, ← hlines, ← hstored]

/-- a whole price, and one with all the places there are -/
def brim : List OrderLine :=
  [⟨.ofNat 11, .ofNat 3, 1, .ofInt32 7, none⟩,
    ⟨.ofNat 12, .ofNat 4, 1, (ofParts? 9228162514264337593543950335 28).get rfl, none⟩]

/-- the order with these lines: not one unit more would fit -/
def brimful : Order :=
  ⟨.ofNat 1, "ORD-1", .ofNat 2, .epoch, .pending, brim, (ofParts? (two96 - 1) 28).get rfl, none, 1⟩

theorem exact_total_brim :
    (∀ l ∈ brim, l.Positive) ∧ Fits brim ∧
    bareOrder.run (brim.map fun l => .addLine l.id l.menuItem l.quantity l.unitPrice l.instructions) = .ok brimful ∧
    brimful.total.toRat = worth brim ∧ (totalOf brim.reverse : Outcome OrderError Decimal) = .ok brimful.total := by
  have hpos : ∀ l ∈ brim, l.Positive := by decide
  have hfits : Fits brim := by
    have hone : (1 : Int32).toInt = 1 := rfl
    have hseven : (ofInt32 7).coeff = 7 ∧ (ofInt32 7).scale = 0 := by decide
    have hrest : ((ofParts? 9228162514264337593543950335 28).get rfl).coeff = 9228162514264337593543950335 ∧
        ((ofParts? 9228162514264337593543950335 28).get rfl).scale = 28 := by decide
    norm_num [Fits, worth, places, brim, OrderLine.worth, toRat, tenPow, hone, hseven, hrest]
  have hnew : create (.ofNat 1) "ORD-1" (.ofNat 2) .epoch none = .ok bareOrder := by decide +kernel
  have hrun : bareOrder.run (brim.map fun l => .addLine l.id l.menuItem l.quantity l.unitPrice l.instructions) =
      .ok brimful := by decide +kernel
  obtain ⟨total, hvalue, -, -, -, hperm, horders⟩ := exact_total hpos hfits
  obtain ⟨rfl, -⟩ := horders bareOrder _ brimful (.inl ⟨_, _, _, _, _, hnew⟩) hrun rfl
  exact ⟨hpos, hfits, hrun, hvalue, hperm _ (List.reverse_perm brim)⟩

end Order

end Brigade
