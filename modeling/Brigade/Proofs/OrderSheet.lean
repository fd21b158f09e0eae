/-
Orders without their totals.

A sheet has the status, the lines and the notes of an order. It has no total: `Sheet.apply` says what an operation does to
a sheet, or why it is refused, and adds nothing up. An order keeps a total beside its sheet and computes it again in some
of its operations only.
- `order_follows_sheet`: along every run an order is its sheet with the sum of the lines as its total, and its next answer
  is the answer of the sheet.

The invariant is `AddedUp`: the total is the sum of the lines, from the left. Reading an order sets it up whatever total
was stored, and an operation that skips the sum leaves the lines alone.
-/
import Brigade.Proofs.GoalSetChange
import Brigade.Order.Basic

namespace Brigade

/-! ## Sheets -/

/-- an order without its total, and without what never changes -/
structure Sheet where
  status : OrderStatus
  lines : List OrderLine
  notes : Option String
deriving DecidableEq, Repr

namespace Sheet

/-- what an operation makes of a sheet, or why it is refused -/
def apply (s : Sheet) : Order.Op → Outcome OrderError Sheet
  | .addLine i m q p t =>
    if s.status ≠ .pending then .refused (.linesClosedToAdd s.status)
    else do
      let l ← OrderLine.make i m q p t
      return { s with lines := s.lines ++ [l] }
  | .removeLine i =>
    if s.status ≠ .pending then .refused (.linesClosedToRemove s.status)
    else .ok { s with lines := s.lines.filter (·.id != i) }
  | .setQuantity i q =>
    if s.status ≠ .pending then .refused (.linesClosedToUpdate s.status)
    else if s.lines.any (·.id == i) ∧ q ≤ 0 then .refused .quantityNotPositive
    else .ok { s with lines := updateFirst (·.id == i) (fun l => { l with quantity := q }) s.lines }
  | .setNotes n => .ok { s with notes := n }
  | .moveTo t => if s.status.canMoveTo t then .ok { s with status := t } else .refused (.noMove s.status t)
  | .startPreparation =>
    if s.status ≠ .pending then .refused (.cannotPrepare s.status)
    else if s.lines = [] then .refused .nothingToPrepare
    else .ok { s with status := .preparing }
  | .markReady =>
    if s.status = .preparing then .ok { s with status := .ready } else .refused (.cannotMarkReady s.status)
  | .serve => if s.status = .ready then .ok { s with status := .served } else .refused (.cannotServe s.status)
  | .cancel => if s.status = .served then .refused .alreadyServed else .ok { s with status := .cancelled }

/-- one operation; refused, it changes nothing -/
def step (s : Sheet) (op : Order.Op) : Sheet :=
  match s.apply op with
  | .ok t => t
  | _ => s

def run (s : Sheet) (ops : List Order.Op) : Sheet := ops.foldl step s

/-- a sheet is never at fault -/
theorem apply_ne_fault {s : Sheet} {op : Order.Op} {f : Fault} : s.apply op ≠ .fault f := by
  intro h
  cases op with
  | addLine i m q p t =>
    simp only [apply] at h
    split_ifs at h
    cases hl : OrderLine.make i m q p t with
    | ok l => rw [hl] at h; cases h
    | refused e => rw [hl] at h; cases h
    | fault g =>
      simp only [OrderLine.make] at hl
      split_ifs at hl
  | setNotes n => cases h
  | _ =>
    simp only [apply] at h
    split_ifs at h

/-! ## What becomes of the lines -/

/-- the lines after an operation that is granted -/
def LinesAfter (before : List OrderLine) : Order.Op → List OrderLine → Prop
  | .addLine i m q p t, after => after = before ++ [⟨i, m, q, p, t⟩]
  | .removeLine i, after => after = before.filter (·.id != i)
  | .setQuantity i q, after =>
    ((∀ l ∈ before, l.id ≠ i) ∧ after = before) ∨
      ∃ pre l post, before = pre ++ l :: post ∧ (∀ m ∈ pre, m.id ≠ i) ∧ l.id = i ∧
        after = pre ++ { l with quantity := q } :: post
  | _, after => after = before

theorem linesAfter_of_apply {s t : Sheet} {op : Order.Op} (h : s.apply op = .ok t) : LinesAfter s.lines op t.lines := by
  cases op with
  | addLine i m q p u =>
    simp only [apply] at h
    split_ifs at h
    obtain ⟨l, hl, ht⟩ := Outcome.bind_eq_ok.1 h
    obtain ⟨-, -, rfl⟩ := OrderLine.make_eq_ok hl
    obtain rfl := Outcome.ok.inj ht
    rfl
  | removeLine i =>
    simp only [apply] at h
    split_ifs at h
    obtain rfl := Outcome.ok.inj h
    rfl
  | setQuantity i q =>
    simp only [apply] at h
    split_ifs at h
    obtain rfl := Outcome.ok.inj h
    rcases updateFirst_cases (·.id == i) (fun l : OrderLine => { l with quantity := q }) s.lines with
      ⟨hnone, heq⟩ | ⟨pre, l, post, hsplit, hpre, hl, heq⟩
    · left
      refine ⟨fun l hl => ?_, heq⟩
      simpa using hnone l hl
    · right
      refine ⟨pre, l, post, hsplit, fun m hm => ?_, by simpa using hl, heq⟩
      simpa using hpre m hm
  | setNotes n =>
    obtain rfl := Outcome.ok.inj h
    rfl
  | _ =>
    simp only [apply] at h
    split_ifs at h
    obtain rfl := Outcome.ok.inj h
    rfl

/-- lines that are not there are neither removed nor changed -/
theorem apply_of_unknown {s : Sheet} {i : Id} (hs : s.status = .pending) (hi : ∀ l ∈ s.lines, l.id ≠ i) :
    s.apply (.removeLine i) = .ok s ∧ ∀ q, s.apply (.setQuantity i q) = .ok s := by
  have hpending : ¬s.status ≠ .pending := not_not.2 hs
  constructor
  · have hall : s.lines.filter (·.id != i) = s.lines := List.filter_eq_self.2 fun l hl => by simpa using hi l hl
    simp only [apply, if_neg hpending, hall]
  · intro q
    have hany : s.lines.any (·.id == i) = false := by simpa using hi
    have hsame : updateFirst (·.id == i) (fun l : OrderLine => { l with quantity := q }) s.lines = s.lines :=
      updateFirst_of_none (by simpa using hi) _
    simp only [apply, if_neg hpending, hany, Bool.false_eq_true, false_and, if_false, hsame]

end Sheet

namespace Order

/-! ## One operation -/

@[reducible] def sheet (o : Order) : Sheet := ⟨o.status, o.lines, o.notes⟩

/-- the order with another sheet and another total -/
def withSheet (o : Order) (s : Sheet) (total : Decimal) : Order :=
  { o with status := s.status, lines := s.lines, total := total, notes := s.notes }

/-- the order with another sheet, its lines added up -/
def rewritten (o : Order) (s : Sheet) : Outcome OrderError Order := do
  let total ← totalOf s.lines
  return o.withSheet s total

/-- the total is the sum of the lines, from the left -/
def AddedUp (o : Order) : Prop := (totalOf o.lines : Outcome OrderError Decimal) = .ok o.total

variable {o o' : Order} {s : Sheet}

theorem rewritten_eq_ok : o.rewritten s = .ok o' ↔
    (totalOf s.lines : Outcome OrderError Decimal) = .ok o'.total ∧ o' = o.withSheet s o'.total := by
  unfold rewritten
  rw [Outcome.bind_eq_ok]
  constructor
  · rintro ⟨total, htotal, h⟩
    obtain rfl := Outcome.ok.inj h
    exact ⟨htotal, rfl⟩
  · rintro ⟨htotal, h⟩
    exact ⟨o'.total, htotal, congrArg Outcome.ok h.symm⟩

/-- an order with other lines is its sheet with other lines, added up -/
theorem setLines_eq_rewritten (o : Order) (ls : List OrderLine) :
    o.setLines ls = o.rewritten { o.sheet with lines := ls } := rfl

/-- a sheet with the same lines has the same total -/
theorem rewritten_of_lines (h : o.AddedUp) (hs : s.lines = o.lines) : o.rewritten s = .ok (o.withSheet s o.total) := by
  rw [rewritten_eq_ok, hs]
  exact ⟨h, rfl⟩

theorem rewritten_self (h : o.AddedUp) : o.rewritten o.sheet = .ok o := rewritten_of_lines h rfl

/-- the guard of every change of the lines -/
theorem not_canBeModified_iff (o : Order) : (!o.canBeModified) = true ↔ o.sheet.status ≠ .pending := by
  simp [canBeModified]

/-- the sum is skipped only if no line was removed -/
theorem removeLine_eq_sheet (h : o.AddedUp) (i : Id) :
    o.removeLine i = o.sheet.apply (.removeLine i) >>= o.rewritten := by
  simp only [removeLine, not_canBeModified_iff]
  by_cases hs : o.sheet.status ≠ .pending
  · simp only [Sheet.apply, if_pos hs]
    rfl
  · rw [if_neg hs]
    split
    · rename_i hlen
      have hall : ∀ l ∈ o.lines, (l.id != i) = true := List.length_filter_eq_length_iff.1 hlen
      have hsame := (Sheet.apply_of_unknown (not_not.1 hs) fun l hl => by simpa using hall l hl).1
      rw [hsame, Outcome.ok_bind, rewritten_self h, List.filter_eq_self.2 hall]
    · simp only [Sheet.apply, if_neg hs]
      rfl

/-- the sum is skipped only if no line was changed -/
theorem setQuantity_eq_sheet (h : o.AddedUp) (i : Id) (q : Int32) :
    o.setQuantity i q = o.sheet.apply (.setQuantity i q) >>= o.rewritten := by
  simp only [setQuantity, not_canBeModified_iff]
  by_cases hs : o.sheet.status ≠ .pending
  · simp only [Sheet.apply, if_pos hs]
    rfl
  · rw [if_neg hs]
    cases hfind : o.lines.find? (·.id == i) with
    | none =>
      have hunknown : ∀ l ∈ o.lines, l.id ≠ i := by simpa using hfind
      have hsame := (Sheet.apply_of_unknown (not_not.1 hs) hunknown).2 q
      rw [hsame, Outcome.ok_bind, rewritten_self h]
      rfl
    | some l =>
      have hany : o.sheet.lines.any (·.id == i) = true := by
        have hp := List.find?_some hfind
        exact List.any_eq_true.2 ⟨l, List.mem_of_find?_eq_some hfind, hp⟩
      simp only [Sheet.apply, if_neg hs, hany, true_and, Option.isNone_some, Bool.false_eq_true, if_false]
      by_cases hq : q ≤ 0
      · rw [if_pos hq, if_pos hq]
        rfl
      · rw [if_neg hq, if_neg hq]
        rfl

/-- **One operation.** What an order answers is what its sheet answers, with the lines added up. -/
theorem apply_eq_sheet (h : o.AddedUp) (op : Op) : o.apply op = o.sheet.apply op >>= o.rewritten := by
  -- the operations that leave the lines alone keep the total, which is still their sum
  have hkept : ∀ s : Sheet, s.lines = o.lines → .ok (o.withSheet s o.total) = Outcome.ok s >>= o.rewritten :=
    fun s hs => (rewritten_of_lines h hs).symm
  cases op with
  | addLine i m q p t =>
    simp only [apply, addLine, Sheet.apply, not_canBeModified_iff]
    by_cases hs : o.sheet.status ≠ .pending
    · rw [if_pos hs, if_pos hs]
      rfl
    · rw [if_neg hs, if_neg hs, bind_assoc]
      rfl
  | removeLine i => exact removeLine_eq_sheet h i
  | setQuantity i q => exact setQuantity_eq_sheet h i q
  | setNotes n => exact hkept { o.sheet with notes := n } rfl
  | moveTo t =>
    simp only [apply, moveTo, Sheet.apply]
    by_cases hs : o.status.canMoveTo t = true
    · rw [if_pos hs, if_pos hs]
      exact hkept { o.sheet with status := t } rfl
    · rw [if_neg hs, if_neg hs]
      rfl
  | startPreparation =>
    simp only [apply, startPreparation, Sheet.apply, List.isEmpty_iff]
    by_cases hs : o.status ≠ .pending
    · rw [if_pos hs, if_pos hs]
      rfl
    · rw [if_neg hs, if_neg hs]
      by_cases hlines : o.lines = []
      · rw [if_pos hlines, if_pos hlines]
        rfl
      · rw [if_neg hlines, if_neg hlines]
        exact hkept { o.sheet with status := .preparing } rfl
  | markReady =>
    simp only [apply, markReady, Sheet.apply]
    by_cases hs : o.status = .preparing
    · rw [if_neg (not_not.2 hs), if_pos hs]
      exact hkept { o.sheet with status := .ready } rfl
    · rw [if_pos hs, if_neg hs]
      rfl
  | serve =>
    simp only [apply, serve, Sheet.apply]
    by_cases hs : o.status = .ready
    · rw [if_neg (not_not.2 hs), if_pos hs]
      exact hkept { o.sheet with status := .served } rfl
    · rw [if_pos hs, if_neg hs]
      rfl
  | cancel =>
    simp only [apply, cancel, Sheet.apply]
    by_cases hs : o.status = .served
    · rw [if_pos hs, if_pos hs]
      rfl
    · rw [if_neg hs, if_neg hs]
      exact hkept { o.sheet with status := .cancelled } rfl

/-! ## Orders at their start -/

/-- the order is new, or was read -/
def Starts (o : Order) : Prop :=
  (∃ id number tableId date notes, create id number tableId date notes = .ok o) ∨ ∃ j, read j = .ok o

theorem addedUp_of_rewritten (h : o.rewritten s = .ok o') : o'.AddedUp := by
  obtain ⟨htotal, ho'⟩ := rewritten_eq_ok.1 h
  have hlines : o'.lines = s.lines := by
    rw [ho']
    rfl
  unfold AddedUp
  rw [hlines]
  exact htotal

theorem addedUp_of_create {id tableId : Id} {number : String} {date : Timestamp} {notes : Option String}
    (h : create id number tableId date notes = .ok o) : o.AddedUp := by
  unfold create at h
  split at h
  · cases h
  · obtain rfl := Outcome.ok.inj h
    rfl

/-- reading ends with adding up -/
theorem addedUp_of_read {j : Json} (h : read j = .ok o) : o.AddedUp := by
  unfold read at h
  obtain ⟨stored, -, h⟩ := Except.bind_eq_ok.1 h
  cases hsum : (stored.setLines stored.lines : Outcome OrderError Order) with
  | ok o' =>
    rw [hsum] at h
    obtain rfl := Except.ok.inj h
    exact addedUp_of_rewritten ((setLines_eq_rewritten stored stored.lines).symm.trans hsum)
  | refused e => rw [hsum] at h; cases h
  | fault f => rw [hsum] at h; cases h

theorem Starts.addedUp (h : o.Starts) : o.AddedUp := by
  rcases h with ⟨id, number, tableId, date, notes, h⟩ | ⟨j, h⟩
  · exact addedUp_of_create h
  · exact addedUp_of_read h

/-! ## The total as it was stored -/

/-- two texts of an order that differ in a stored total only, which can be read in both -/
inductive SameButTotal : Json → Json → Prop where
  | member (pre post : List (Json × Json)) {d d' : Json} {t t' : Decimal} (hd : Reader.decimal d = .ok t)
      (hd' : Reader.decimal d' = .ok t') :
      SameButTotal (.obj (pre ++ (.text "total", d) :: post)) (.obj (pre ++ (.text "total", d') :: post))
  | element (xs : List Json) {d d' : Json} {t t' : Decimal} (hd : Reader.decimal d = .ok t)
      (hd' : Reader.decimal d' = .ok t') : SameButTotal (.arr (xs.set 6 d)) (.arr (xs.set 6 d'))

section SameButTotal

variable (pre post : List (Json × Json)) {d d' : Json}

theorem walk_sameButTotal {t t' : Decimal} (hd : Reader.decimal d = .ok t) (hd' : Reader.decimal d' = .ok t')
    (seen : List String) :
    Reader.walk fields false seen (pre ++ (.text "total", d) :: post) =
      Reader.walk fields false seen (pre ++ (.text "total", d') :: post) := by
  induction pre generalizing seen with
  | nil =>
    have hfind : fields.find? (·.name == "total") = some (Reader.field "total" Reader.decimal) := rfl
    simp only [List.nil_append, Reader.walk, hfind, Reader.field, hd, hd']
    rfl
  | cons m pre ih =>
    obtain ⟨n, v⟩ := m
    cases n with
    | str name =>
      cases name with
      | some name => simp only [List.cons_append, Reader.walk, ih]
      | none => rfl
    | _ => rfl

theorem find?_sameButTotal (d d' : Json) {name : String} (h : name ≠ "total") :
    Json.find? name (pre ++ (.text "total", d) :: post) = Json.find? name (pre ++ (.text "total", d') :: post) := by
  induction pre with
  | nil => simp [Json.find?, h.symm]
  | cons m pre ih =>
    obtain ⟨n, v⟩ := m
    cases n with
    | str n =>
      cases n with
      | some n => simp only [List.cons_append, Json.find?, ih]
      | none => exact ih
    | _ => exact ih

/-- the total that is looked for is the replaced one, or the same one before it -/
theorem find?_total (d d' : Json) :
    Json.find? "total" (pre ++ (.text "total", d) :: post) = Json.find? "total" (pre ++ (.text "total", d') :: post) ∨
      Json.find? "total" (pre ++ (.text "total", d) :: post) = some d ∧
        Json.find? "total" (pre ++ (.text "total", d') :: post) = some d' := by
  induction pre with
  | nil => exact .inr ⟨rfl, rfl⟩
  | cons m pre ih =>
    obtain ⟨n, v⟩ := m
    cases n with
    | str n =>
      cases n with
      | some n =>
        by_cases hn : n = "total"
        · exact .inl (by simp [Json.find?, hn])
        · simpa [Json.find?, hn] using ih
      | none => exact ih
    | _ => exact ih

end SameButTotal

/-- the order taken from a tree does not depend on the total that was stored -/
theorem stored_sameButTotal {j j' : Json} (h : SameButTotal j j') : stored j = stored j' := by
  cases h with
  | member pre post hd hd' =>
    rename_i d d' t t'
    have hwalk := walk_sameButTotal pre post hd hd' []
    have hother := @find?_sameButTotal pre post d d'
    have htotal := find?_total pre post d d'
    generalize pre ++ (.text "total", d) :: post = ms at *
    generalize pre ++ (.text "total", d') :: post = ms' at *
    simp only [stored, Reader.record, hwalk, Reader.Source.required, Reader.Source.optional, Reader.Source.defaulted,
      hother, ne_eq, String.reduceEq, not_false_eq_true]
    rcases htotal with heq | ⟨htotal, htotal'⟩
    · simp only [heq]
    · simp only [htotal, htotal', hd, hd']
      rfl
  | element xs hd hd' =>
    rename_i d d' t t'
    by_cases hlen : 6 < xs.length
    · have hother : ∀ i, i ≠ 6 → (xs.set 6 d)[i]? = (xs.set 6 d')[i]? := by
        intro i hi
        rw [List.getElem?_set_ne hi.symm, List.getElem?_set_ne hi.symm]
      have htotal : ∀ x : Json, (xs.set 6 x)[6]? = some x := fun x => List.getElem?_set_self hlen
      simp only [stored, Reader.record, Reader.Source.required, Reader.Source.optional, Reader.Source.defaulted,
        List.length_set, hother, ne_eq, Nat.reduceEqDiff, not_false_eq_true, htotal, hd, hd']
      rfl
    · rw [List.set_eq_of_length_le (Nat.not_lt.1 hlen), List.set_eq_of_length_le (Nat.not_lt.1 hlen)]

/-- nor does what is read -/
theorem read_sameButTotal {j j' : Json} (h : SameButTotal j j') : read j = read j' := by
  unfold read
  rw [stored_sameButTotal h]

/-! ## Runs -/

/-- prices and sums are found or at fault -/
theorem addLines_ne_refused {ε : Type} {e : ε} (ls : List OrderLine) (acc : Decimal) :
    (addLines acc ls : Outcome ε Decimal) ≠ .refused e := by
  have hmul : ∀ a b : Decimal, (a.mul b : Outcome ε Decimal) ≠ .refused e := by
    intro a b h
    simp only [Decimal.mul] at h
    split at h
    · cases h
    · split at h <;> cases h
  have hadd : ∀ a b : Decimal, (a.add b : Outcome ε Decimal) ≠ .refused e := by
    intro a b h
    simp only [Decimal.add] at h
    split_ifs at h
    split at h <;> cases h
  induction ls generalizing acc with
  | nil =>
    intro h
    cases h
  | cons l ls ih =>
    intro h
    unfold addLines at h
    cases hprice : (l.total : Outcome ε Decimal) with
    | refused e' =>
      rw [hprice] at h
      exact hmul _ _ (hprice.trans (by cases h; rfl))
    | fault f => rw [hprice] at h; cases h
    | ok price =>
      rw [hprice, Outcome.ok_bind] at h
      cases hsum : (acc.add price : Outcome ε Decimal) with
      | refused e' =>
        rw [hsum] at h
        exact hadd _ _ (hsum.trans (by cases h; rfl))
      | fault f => rw [hsum] at h; cases h
      | ok acc' =>
        rw [hsum, Outcome.ok_bind] at h
        exact ih acc' h

theorem rewritten_ne_refused {e : OrderError} : o.rewritten s ≠ .refused e := by
  intro h
  unfold rewritten at h
  cases htotal : (totalOf s.lines : Outcome OrderError Decimal) with
  | ok total => rw [htotal] at h; cases h
  | refused e' => exact addLines_ne_refused _ _ htotal
  | fault f => rw [htotal] at h; cases h

/-- a step stays added up, and takes the step of the sheet -/
theorem step_eq_sheet {op : Op} (h : o.AddedUp) (hs : o.step op = .ok o') :
    o'.AddedUp ∧ o' = o.withSheet (o.sheet.step op) o'.total := by
  unfold step at hs
  rw [apply_eq_sheet h op] at hs
  unfold Sheet.step
  cases hop : o.sheet.apply op with
  | ok s =>
    rw [hop, Outcome.ok_bind] at hs
    cases hr : o.rewritten s with
    | ok o'' =>
      rw [hr] at hs
      obtain rfl := Except.ok.inj hs
      exact ⟨addedUp_of_rewritten hr, (rewritten_eq_ok.1 hr).2⟩
    | refused e => exact absurd hr rewritten_ne_refused
    | fault f => rw [hr] at hs; cases hs
  | refused e =>
    rw [hop] at hs
    obtain rfl := Except.ok.inj hs
    exact ⟨h, rfl⟩
  | fault f => exact absurd hop Sheet.apply_ne_fault

theorem run_eq_sheet {ops : List Op} (h : o.AddedUp) (hr : o.run ops = .ok o') :
    o'.AddedUp ∧ o' = o.withSheet (o.sheet.run ops) o'.total := by
  induction ops generalizing o with
  | nil =>
    obtain rfl := Except.ok.inj hr
    exact ⟨h, rfl⟩
  | cons op ops ih =>
    obtain ⟨m, hm, hr⟩ := Except.bind_eq_ok.1 hr
    obtain ⟨hadded, hsheet⟩ := step_eq_sheet h hm
    obtain ⟨hadded', hrest⟩ := ih hadded hr
    refine ⟨hadded', ?_⟩
    rw [hsheet] at hrest
    exact hrest

/-- the sum is the sum of the prices, one after another -/
theorem addLines_eq_ok {ε : Type} {ls : List OrderLine} {acc total : Decimal}
    (h : (addLines acc ls : Outcome ε Decimal) = .ok total) :
    ∃ prices, (ls.mapM OrderLine.total : Outcome ε (List Decimal)) = .ok prices ∧
      (prices.foldlM Decimal.add acc : Outcome ε Decimal) = .ok total := by
  induction ls generalizing acc with
  | nil => exact ⟨[], rfl, h⟩
  | cons l ls ih =>
    obtain ⟨price, hprice, h⟩ := Outcome.bind_eq_ok.1 h
    obtain ⟨acc', hacc, h⟩ := Outcome.bind_eq_ok.1 h
    obtain ⟨prices, hprices, hsum⟩ := ih h
    refine ⟨price :: prices, ?_, ?_⟩
    · rw [List.mapM_cons, hprice, Outcome.ok_bind, hprices]
      rfl
    · rw [List.foldlM_cons, hacc, Outcome.ok_bind]
      exact hsum

/-- **An order is its sheet, added up.** After every run from a new order or one that was read, the order is its first
sheet with the operations applied to it, and its total is the sum of the prices of its lines, from the left. Its next
answer is the answer of the sheet with the lines added up: a line is appended, the lines with an identity are dropped,
the first line with an identity gets another quantity; an unknown identity changes nothing, and neither does a refusal.
The total that was stored with an order that was read makes no difference. -/
theorem order_follows_sheet {ops : List Op} (first : o.Starts) (h : o.run ops = .ok o') :
    o' = o.withSheet (o.sheet.run ops) o'.total ∧
    (∃ prices, (o'.lines.mapM OrderLine.total : Outcome OrderError (List Decimal)) = .ok prices ∧
      (Decimal.sum prices : Outcome OrderError Decimal) = .ok o'.total) ∧
    (∀ op, o'.apply op = o'.sheet.apply op >>= o'.rewritten ∧
      (∀ next, o'.apply op = .ok next → Sheet.LinesAfter o'.lines op next.lines) ∧
      ∀ e, o'.apply op = .refused e → o'.step op = .ok o') ∧
    (∀ i, o'.status = .pending → (∀ l ∈ o'.lines, l.id ≠ i) →
      o'.apply (.removeLine i) = .ok o' ∧ ∀ q, o'.apply (.setQuantity i q) = .ok o') ∧
    ∀ j j', SameButTotal j j' → read j = read j' := by
  obtain ⟨hadded, hsheet⟩ := run_eq_sheet first.addedUp h
  have hanswer : ∀ op, o'.apply op = o'.sheet.apply op >>= o'.rewritten := fun op => apply_eq_sheet hadded op
  refine ⟨hsheet, addLines_eq_ok hadded, fun op => ⟨hanswer op, fun next hnext => ?_, fun e he => ?_⟩,
    fun i hpending hi => ?_, fun j j' => read_sameButTotal⟩
  · rw [hanswer op] at hnext
    obtain ⟨s, hs, hnext⟩ := Outcome.bind_eq_ok.1 hnext
    rw [(rewritten_eq_ok.1 hnext).2]
    exact Sheet.linesAfter_of_apply hs
  · unfold step
    rw [he]
    rfl
  · obtain ⟨hremove, hset⟩ := Sheet.apply_of_unknown (s := o'.sheet) hpending hi
    refine ⟨?_, fun q => ?_⟩
    · rw [hanswer, hremove, Outcome.ok_bind, rewritten_self hadded]
    · rw [hanswer, hset q, Outcome.ok_bind, rewritten_self hadded]

/-- twice the same line, two for 1.5 each, and a total of 99 -/
def storedDouble : Json :=
  let line : Json := .record [("id", .text (Id.ofNat 7).text), ("menu_item_id", .text (Id.ofNat 8).text),
    ("quantity", .int 2), ("unit_price", .text "1.5")]
  .record [("id", .text (Id.ofNat 1).text), ("order_number", .text "ORD-1"), ("table_id", .text (Id.ofNat 2).text),
    ("order_date", .text "2024-03-09T07:05:02Z"), ("status", .text "Pending"), ("items", .arr [line, line]),
    ("total", .text "99"), ("version", .int 3)]

/-- an order with two lines of the same identity -/
def double (first second : Int32) (status : OrderStatus) (total : Decimal) : Order :=
  let line (q : Int32) : OrderLine := ⟨.ofNat 7, .ofNat 8, q, ⟨false, 15, 1, by decide, by decide⟩, none⟩
  ⟨.ofNat 1, "ORD-1", .ofNat 2, { Timestamp.epoch with seconds := 1709967902 }, status, [line first, line second], total,
    none, 3⟩

/-- five of the first line, a line that is not there, and the kitchen -/
def doubleOps : List Op := [.setQuantity (.ofNat 7) 5, .removeLine (.ofNat 9), .addLine (.ofNat 9) (.ofNat 8) 0 .zero none,
  .startPreparation, .cancel]

theorem order_follows_sheet_double :
    read storedDouble = .ok (double 2 2 .pending ⟨false, 60, 1, by decide, by decide⟩) ∧
    (double 2 2 .pending ⟨false, 60, 1, by decide, by decide⟩).run doubleOps =
      .ok (double 5 2 .cancelled ⟨false, 105, 1, by decide, by decide⟩) ∧
    (double 2 2 .pending ⟨false, 60, 1, by decide, by decide⟩).sheet.run doubleOps =
      (double 5 2 .cancelled ⟨false, 105, 1, by decide, by decide⟩).sheet := by
  have hread : read storedDouble = .ok (double 2 2 .pending ⟨false, 60, 1, by decide, by decide⟩) := by decide +kernel
  have hrun : (double 2 2 .pending ⟨false, 60, 1, by decide, by decide⟩).run doubleOps =
      .ok (double 5 2 .cancelled ⟨false, 105, 1, by decide, by decide⟩) := by decide +kernel
  have hsheet := (order_follows_sheet (.inr ⟨storedDouble, hread⟩) hrun).1
  exact ⟨hread, hrun, (congrArg sheet hsheet).symm⟩

end Order

end Brigade
