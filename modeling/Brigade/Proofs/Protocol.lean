/-
Protocols: which requests a plan makes in which phase, whatever is replied.

The phase moves with the replies. `Plan.Keeps` holds of a plan that keeps to the protocol along every path of replies that
can be expected, and whose end is as promised in the phase it ends in. It is read off a plan from its root: each of the
pieces that tasks are put together from has a rule here, and one plan after another keeps to a protocol exactly if the
second one takes over where the first one ends (`Plan.keeps_bind`, `Task.keeps_bind`).

Most protocols let metrics be counted in every phase and stay where they are (`Protocol.Counting`). Under those a task
may count whatever it likes (`Task.counted_keeps`, `Task.count_keeps`).
-/
import Brigade.Plan
import Brigade.Validation

namespace Brigade

/-- which requests are made in which phase, and which replies may come -/
structure Protocol (φ : Type) where
  first : φ
  asks : φ → Request → Prop
  answers : (r : Request) → r.Reply → Prop
  after : φ → (r : Request) → r.Reply → φ

/-- metrics may be counted in every phase, and counting changes none -/
class Protocol.Counting {φ : Type} (P : Protocol φ) : Prop where
  count (ph : φ) (m : Metric) : P.asks ph (.count m) ∧ P.after ph (.count m) () = ph

variable {ε α β φ : Type} {P : Protocol φ} {ph : φ}

namespace Plan

/-- the plan keeps to the protocol from a phase on, whatever is replied, and `ends` holds of its end -/
def Keeps (P : Protocol φ) (ends : φ → α → Prop) : Plan α → φ → Prop
  | done a, ph => ends ph a
  | ask r next, ph => P.asks ph r ∧ ∀ x, P.answers r x → (next x).Keeps P ends (P.after ph r x)

variable {ends : φ → α → Prop}

@[simp] theorem keeps_done {a : α} : (done a).Keeps P ends ph ↔ ends ph a := Iff.rfl

@[simp] theorem keeps_ask {r : Request} {next : r.Reply → Plan α} :
    (ask r next).Keeps P ends ph ↔ P.asks ph r ∧ ∀ x, P.answers r x → (next x).Keeps P ends (P.after ph r x) := Iff.rfl

/-- the second plan takes over in the phase in which the first one ends -/
@[simp] theorem keeps_bind {ends : φ → β → Prop} {p : Plan α} {k : α → Plan β} :
    (p.bind k).Keeps P ends ph ↔ p.Keeps P (fun ph a => (k a).Keeps P ends ph) ph := by
  induction p generalizing ph with
  | done a => rfl
  | ask r next ih => exact and_congr_right fun _ => forall_congr' fun x => imp_congr_right fun _ => ih x

/-- less may be promised about the end -/
theorem Keeps.mono {ends' : φ → α → Prop} {p : Plan α} (h : p.Keeps P ends ph)
    (hends : ∀ ph a, ends ph a → ends' ph a) : p.Keeps P ends' ph := by
  induction p generalizing ph with
  | done a => exact hends ph a h
  | ask r next ih => exact ⟨h.1, fun x hx => ih x (h.2 x hx)⟩

/-- two promises about the end hold together -/
theorem Keeps.and {ends' : φ → α → Prop} {p : Plan α} (h : p.Keeps P ends ph) (h' : p.Keeps P ends' ph) :
    p.Keeps P (fun ph a => ends ph a ∧ ends' ph a) ph := by
  induction p generalizing ph with
  | done a => exact ⟨h, h'⟩
  | ask r next ih => exact ⟨h.1, fun x hx => ih x (h.2 x hx) (h'.2 x hx)⟩

/-- a plan keeps to another protocol too, if that one asks no more of it wherever the two can be together -/
theorem Keeps.simulated {ψ : Type} {Q : Protocol ψ} {ends' : ψ → α → Prop} {p : Plan α} {ps : ψ} (rel : φ → ψ → Prop)
    (hasks : ∀ ph ps r, rel ph ps → P.asks ph r → Q.asks ps r) (hanswers : ∀ r x, Q.answers r x → P.answers r x)
    (hafter : ∀ ph ps r x, rel ph ps → P.asks ph r → Q.answers r x → rel (P.after ph r x) (Q.after ps r x))
    (hends : ∀ ph ps a, rel ph ps → ends ph a → ends' ps a) (h : p.Keeps P ends ph) (hrel : rel ph ps) :
    p.Keeps Q ends' ps := by
  induction p generalizing ph ps with
  | done a => exact hends ph ps a hrel h
  | ask r next ih =>
    obtain ⟨hr, hnext⟩ := h
    exact ⟨hasks ph ps r hrel hr, fun x hx => ih x (hnext x (hanswers r x hx)) (hafter ph ps r x hrel hr hx)⟩

/-- counting keeps to a protocol that lets metrics be counted -/
theorem keeps_counting {ends : φ → Unit → Prop} (metrics : List Metric)
    (hcount : ∀ m, P.asks ph (.count m) ∧ P.after ph (.count m) () = ph) (h : ends ph ()) :
    (counting metrics).Keeps P ends ph := by
  induction metrics with
  | nil => exact h
  | cons m metrics ih =>
    refine ⟨(hcount m).1, fun _ _ => ?_⟩
    rw [(hcount m).2]
    exact ih

/-- **Invariants of a run.** What every allowed request keeps, in a world that replies as expected, a run keeps to its end,
and the end is as promised. -/
theorem Keeps.run {σ : Type} {w : World σ} {inv : φ → σ → Prop} {p : Plan α} {s : σ}
    (hw : ∀ ph r s, inv ph s → P.asks ph r → P.answers r (w r s).1 ∧ inv (P.after ph r (w r s).1) (w r s).2)
    (h : p.Keeps P ends ph) (hi : inv ph s) : ∃ ph', ends ph' (p.run w s).1 ∧ inv ph' (p.run w s).2 := by
  induction p generalizing ph s with
  | done a => exact ⟨ph, h, hi⟩
  | ask r next ih =>
    obtain ⟨hasks, hnext⟩ := h
    obtain ⟨hanswer, hinv⟩ := hw ph r s hi hasks
    exact ih _ (hnext _ hanswer) hinv

end Plan

namespace Task

variable {ends : φ → Ending α → Prop}

/-- what has to hold of the end of a task for the next one to take over: an end without a value is the end of both -/
def Passes (P : Protocol φ) (ends : φ → Ending β → Prop) (k : α → Task β) (ph : φ) : Ending α → Prop
  | .value a => (k a).plan.Keeps P ends ph
  | .failure f => ends ph (.failure f)
  | .fault f => ends ph (.fault f)
  | .silence => ends ph .silence

theorem keeps_bind {ends : φ → Ending β → Prop} {t : Task α} {k : α → Task β} :
    (t >>= k).plan.Keeps P ends ph ↔ t.plan.Keeps P (Passes P ends k) ph := by
  refine Plan.keeps_bind.trans (iff_of_eq (congrArg (fun e => Plan.Keeps P e t ph) ?_))
  funext ph' e
  cases e <;> rfl

@[simp] theorem keeps_stop {e : Ending α} : (stop e).plan.Keeps P ends ph ↔ ends ph e := Iff.rfl

@[simp] theorem keeps_fail {f : Failure} : (fail f : Task α).plan.Keeps P ends ph ↔ ends ph (.failure f) := Iff.rfl

theorem keeps_ite {c : Prop} [Decidable c] {t u : Task α} (ht : c → t.plan.Keeps P ends ph)
    (hu : ¬c → u.plan.Keeps P ends ph) : (if c then t else u).plan.Keeps P ends ph := by
  split
  · exact ht ‹c›
  · exact hu ‹¬c›

theorem keeps_orFail {f : Failure} {o : Option α} :
    (orFail f o).plan.Keeps P ends ph ↔
      (o = none → ends ph (.failure f)) ∧ ∀ a, o = some a → ends ph (.value a) := by
  cases o with
  | none => simp [orFail]
  | some a => simp [orFail]

/-- a value that must be there is, or the task ends -/
theorem orFail_keeps {ends : φ → Ending β → Prop} {f : Failure} {o : Option α} {cont : α → Task β}
    (hnone : ends ph (.failure f)) (h : ∀ a, o = some a → (cont a).plan.Keeps P ends ph) :
    (orFail f o >>= cont).plan.Keeps P ends ph :=
  keeps_bind.2 (keeps_orFail.2 ⟨fun _ => hnone, h⟩)

theorem keeps_unless? {ends : φ → Ending Unit → Prop} {o : Option Failure} :
    (unless? o).plan.Keeps P ends ph ↔
      (o = none → ends ph (.value ())) ∧ ∀ f, o = some f → ends ph (.failure f) := by
  cases o with
  | none => simp [unless?]
  | some f => simp [unless?]

/-- input is checked first: complaints end the task -/
theorem checked_keeps {ends : φ → Ending β → Prop} {cs : List Complaint} {cont : Unit → Task β}
    (hcomplaints : ∀ m, ends ph (.failure (.validation m))) (h : cs = [] → (cont ()).plan.Keeps P ends ph) :
    (unless? (Validation.failure? cs) >>= cont).plan.Keeps P ends ph := by
  cases cs with
  | nil => exact h rfl
  | cons c cs => exact hcomplaints _

theorem keeps_ofOutcome {refusal : ε → Refusal} {x : Outcome ε α} :
    (ofOutcome refusal x).plan.Keeps P ends ph ↔
      (∀ a, x = .ok a → ends ph (.value a)) ∧ (∀ e, x = .refused e → ends ph (.failure (.domain (refusal e)))) ∧
        ∀ f, x = .fault f → ends ph (.fault f) := by
  cases x with
  | ok a => simp [ofOutcome]
  | refused e => simp [ofOutcome]
  | fault f => simp [ofOutcome]

/-- a domain operation is granted, or it ends the task -/
theorem ofOutcome_keeps {ends : φ → Ending β → Prop} {refusal : ε → Refusal} {x : Outcome ε α} {cont : α → Task β}
    (hrefused : ∀ e, ends ph (.failure (.domain (refusal e)))) (hfault : ∀ f, ends ph (.fault f))
    (h : ∀ a, x = .ok a → (cont a).plan.Keeps P ends ph) : (ofOutcome refusal x >>= cont).plan.Keeps P ends ph :=
  keeps_bind.2 (keeps_ofOutcome.2 ⟨h, fun e _ => hrefused e, fun f _ => hfault f⟩)

theorem keeps_counted {metrics : Ending α → List Metric} {t : Task α} :
    (counted metrics t).plan.Keeps P ends ph ↔
      t.plan.Keeps P (fun ph e => (Plan.counting (metrics e)).Keeps P (fun ph _ => ends ph e) ph) ph := by
  refine Plan.keeps_bind.trans (iff_of_eq (congrArg (fun e => Plan.Keeps P e t ph) ?_))
  funext ph' e
  exact propext Plan.keeps_bind

theorem counted_keeps [P.Counting] {metrics : Ending α → List Metric} {t : Task α} (h : t.plan.Keeps P ends ph) :
    (counted metrics t).plan.Keeps P ends ph :=
  keeps_counted.2 (h.mono fun ph _ he => Plan.keeps_counting _ (Protocol.Counting.count ph) he)

theorem count_keeps [P.Counting] {ends : φ → Ending β → Prop} {m : Metric} {cont : Unit → Task β}
    (h : (cont ()).plan.Keeps P ends ph) : (count m >>= cont).plan.Keeps P ends ph := by
  obtain ⟨hasks, hafter⟩ := Protocol.Counting.count (P := P) ph m
  refine keeps_bind.2 ⟨hasks, fun _ _ => ?_⟩
  rw [hafter]
  exact h

theorem keeps_mapFailure {g : Failure → Failure} {t : Task α} :
    (mapFailure g t).plan.Keeps P ends ph ↔
      t.plan.Keeps P (fun ph e => ends ph (match e with | .failure f => .failure (g f) | e => e)) ph := by
  refine Plan.keeps_bind.trans (iff_of_eq (congrArg (fun e => Plan.Keeps P e t ph) ?_))
  funext ph' e
  cases e <;> rfl

end Task

end Brigade
