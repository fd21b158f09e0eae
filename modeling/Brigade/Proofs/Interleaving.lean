/-
Several clients at one world, taking turns in any order.

Every client follows a plan of its own. In its turn it makes the next request of that plan, and the world answers at
once, so a turn is one atomic step and a schedule, a list of client numbers, decides how the steps of the clients
interleave. The log keeps every request with its reply. A client that is alone gets the answer that `Plan.run` gives
(`interleave_alone`).

`kept_interleave`: if every plan keeps to its protocol, and every request that the protocols allow keeps an invariant of
the world and the log, then every schedule keeps the invariant, and every client is in the phase that the log tells.
-/
import Brigade.Proofs.Protocol

namespace Brigade

/-! ## Turns -/

/-- a request of a client, and what it was answered -/
structure Exchange where
  client : Nat
  request : Request
  reply : request.Reply

/-- clients at a world: what each still has to do, the world, and all exchanges, oldest first -/
structure Sessions (α σ : Type) where
  plans : List (Plan α)
  world : σ
  log : List Exchange

namespace Sessions

variable {α σ φ : Type}

/-- the clients before the first turn -/
def start (plans : List (Plan α)) (s : σ) : Sessions α σ := ⟨plans, s, []⟩

/-- one client makes its next request; a client that is done, or unknown, does nothing -/
def turn (w : World σ) (s : Sessions α σ) (n : Nat) : Sessions α σ :=
  match s.plans[n]? with
  | some (.ask r next) =>
    ⟨s.plans.set n (next (w r s.world).1), (w r s.world).2, s.log ++ [⟨n, r, (w r s.world).1⟩]⟩
  | _ => s

/-- turns in the order of a schedule -/
def interleave (w : World σ) (schedule : List Nat) (s : Sessions α σ) : Sessions α σ := schedule.foldl (turn w) s

/-- a client has done all it has to, with this end -/
def Ended (s : Sessions α σ) (n : Nat) (a : α) : Prop := s.plans[n]? = some (.done a)

variable {w : World σ}

theorem turn_of_ask {s : Sessions α σ} {n : Nat} {r : Request} {next : r.Reply → Plan α}
    (h : s.plans[n]? = some (.ask r next)) :
    s.turn w n =
      ⟨s.plans.set n (next (w r s.world).1), (w r s.world).2, s.log ++ [⟨n, r, (w r s.world).1⟩]⟩ := by
  unfold turn
  rw [h]

/-- a turn does nothing, or is an exchange -/
theorem turn_cases (w : World σ) (s : Sessions α σ) (n : Nat) :
    s.turn w n = s ∨ ∃ r next, s.plans[n]? = some (.ask r next) ∧
      s.turn w n =
        ⟨s.plans.set n (next (w r s.world).1), (w r s.world).2, s.log ++ [⟨n, r, (w r s.world).1⟩]⟩ := by
  cases h : s.plans[n]? with
  | none => left; unfold turn; rw [h]
  | some p =>
    cases p with
    | done a => left; unfold turn; rw [h]
    | ask r next => exact .inr ⟨r, next, rfl, turn_of_ask h⟩

@[simp] theorem length_turn (w : World σ) (s : Sessions α σ) (n : Nat) :
    (s.turn w n).plans.length = s.plans.length := by
  obtain h | ⟨r, next, -, h⟩ := turn_cases w s n
  · rw [h]
  · rw [h]
    exact List.length_set

/-- a client that takes all turns ends as its plan run by itself ends, and leaves the world as that run does -/
theorem interleave_alone (w : World σ) (p : Plan α) (s : Sessions α σ) (n : Nat) (h : s.plans[n]? = some p) :
    ∃ turns, (s.interleave w (List.replicate turns n)).plans = s.plans.set n (.done (p.run w s.world).1) ∧
      (s.interleave w (List.replicate turns n)).world = (p.run w s.world).2 := by
  induction p generalizing s with
  | done a =>
    refine ⟨0, ?_, rfl⟩
    obtain ⟨hn, hp⟩ := List.getElem?_eq_some_iff.1 h
    rw [Plan.run_done, ← hp, List.set_getElem_self]
    rfl
  | ask r next ih =>
    obtain ⟨hn, -⟩ := List.getElem?_eq_some_iff.1 h
    have hnext : (s.turn w n).plans[n]? = some (next (w r s.world).1) := by
      rw [turn_of_ask h]
      exact List.getElem?_set_self hn
    obtain ⟨turns, hplans, hworld⟩ := ih _ (s.turn w n) hnext
    refine ⟨turns + 1, ?_, ?_⟩
    · rw [List.replicate_succ]
      refine hplans.trans ?_
      rw [turn_of_ask h, List.set_set, Plan.run_ask]
    · rw [List.replicate_succ]
      refine hworld.trans ?_
      rw [turn_of_ask h, Plan.run_ask]

/-! ## Invariants -/

/-- the phase of a client, as the log tells it -/
def phase (P : Protocol φ) (n : Nat) (log : List Exchange) : φ :=
  log.foldl (fun ph e => if e.client = n then P.after ph e.request e.reply else ph) P.first

theorem phase_snoc_self (P : Protocol φ) (n : Nat) (log : List Exchange) (r : Request) (x : r.Reply) :
    phase P n (log ++ [⟨n, r, x⟩]) = P.after (phase P n log) r x := by
  simp [phase, List.foldl_append]

theorem phase_snoc_of_ne (P : Protocol φ) {n : Nat} (log : List Exchange) {e : Exchange} (h : e.client ≠ n) :
    phase P n (log ++ [e]) = phase P n log := by
  simp [phase, List.foldl_append, h]

/-- every client keeps to its protocol from its phase on, and the invariant holds -/
structure Kept (P : Nat → Protocol φ) (ends : Nat → φ → α → Prop) (inv : σ → List Exchange → Prop)
    (s : Sessions α σ) : Prop where
  keeps : ∀ n (p : Plan α), s.plans[n]? = some p → p.Keeps (P n) (ends n) (phase (P n) n s.log)
  holds : inv s.world s.log

/-- before the first turn, every plan has to keep to its protocol from the first phase on -/
theorem kept_start {P : Nat → Protocol φ} {ends : Nat → φ → α → Prop} {inv : σ → List Exchange → Prop}
    {plans : List (Plan α)} {s : σ} (hk : ∀ n (p : Plan α), plans[n]? = some p → p.Keeps (P n) (ends n) (P n).first)
    (hi : inv s []) : Kept P ends inv (start plans s) := ⟨hk, hi⟩

/-- the world gives only expected replies while the invariant holds, and requests that a protocol allows keep it -/
def Preserved (w : World σ) (P : Nat → Protocol φ) (inv : σ → List Exchange → Prop) : Prop :=
  ∀ s log n r, inv s log → (P n).asks (phase (P n) n log) r →
    (P n).answers r (w r s).1 ∧ inv (w r s).2 (log ++ [⟨n, r, (w r s).1⟩])

variable {P : Nat → Protocol φ} {ends : Nat → φ → α → Prop} {inv : σ → List Exchange → Prop}

theorem kept_turn (hp : Preserved w P inv) {s : Sessions α σ} (h : Kept P ends inv s) (n : Nat) :
    Kept P ends inv (s.turn w n) := by
  obtain heq | ⟨r, next, hn, heq⟩ := turn_cases w s n
  · rw [heq]
    exact h
  · rw [heq]
    obtain ⟨hasks, hnext⟩ := h.keeps n _ hn
    obtain ⟨hanswer, hinv⟩ := hp s.world s.log n r h.holds hasks
    refine ⟨fun m p hm => ?_, hinv⟩
    by_cases hmn : n = m
    · subst hmn
      obtain ⟨hlen, -⟩ := List.getElem?_eq_some_iff.1 hn
      obtain rfl := Option.some.inj ((List.getElem?_set_self hlen).symm.trans hm)
      rw [phase_snoc_self]
      exact hnext _ hanswer
    · rw [phase_snoc_of_ne (P m) s.log hmn]
      exact h.keeps m p ((List.getElem?_set_ne hmn).symm.trans hm)

/-- **Invariants of interleavings.** What every allowed request keeps, every schedule keeps. -/
theorem kept_interleave (hp : Preserved w P inv) {s : Sessions α σ} (h : Kept P ends inv s) (schedule : List Nat) :
    Kept P ends inv (s.interleave w schedule) := by
  induction schedule generalizing s with
  | nil => exact h
  | cons n schedule ih => exact ih (kept_turn hp h n)

theorem length_interleave (w : World σ) (schedule : List Nat) (s : Sessions α σ) :
    (s.interleave w schedule).plans.length = s.plans.length := by
  induction schedule generalizing s with
  | nil => rfl
  | cons n schedule ih => exact (ih (s.turn w n)).trans (length_turn w s n)

end Sessions

end Brigade
