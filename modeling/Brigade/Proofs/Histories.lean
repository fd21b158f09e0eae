/-
What each client of a world has been through.

The log of several clients holds the history of each: what it asked and was replied, in order (`own`). A client stands
where its history leads its plan (`path_interleave`), in the phase that the history leads to (`phase_eq_afterAll`,
`keeps_interleave`). What every exchange keeps holds of every schedule (`holds_interleave`). A log and its schedule are cut
together (`cut_interleave`), and a client that makes a bounded number of requests is done after as many turns
(`ended_interleave`).
-/
import Mathlib.Data.List.Induction
import Brigade.Proofs.First
import Brigade.Proofs.Interleaving
import Brigade.Proofs.Paths

namespace Brigade

namespace Plan

variable {α : Type} {p q : Plan α} {log more : List Answered}

/-- one more reply -/
theorem Path.snoc {r : Request} {next : r.Reply → Plan α} (h : p.Path log (.ask r next)) (x : r.Reply) :
    p.Path (log ++ [⟨r, x⟩]) (next x) := h.append (.ask (.stay _))

/-- at most so many requests are made, whatever is replied -/
def Within : Nat → Plan α → Prop
  | _, .done _ => True
  | 0, .ask _ _ => False
  | k + 1, .ask _ next => ∀ x, (next x).Within k

end Plan

namespace Sessions

variable {α σ φ : Type} {w : World σ} {plans : List (Plan α)} {s : σ} {schedule : List Nat}

/-! ## Histories -/

/-- what one client asked and was replied -/
def own (n : Nat) (log : List Exchange) : List Answered :=
  (log.filter (·.client == n)).map fun e => ⟨e.request, e.reply⟩

theorem own_append (n : Nat) (log more : List Exchange) : own n (log ++ more) = own n log ++ own n more := by
  simp [own]

theorem own_cons_self (n : Nat) (r : Request) (x : r.Reply) (log : List Exchange) :
    own n (⟨n, r, x⟩ :: log) = ⟨r, x⟩ :: own n log := by
  simp [own]

theorem own_cons_of_ne {n : Nat} {e : Exchange} (h : e.client ≠ n) (log : List Exchange) :
    own n (e :: log) = own n log := by
  simp [own, h]

theorem own_snoc_self (n : Nat) (r : Request) (x : r.Reply) (log : List Exchange) :
    own n (log ++ [⟨n, r, x⟩]) = own n log ++ [⟨r, x⟩] := by
  rw [own_append, own_cons_self]
  rfl

theorem own_snoc_of_ne {n : Nat} {e : Exchange} (h : e.client ≠ n) (log : List Exchange) :
    own n (log ++ [e]) = own n log := by
  rw [own_append, own_cons_of_ne h]
  exact List.append_nil _

/-- what a client was replied is in the log -/
theorem exists_of_mem_own {n : Nat} {log : List Exchange} {r : Request} {x : r.Reply} (h : ⟨r, x⟩ ∈ own n log) :
    ∃ pre post, log = pre ++ ⟨n, r, x⟩ :: post := by
  obtain ⟨⟨m, r', x'⟩, he, heq⟩ := List.mem_map.1 h
  obtain ⟨hmem, hn⟩ := List.mem_filter.1 he
  obtain rfl : m = n := by simpa using hn
  cases heq
  exact List.append_of_mem hmem

/-- the phase of a client is the one that its history leads to -/
theorem phase_eq_afterAll (P : Protocol φ) (n : Nat) (log : List Exchange) :
    phase P n log = P.afterAll P.first (own n log) := by
  unfold phase
  generalize P.first = ph
  induction log generalizing ph with
  | nil => rfl
  | cons e log ih =>
    obtain ⟨m, r, x⟩ := e
    rw [List.foldl_cons]
    by_cases h : m = n
    · subst h
      rw [own_cons_self, if_pos rfl]
      exact ih _
    · rw [own_cons_of_ne h, if_neg h]
      exact ih _

/-- a phase that no reply changes is the last one -/
theorem phase_append_of_last {P : Protocol φ} {n : Nat} {log : List Exchange} {ph : φ}
    (hlast : ∀ r x, P.after ph r x = ph) (h : phase P n log = ph) (more : List Exchange) :
    phase P n (log ++ more) = ph := by
  induction more using List.reverseRecOn with
  | nil => rwa [List.append_nil]
  | append_singleton more e ih =>
    obtain ⟨m, r, x⟩ := e
    rw [← List.append_assoc]
    by_cases hm : m = n
    · subst hm
      rw [phase_snoc_self, ih]
      exact hlast r x
    · rw [phase_snoc_of_ne P _ hm, ih]

/-- what others ask and are replied leaves the phase of a client alone -/
theorem phase_append_of_others (P : Protocol φ) {n : Nat} {log more : List Exchange} (h : ∀ e ∈ more, e.client ≠ n) :
    phase P n (log ++ more) = phase P n log := by
  induction more using List.reverseRecOn with
  | nil => rw [List.append_nil]
  | append_singleton more e ih =>
    obtain ⟨hmore, he⟩ := List.forall_mem_append.1 h
    rw [← List.append_assoc, phase_snoc_of_ne P _ (he e (List.mem_singleton.2 rfl)), ih hmore]

/-! ## Schedules -/

theorem interleave_snoc (w : World σ) (schedule : List Nat) (n : Nat) (s : Sessions α σ) :
    s.interleave w (schedule ++ [n]) = (s.interleave w schedule).turn w n := by
  simp [interleave, List.foldl_append]

/-- what every exchange keeps holds of every schedule -/
theorem holds_interleave {inv : σ → List Exchange → Prop} (hstart : inv s [])
    (hturn : ∀ s log n r, inv s log → inv (w r s).2 (log ++ [⟨n, r, (w r s).1⟩])) :
    inv ((start plans s).interleave w schedule).world ((start plans s).interleave w schedule).log := by
  induction schedule using List.reverseRecOn with
  | nil => exact hstart
  | append_singleton schedule n ih =>
    rw [interleave_snoc]
    obtain h | ⟨r, next, -, h⟩ := turn_cases w ((start plans s).interleave w schedule) n
    · rwa [h]
    · rw [h]
      exact hturn _ _ n r ih

/-- a client stands where its history leads -/
theorem path_interleave {n : Nat} {p : Plan α} (h : plans[n]? = some p) :
    ∃ q, ((start plans s).interleave w schedule).plans[n]? = some q ∧
      p.Path (own n ((start plans s).interleave w schedule).log) q := by
  induction schedule using List.reverseRecOn with
  | nil => exact ⟨p, h, .stay p⟩
  | append_singleton schedule m ih =>
    obtain ⟨q, hq, path⟩ := ih
    rw [interleave_snoc]
    obtain heq | ⟨r, next, hm, heq⟩ := turn_cases w ((start plans s).interleave w schedule) m
    · rw [heq]
      exact ⟨q, hq, path⟩
    · rw [heq]
      change ∃ q, (List.set _ m _)[n]? = some q ∧ p.Path (own n (_ ++ [_])) q
      by_cases hmn : m = n
      · subst hmn
        obtain rfl := Option.some.inj (hm.symm.trans hq)
        obtain ⟨hlen, -⟩ := List.getElem?_eq_some_iff.1 hm
        refine ⟨_, List.getElem?_set_self hlen, ?_⟩
        rw [own_snoc_self]
        exact path.snoc _
      · refine ⟨q, (List.getElem?_set_ne hmn).trans hq, ?_⟩
        rw [own_snoc_of_ne hmn]
        exact path

/-- a client keeps to its protocol wherever it stands, in the phase that the log tells -/
theorem keeps_interleave {P : Protocol φ} {ends : φ → α → Prop} {n : Nat} {p : Plan α} (h : plans[n]? = some p)
    (hp : p.Keeps P ends P.first) (hw : ∀ r s, P.answers r (w r s).1) :
    ∃ q, ((start plans s).interleave w schedule).plans[n]? = some q ∧
      q.Keeps P ends (phase P n ((start plans s).interleave w schedule).log) := by
  obtain ⟨q, hq, path⟩ : ∃ q, ((start plans s).interleave w schedule).plans[n]? = some q ∧
      p.Path (own n ((start plans s).interleave w schedule).log) q := path_interleave h
  have hkept : ∀ (s : σ) (log : List Exchange) (m : Nat) (r : Request), (∀ e ∈ log, P.answers e.request e.reply) →
      ∀ e ∈ log ++ [⟨m, r, (w r s).1⟩], P.answers e.request e.reply := by
    intro s log m r hlog e he
    rcases List.mem_append.1 he with he | he
    · exact hlog e he
    · obtain rfl := List.mem_singleton.1 he
      exact hw r s
  have hanswered : ∀ e ∈ ((start plans s).interleave w schedule).log, P.answers e.request e.reply :=
    holds_interleave (fun _ he => nomatch he) hkept
  refine ⟨q, hq, ?_⟩
  rw [phase_eq_afterAll]
  refine hp.along path fun x hx => ?_
  obtain ⟨e, he, rfl⟩ := List.mem_map.1 hx
  exact hanswered e (List.mem_filter.1 he).1

/-! ## Cuts -/

/-- what has happened stays in the log -/
theorem log_prefix_interleave (w : World σ) (s : Sessions α σ) {front : List Nat} (h : front <+: schedule) :
    (s.interleave w front).log <+: (s.interleave w schedule).log := by
  obtain ⟨rest, rfl⟩ := h
  induction rest using List.reverseRecOn with
  | nil => rw [List.append_nil]
  | append_singleton rest n ih =>
    rw [← List.append_assoc, interleave_snoc]
    obtain h | ⟨r, next, -, h⟩ := turn_cases w (s.interleave w (front ++ rest)) n
    · rwa [h]
    · rw [h]
      exact ih.trans (List.prefix_append _ _)

/-- a log that is cut before an exchange cuts the schedule before the turn in which it happened -/
theorem cut_interleave {pre post : List Exchange} {n : Nat} {r : Request} {x : r.Reply}
    (h : ((start plans s).interleave w schedule).log = pre ++ ⟨n, r, x⟩ :: post) :
    ∃ front, front ++ [n] <+: schedule ∧ ((start plans s).interleave w front).log = pre ∧
      (∃ next, ((start plans s).interleave w front).plans[n]? = some (.ask r next)) ∧
      x = (w r ((start plans s).interleave w front).world).1 := by
  induction schedule using List.reverseRecOn generalizing post with
  | nil => simp [interleave, start] at h
  | append_singleton schedule m ih =>
    rw [interleave_snoc] at h
    obtain heq | ⟨r', next, hm, heq⟩ := turn_cases w ((start plans s).interleave w schedule) m
    · rw [heq] at h
      obtain ⟨front, hfront, rest⟩ := ih h
      exact ⟨front, hfront.trans (List.prefix_append _ _), rest⟩
    · rw [heq] at h
      obtain ⟨rfl, he, rfl⟩ | ⟨post', rfl, hbefore⟩ := split_snoc h
      · cases he
        exact ⟨schedule, List.prefix_refl _, rfl, ⟨next, hm⟩, rfl⟩
      · obtain ⟨front, hfront, rest⟩ := ih hbefore
        exact ⟨front, hfront.trans (List.prefix_append _ _), rest⟩

/-! ## Turns enough -/

/-- a client with a plan of at most so many requests is done after as many turns -/
theorem ended_interleave {n k : Nat} {p : Plan α} (hp : p.Within k) {s : Sessions α σ} (h : s.plans[n]? = some p)
    (hturns : k ≤ schedule.count n) : ∃ a, (s.interleave w schedule).Ended n a := by
  induction schedule generalizing s p k with
  | nil =>
    obtain rfl : k = 0 := by simpa using hturns
    cases p with
    | done a => exact ⟨a, h⟩
    | ask r next => exact hp.elim
  | cons m schedule ih =>
    change ∃ a, ((s.turn w m).interleave w schedule).Ended n a
    by_cases hmn : m = n
    · subst hmn
      rw [List.count_cons_self] at hturns
      cases p with
      | done a =>
        have hdone : s.turn w m = s := by
          unfold turn
          rw [h]
        rw [hdone]
        exact ih (k := 0) (p := .done a) trivial h (Nat.zero_le _)
      | ask r next =>
        obtain ⟨hlen, -⟩ := List.getElem?_eq_some_iff.1 h
        have hnext : (s.turn w m).plans[m]? = some (next (w r s.world).1) := by
          rw [turn_of_ask h]
          exact List.getElem?_set_self hlen
        cases k with
        | zero => exact hp.elim
        | succ k => exact ih (hp _) hnext (Nat.le_of_succ_le_succ hturns)
    · rw [List.count_cons_of_ne hmn] at hturns
      have hsame : (s.turn w m).plans[n]? = some p := by
        obtain heq | ⟨r, next, -, heq⟩ := turn_cases w s m
        · rwa [heq]
        · rw [heq]
          exact (List.getElem?_set_ne hmn).trans h
      exact ih hp hsame hturns

end Sessions

end Brigade
