/-
Changing a goal set in the face of any replies: which tries are made, and how that ends.

A repository may reply anything. A `Try` is what one try asked and how far it came; its end is read off it. The course of
a change is a list of tries, all but the last of which met a stale write (`Course`), and the plan that changes a goal set
takes such a course whatever is replied (`modify_keeps_course`).
- `modify_tries`: what a change asks of the store, how often, and with which end, for every policy and transition, and
  where the result of adding a goal comes from.
Nothing is assumed about the replies but that nobody gives the cancel signal.
-/
import Brigade.Command
import Brigade.Proofs.Paths

namespace Brigade

/-- what is made of the value of an ending, if it has one -/
def Ending.andThen {α β : Type} (k : α → Ending β) : Ending α → Ending β
  | .value a => k a
  | .failure f => .failure f
  | .fault f => .fault f
  | .silence => .silence

/-! ## Records -/

/-- a call of the store, or a draw of an identity or of the time -/
def Request.isWork : Request → Bool
  | .get _ _ | .list _ | .add _ _ | .update _ _ | .freshId | .clock => true
  | .publish _ | .count _ | .isCancelled | .pause _ => false

/-- the work in a record -/
def work (log : List Answered) : List Answered := log.filter (·.request.isWork)

/-- the call comes back, and there is no cancel signal -/
def Uncancelled : (r : Request) → r.Reply → Prop
  | .get _ _, x => x ≠ .silence
  | .list _, x => x ≠ .silence
  | .add _ _, x => x ≠ .silence
  | .update _ _, x => x ≠ .silence
  | .isCancelled, x => x = false
  | .pause _, x => x = false
  | .publish _, _ | .count _, _ | .freshId, _ | .clock, _ => True

theorem work_append (log more : List Answered) : work (log ++ more) = work log ++ work more := List.filter_append ..

/-- a request that is no work leaves the work in a record as it is -/
theorem work_after {r : Request} (h : r.isWork = false) (log : List Answered) (x : r.Reply) :
    work ((Protocol.record Uncancelled).after log r x) = work log := by
  simp [Protocol.record, work, List.filter_append, h]

/-- a fetch of a goal set -/
def Answered.fetches : Answered → Bool
  | ⟨.get .goalSet _, _⟩ => true
  | _ => false

/-- an update of a goal set that is granted -/
def Answered.grants : Answered → Bool
  | ⟨.update .goalSet _, .value _⟩ => true
  | _ => false

/-! ## Transitions -/

/-- identities and times may be drawn, and nothing else may be asked -/
def Protocol.drawing : Protocol Unit where
  first := ()
  asks _ r := r = .freshId ∨ r = .clock
  answers _ _ := True
  after _ _ _ := ()

/-- an end of pure work: a value, a refusal of the domain, or a fault -/
def Ending.OfDomain {α : Type} : Ending α → Prop
  | .value _ | .fault _ => True
  | .failure f => ∃ r, f = .domain r
  | .silence => False

variable {α σ : Type} {p : RetryPolicy} {i : Id} {transition : GoalSet → Task (GoalSet × α)}

/-- a transition draws what it needs, and works on the set by itself -/
def IsTransition (transition : GoalSet → Task (GoalSet × α)) : Prop :=
  ∀ s, (transition s).plan.Keeps .drawing (fun _ e => e.OfDomain) ()

/-- everything on a path of such a plan is a draw -/
theorem Plan.Keeps.draws {ends : Unit → α → Prop} {p q : Plan α} {log : List Answered} (h : p.Keeps .drawing ends ())
    (path : p.Path log q) : ∀ x ∈ log, x.request = .freshId ∨ x.request = .clock := by
  induction path with
  | stay p => exact fun x hx => nomatch hx
  | ask rest ih => exact List.forall_mem_cons.2 ⟨h.1, ih (h.2 _ trivial)⟩

theorem isTransition_plain (f : GoalSet → Outcome GoalSetError GoalSet) : IsTransition (GoalCommand.plain f) := by
  intro s
  exact Task.keeps_bind.2 (Task.keeps_ofOutcome.2 ⟨fun t _ => trivial, fun e _ => ⟨_, rfl⟩, fun f _ => trivial⟩)

theorem isTransition_addGoal (c : AddGoal) (v : GoalValue) : IsTransition (c.transition v) := by
  intro s
  refine Task.keeps_bind.2 ⟨.inl rfl, fun i _ => ?_⟩
  exact Task.keeps_bind.2 (Task.keeps_ofOutcome.2 ⟨fun t _ => trivial, fun e _ => ⟨_, rfl⟩, fun f _ => trivial⟩)

/-! ## Tries -/

/-- one try at a change: how far it came, and which replies it got -/
inductive Try (α : Type) where
  /-- the fetch gave no set -/
  | missed (x : Ending (Option GoalSet))
  /-- the transition of the set `s` that was fetched ended without a value -/
  | refused (s : GoalSet) (drawn : List Answered) (e : Ending (GoalSet × α))
  /-- the transition of `s` gave `t` and `a`, and `x` was replied to the update -/
  | wrote (s : GoalSet) (drawn : List Answered) (t : GoalSet) (a : α) (x : Ending GoalSet)

namespace Try

/-- what a try asked, and what was replied -/
def log (i : Id) : Try α → List Answered
  | missed x => [⟨.get .goalSet i, x⟩]
  | refused s drawn _ => [⟨.get .goalSet i, .value (some s)⟩] ++ drawn
  | wrote s drawn t _ x => [⟨.get .goalSet i, .value (some s)⟩] ++ drawn ++ [⟨.update .goalSet t, x⟩]

/-- how a try ended -/
def ending : Try α → Ending (GoalSet × α)
  | missed x => x.andThen fun _ => .failure (.notFound "Goal set not found")
  | refused _ _ e => e
  | wrote _ _ _ a x => x.andThen fun t => .value (t, a)

/-- the replies that the try drew lead the transition of the very set it fetched to what the try made of it -/
def Sound (transition : GoalSet → Task (GoalSet × α)) : Try α → Prop
  | missed x => ∀ s, x ≠ .value (some s)
  | refused s drawn e => (transition s).plan.Path drawn (.done e) ∧ ∀ p, e ≠ .value p
  | wrote s drawn t a _ => (transition s).plan.Path drawn (.done (.value (t, a)))

/-- the try met a stale write -/
def Stale (y : Try α) : Prop := ∃ j, y.ending = .failure (.staleWrite j)

variable {y : Try α}

theorem stale_iff_retryable {f : Failure} (h : y.ending = .failure f) : y.Stale ↔ f.retryable = true := by
  rw [Failure.retryable_iff_staleWrite, Stale, h]
  simp

/-- a try that ends with a value made the update that gave it -/
theorem eq_wrote_of_value {t : GoalSet} {a : α} (h : y.Sound transition) (he : y.ending = .value (t, a)) :
    ∃ s drawn c, y = .wrote s drawn c a (.value t) := by
  cases y with
  | missed x => cases x <;> cases he
  | refused s drawn e => exact absurd he (h.2 _)
  | wrote s drawn c b x =>
    cases x with
    | value u =>
      obtain ⟨rfl, rfl⟩ := Prod.mk.inj (Ending.value.inj he)
      exact ⟨s, drawn, c, rfl⟩
    | _ => cases he

variable (ht : IsTransition transition)
include ht

/-- between its fetch and its update a try only draws -/
theorem Sound.draws {s : GoalSet} {drawn : List Answered} {e : Ending (GoalSet × α)}
    (h : (transition s).plan.Path drawn (.done e)) :
    work drawn = drawn ∧ drawn.countP Answered.fetches = 0 ∧ drawn.filter Answered.grants = [] := by
  have hdraws := (ht s).draws h
  refine ⟨List.filter_eq_self.2 fun x hx => ?_, List.countP_eq_zero.2 fun x hx => ?_,
    List.filter_eq_nil_iff.2 fun x hx => ?_⟩
  all_goals
    obtain ⟨r, reply⟩ := x
    obtain rfl | rfl : r = .freshId ∨ r = .clock := hdraws _ hx
    all_goals simp [Request.isWork, Answered.fetches, Answered.grants]

/-- a try fetches once -/
theorem Sound.countP_fetches (h : y.Sound transition) : (y.log i).countP Answered.fetches = 1 := by
  cases y with
  | missed x => rfl
  | refused s drawn e =>
    rw [log, List.countP_append, (draws ht h.1).2.1]
    rfl
  | wrote s drawn t a x =>
    rw [log, List.countP_append, List.countP_append, (draws ht h).2.1]
    rfl

/-- no update of a stale try is granted -/
theorem Sound.filter_grants_of_stale (h : y.Sound transition) (hs : y.Stale) :
    (y.log i).filter Answered.grants = [] := by
  obtain ⟨j, hj⟩ := hs
  cases y with
  | missed x => rfl
  | refused s drawn e =>
    rw [log, List.filter_append, (draws ht h.1).2.2]
    rfl
  | wrote s drawn t a x =>
    rw [log, List.filter_append, List.filter_append, (draws ht h).2.2]
    cases x with
    | value u => cases hj
    | _ => rfl

/-- the update of a try that ends with a value is the one update that is granted -/
theorem Sound.filter_grants_of_value {s c t : GoalSet} {drawn : List Answered} {a : α}
    (h : (wrote s drawn c a (.value t)).Sound transition) :
    ((wrote s drawn c a (.value t)).log i).filter Answered.grants = [⟨.update .goalSet c, .value t⟩] := by
  rw [log, List.filter_append, List.filter_append, (draws ht h).2.2]
  rfl

end Try

/-! ## The course of a change -/

/-- the tries of a change that may still make `more` tries after the first one, and how it ends; `d` is the next wait -/
inductive Course (p : RetryPolicy) : (more : Nat) → Duration → List (Try α) → Ending (GoalSet × α) → Prop where
  | settled {more : Nat} {d : Duration} {y : Try α} (fresh : ¬y.Stale) : Course p more d [y] y.ending
  | spent {d : Duration} {y : Try α} (stale : y.Stale) : Course p 0 d [y] (.failure (.conflict Retry.conflictMessage))
  | again {more : Nat} {d d' : Duration} {y : Try α} {ys : List (Try α)} {e : Ending (GoalSet × α)} (stale : y.Stale)
      (wait : d.isZero = true → d' = d) (rest : Course p more d' ys e) : Course p (more + 1) d (y :: ys) e
  | halted {more : Nat} {d : Duration} {y : Try α} {f : Fault} (stale : y.Stale) (wait : d.isZero = false)
      (endless : Retry.nextDelay p d = .fault f) : Course p (more + 1) d [y] (.fault f)

/-- all tries but the last one are stale, and the last one tells the end -/
theorem Course.facts {more : Nat} {d : Duration} {ys : List (Try α)} {e : Ending (GoalSet × α)}
    (h : Course p more d ys e) :
    ∃ earlier last, ys = earlier ++ [last] ∧ (∀ y ∈ earlier, y.Stale) ∧ earlier.length ≤ more ∧
      (¬last.Stale → e = last.ending) ∧
      (last.Stale → earlier.length = more → e = .failure (.conflict Retry.conflictMessage)) ∧
      (last.Stale → earlier.length < more →
        d.isZero = false ∧ ∃ d' f, Retry.nextDelay p d' = .fault f ∧ e = .fault f) := by
  induction h with
  | settled fresh =>
    rename_i y
    exact ⟨[], y, rfl, List.forall_mem_nil _, Nat.zero_le _, fun _ => rfl, fun h => absurd h fresh,
      fun h => absurd h fresh⟩
  | spent stale =>
    rename_i y
    exact ⟨[], y, rfl, List.forall_mem_nil _, Nat.le_refl 0, fun h => absurd stale h, fun _ _ => rfl,
      fun _ h => absurd h (Nat.lt_irrefl 0)⟩
  | again stale wait rest ih =>
    rename_i more d d' y ys e
    obtain ⟨earlier, last, rfl, hearlier, hlen, hfresh, hspent, hhalted⟩ := ih
    refine ⟨y :: earlier, last, rfl, List.forall_mem_cons.2 ⟨stale, hearlier⟩, Nat.succ_le_succ hlen, hfresh,
      fun hs hl => hspent hs (Nat.succ.inj hl), fun hs hl => ?_⟩
    obtain ⟨hd, hfault⟩ := hhalted hs (Nat.lt_of_succ_lt_succ hl)
    -- a wait of zero stays zero
    refine ⟨Bool.eq_false_iff.2 fun hzero => ?_, hfault⟩
    rw [wait hzero, hzero] at hd
    cases hd
  | halted stale wait endless =>
    rename_i more d y f
    exact ⟨[], y, rfl, List.forall_mem_nil _, Nat.zero_le _, fun h => absurd stale h,
      fun _ h => absurd h.symm (Nat.succ_ne_zero more), fun _ _ => ⟨wait, d, f, endless, rfl⟩⟩

/-! ## What the plan does -/

/-- how the end of trying ends a task on `i` -/
def RetryEnd.ending (i : Id) : RetryEnd α → Ending α
  | .ok a => .value a
  | .fatal f => .failure f
  | .exhausted _ _ => .failure (.conflict Retry.conflictMessage)
  | .cancelled _ => .failure (.cancelled ("Operation on " ++ i.text ++ " was cancelled"))
  | .fault f => .fault f

/-- a sound try was made after `log`, and `e` is its end -/
def Tried (i : Id) (transition : GoalSet → Task (GoalSet × α)) (log after : List Answered)
    (e : Ending (GoalSet × α)) : Prop :=
  ∃ y : Try α, y.Sound transition ∧ work after = work log ++ y.log i ∧ e = y.ending ∧ e ≠ .silence

/-- a course of sound tries was taken after `log`, and it ended as `r` tells -/
def Took (p : RetryPolicy) (i : Id) (transition : GoalSet → Task (GoalSet × α)) (more : Nat) (d : Duration)
    (log after : List Answered) (r : RetryEnd (GoalSet × α)) : Prop :=
  ∃ ys, Course p more d ys (r.ending i) ∧ (∀ y ∈ ys, y.Sound transition) ∧
    work after = work log ++ ys.flatMap (Try.log i)

variable {log : List Answered}

theorem modifyOnce_keeps_try (ht : IsTransition transition) :
    (GoalCommand.modifyOnce i transition).plan.Keeps (.record Uncancelled) (Tried i transition log) log := by
  have hmissed : ∀ x : Ending (Option GoalSet), x ≠ .silence → (∀ s, x ≠ .value (some s)) →
      Tried i transition log (log ++ [⟨.get .goalSet i, x⟩]) (Try.missed x : Try α).ending := by
    intro x hsilence hx
    refine ⟨.missed x, hx, work_append .., rfl, fun h => ?_⟩
    cases x <;> first | exact hsilence rfl | cases h
  refine Task.keeps_bind.2 (Task.keeps_bind.2 ⟨trivial, fun x hx => ?_⟩)
  cases x with
  | failure f => exact hmissed (.failure f) hx (by simp)
  | fault f => exact hmissed (.fault f) hx (by simp)
  | silence => exact absurd rfl hx
  | value found =>
    refine Task.keeps_orFail.2 ⟨?_, ?_⟩
    · rintro rfl
      exact hmissed (.value none) hx (by simp)
    · rintro s rfl
      refine Task.keeps_bind.2 (Plan.keeps_of_paths fun drawn e path hdrawn => ?_)
      have hwork : work (log ++ [⟨.get .goalSet i, .value (some s)⟩] ++ drawn) =
          work log ++ ([⟨.get .goalSet i, .value (some s)⟩] ++ drawn) := by
        rw [work_append, work_append, (Try.Sound.draws ht path).1, List.append_assoc]
        rfl
      have hend : e.OfDomain := (ht s).along path fun _ _ => trivial
      cases e with
      | value ta =>
        obtain ⟨t, a⟩ := ta
        refine Task.keeps_bind.2 ⟨trivial, fun x hx => ?_⟩
        have hwork : work (log ++ [⟨.get .goalSet i, .value (some s)⟩] ++ drawn ++ [⟨.update .goalSet t, x⟩]) =
            work log ++ (Try.wrote s drawn t a x).log i := by
          rw [work_append, hwork, List.append_assoc]
          rfl
        cases x with
        | silence => exact absurd rfl hx
        | value u => exact ⟨.wrote s drawn t a (.value u), path, hwork, rfl, by simp⟩
        | failure f => exact ⟨.wrote s drawn t a (.failure f), path, hwork, rfl, by simp⟩
        | fault f => exact ⟨.wrote s drawn t a (.fault f), path, hwork, rfl, by simp⟩
      | silence => exact hend.elim
      | failure f =>
        exact ⟨.refused s drawn (.failure f), ⟨path, by simp⟩, hwork, rfl, by simp⟩
      | fault f =>
        exact ⟨.refused s drawn (.fault f), ⟨path, by simp⟩, hwork, rfl, by simp⟩

/-- counting a retry is no work -/
theorem countRetry_keeps_try {t : Task (GoalSet × α)} (n : Nat)
    (h : ∀ log, t.plan.Keeps (.record Uncancelled) (Tried i transition log) log) :
    (Retry.countRetry n t).plan.Keeps (.record Uncancelled) (Tried i transition log) log := by
  unfold Retry.countRetry
  split
  · refine ⟨trivial, fun x _ => (h _).mono fun after e ⟨y, hsound, hwork, hy⟩ => ⟨y, hsound, ?_, hy⟩⟩
    rwa [work_after rfl] at hwork
  · exact h log

/-- a try that is settled ends a course, and after a stale one it goes on -/
theorem tryOnce_keeps_course {t : Task (GoalSet × α)} {again : Failure → Plan (RetryEnd (GoalSet × α))}
    {more made : Nat} {d : Duration} (ht : ∀ log, t.plan.Keeps (.record Uncancelled) (Tried i transition log) log)
    (hagain : ∀ (y : Try α) f after, y.Sound transition → y.Stale → work after = work log ++ y.log i →
      (again f).Keeps (.record Uncancelled) (Took p i transition more d log) after) :
    (Retry.tryOnce made t again).Keeps (.record Uncancelled) (Took p i transition more d log) log := by
  refine ⟨trivial, fun cancelled hc => ?_⟩
  obtain rfl : cancelled = false := hc
  refine Plan.keeps_bind.2 ((ht _).mono fun after e he => ?_)
  obtain ⟨y, hsound, hwork, rfl, hsilence⟩ := he
  rw [work_after rfl] at hwork
  have hsettled : ∀ r : RetryEnd (GoalSet × α), r.ending i = y.ending → ¬y.Stale →
      Took p i transition more d log after r := by
    intro r hr hfresh
    refine ⟨[y], ?_, List.forall_mem_singleton.2 hsound, ?_⟩
    · rw [hr]
      exact .settled hfresh
    · rw [hwork, List.flatMap_singleton]
  cases hy : y.ending with
  | value b => exact hsettled (.ok b) hy.symm fun ⟨j, hj⟩ => nomatch hy.symm.trans hj
  | fault f => exact hsettled (.fault f) hy.symm fun ⟨j, hj⟩ => nomatch hy.symm.trans hj
  | silence => exact absurd hy hsilence
  | failure f =>
    have hstale := Try.stale_iff_retryable hy
    cases hf : f.retryable with
    | true =>
      simp only [hf, if_true]
      exact hagain y f after hsound (hstale.2 hf) hwork
    | false =>
      simp only [hf, Bool.false_eq_true, if_false]
      exact hsettled (.fatal f) hy.symm fun h => Bool.false_ne_true (hf.symm.trans (hstale.1 h))

/-- trying again takes a course, whatever is replied -/
theorem attempts_keeps_course {work : Nat → Task (GoalSet × α)}
    (ht : ∀ n log, (work n).plan.Keeps (.record Uncancelled) (Tried i transition log) log) (more made : Nat)
    (d : Duration) :
    (Retry.attempts p work more made d).Keeps (.record Uncancelled) (Took p i transition more d log) log := by
  induction more generalizing made d log with
  | zero =>
    refine tryOnce_keeps_course (ht _) fun y f after hsound hstale hwork => ?_
    refine ⟨[y], .spent hstale, List.forall_mem_singleton.2 hsound, ?_⟩
    rw [hwork, List.flatMap_singleton]
  | succ more ih =>
    refine tryOnce_keeps_course (ht _) fun y f after hsound hstale hwork => ?_
    -- a wait that is no cancel signal is no work, and what follows it is a course of its own
    have hrest : ∀ d' after', Brigade.work after' = Brigade.work after → (d.isZero = true → d' = d) →
        (Retry.attempts p work more (made + 1) d').Keeps (.record Uncancelled)
          (Took p i transition (more + 1) d log) after' := by
      intro d' after' hafter hd'
      refine (ih (made + 1) d').mono fun end' r hr => ?_
      obtain ⟨ys, hcourse, hsounds, hys⟩ := hr
      refine ⟨y :: ys, .again hstale hd' hcourse, List.forall_mem_cons.2 ⟨hsound, hsounds⟩, ?_⟩
      rw [hys, hafter, hwork, List.flatMap_cons, List.append_assoc]
    unfold Retry.waiting
    split
    · exact hrest d after rfl fun _ => rfl
    · rename_i hzero
      refine ⟨trivial, fun cancelled hc => ?_⟩
      obtain rfl : cancelled = false := hc
      have hpause := work_after (r := .pause d) rfl after false
      cases hnext : Retry.nextDelay p d with
      | ok d' => exact hrest d' _ hpause fun h => absurd h hzero
      | refused e => exact e.elim
      | fault f =>
        refine ⟨[y], .halted hstale (Bool.eq_false_iff.2 hzero) hnext, List.forall_mem_singleton.2 hsound, ?_⟩
        refine hpause.trans ?_
        rw [hwork, List.flatMap_singleton]

/-- a change takes a course of sound tries and ends as the course tells -/
theorem modify_keeps_course (ht : IsTransition transition) :
    (GoalCommand.modify p i transition).plan.Keeps (.record Uncancelled)
      (fun after e => ∃ ys, Course p (p.limit - 1) p.initialDelay ys e ∧ (∀ y ∈ ys, y.Sound transition) ∧
        work after = work log ++ ys.flatMap (Try.log i)) log := by
  have hattempts : (Retry.run p fun n => Retry.countRetry n (GoalCommand.modifyOnce i transition)).Keeps
      (.record Uncancelled) (Took p i transition (p.limit - 1) p.initialDelay log) log :=
    attempts_keeps_course (fun n log => countRetry_keeps_try n fun log => modifyOnce_keeps_try ht) _ _ _
  refine Plan.keeps_bind.2 (hattempts.mono fun after r hr => ?_)
  cases r with
  | exhausted n f =>
    obtain ⟨ys, hcourse, hsound, hwork⟩ := hr
    exact ⟨trivial, fun x _ => ⟨ys, hcourse, hsound, (work_after rfl after x).trans hwork⟩⟩
  | _ => exact hr

/-- every try of a course fetches once -/
theorem countP_fetches_course (ht : IsTransition transition) {ys : List (Try α)}
    (hsound : ∀ y ∈ ys, y.Sound transition) : (ys.flatMap (Try.log i)).countP Answered.fetches = ys.length := by
  induction ys with
  | nil => rfl
  | cons y ys ih =>
    obtain ⟨hy, hys⟩ := List.forall_mem_cons.1 hsound
    rw [List.flatMap_cons, List.countP_append, hy.countP_fetches ht, ih hys, List.length_cons, Nat.add_comm]

/-- stale tries write nothing -/
theorem filter_grants_of_stale (ht : IsTransition transition) {ys : List (Try α)}
    (hsound : ∀ y ∈ ys, y.Sound transition) (hstale : ∀ y ∈ ys, y.Stale) :
    (ys.flatMap (Try.log i)).filter Answered.grants = [] := by
  rw [List.filter_flatMap]
  exact List.flatMap_eq_nil_iff.2 fun y hy => (hsound y hy).filter_grants_of_stale ht (hstale y hy)

/-- a course that ends with a value ends with the try that wrote it, and nothing else was written -/
theorem Course.of_value {more : Nat} {d : Duration} {ys : List (Try α)} {t : GoalSet} {a : α}
    (h : Course p more d ys (.value (t, a))) (hsound : ∀ y ∈ ys, y.Sound transition) :
    ∃ earlier s drawn c, ys = earlier ++ [.wrote s drawn c a (.value t)] ∧ (∀ y ∈ earlier, y.Stale) ∧
      earlier.length ≤ more ∧ (transition s).plan.Path drawn (.done (.value (c, a))) := by
  obtain ⟨earlier, last, rfl, hstale, hlen, hfresh, hspent, hhalted⟩ := h.facts
  have hlast : last.Sound transition := hsound last (List.mem_append_right earlier (List.mem_singleton.2 rfl))
  have hnot : ¬last.Stale := by
    intro hs
    rcases Nat.lt_or_eq_of_le hlen with hlt | heq
    · obtain ⟨-, d', f, -, hf⟩ := hhalted hs hlt
      cases hf
    · cases hspent hs heq
  obtain ⟨s, drawn, c, rfl⟩ := Try.eq_wrote_of_value hlast (hfresh hnot).symm
  exact ⟨earlier, s, drawn, c, rfl, hstale, hlen, hlast⟩

/-- a course ends with a conflict if all of its tries are spent, or if the last of them ended so itself -/
theorem Course.conflict_iff {more : Nat} {d : Duration} {earlier : List (Try α)} {last : Try α}
    {e : Ending (GoalSet × α)} (h : Course p more d (earlier ++ [last]) e) :
    e = .failure (.conflict Retry.conflictMessage) ↔
      last.Stale ∧ earlier.length = more ∨ last.ending = .failure (.conflict Retry.conflictMessage) := by
  obtain ⟨earlier', last', heq, -, hlen, hfresh, hspent, hhalted⟩ := h.facts
  obtain ⟨rfl, hlast⟩ := List.append_inj' heq rfl
  obtain rfl := List.singleton_inj.1 hlast
  by_cases hs : last.Stale
  · obtain ⟨j, hj⟩ := hs
    rcases Nat.lt_or_eq_of_le hlen with hlt | hall
    · obtain ⟨-, d', f, -, rfl⟩ := hhalted ⟨j, hj⟩ hlt
      simp [hj, Nat.ne_of_lt hlt]
    · simp [hspent ⟨j, hj⟩ hall, hall, show last.Stale from ⟨j, hj⟩]
  · simp [hfresh hs, hs]

/-! ## The goal that is added -/

/-- adding a goal draws one identity, and that is the identity it gives -/
theorem path_addGoal {c : AddGoal} {v : GoalValue} {s t : GoalSet} {a : Id} {drawn : List Answered}
    (h : (c.transition v s).plan.Path drawn (.done (.value (t, a)))) :
    drawn = [⟨.freshId, a⟩] ∧ s.addGoal a c.title c.type v c.percentage = .ok t := by
  cases h with
  | ask rest =>
    rename_i more j
    change ((Task.ofOutcome GoalCommand.refusal (s.addGoal j c.title c.type v c.percentage) >>= fun t =>
      pure (t, j) : Task (GoalSet × Id))).plan.Path more (.done (.value (t, a))) at rest
    cases hadd : s.addGoal j c.title c.type v c.percentage with
    | ok u =>
      rw [hadd] at rest
      cases rest
      exact ⟨rfl, hadd⟩
    | refused e =>
      rw [hadd] at rest
      cases rest
    | fault f =>
      rw [hadd] at rest
      cases rest

/-- a goal is added by the last of the tries that `calls` are, and the result is about what that try wrote -/
def AddGoal.Landed (c : AddGoal) (p : RetryPolicy) (calls : List Answered) (r : GoalResult) : Prop :=
  ∃ v earlier s changed stored,
    GoalValue.create c.min c.mid c.max c.valueType = .ok v ∧
    calls = (earlier ++ [.wrote s [⟨.freshId, r.goalId⟩] changed r.goalId (.value stored)]).flatMap
      (Try.log c.goalSetId) ∧
    (∀ y ∈ earlier, y.Sound (c.transition v) ∧ y.Stale) ∧ earlier.length + 1 ≤ p.limit ∧
    s.addGoal r.goalId c.title c.type v c.percentage = .ok changed ∧
    r.goalSetId = stored.id ∧ r.version = stored.version

/-- counting is no work -/
theorem counting_keeps_work (ends : List Answered → Prop) (metrics : List Metric) (h : ends (work log)) :
    (Plan.counting metrics).Keeps (.record Uncancelled) (fun after _ => ends (work after)) log := by
  induction metrics generalizing log with
  | nil => exact h
  | cons m metrics ih => exact ⟨trivial, fun x _ => ih ((work_after rfl log x).symm ▸ h)⟩

theorem addGoal_keeps_landed (c : AddGoal) :
    (c.task p).plan.Keeps (.record Uncancelled) (fun after e => ∀ r, e = .value r → c.Landed p (work after) r) [] := by
  have hbody : (c.body p).plan.Keeps (.record Uncancelled)
      (fun after e => ∀ r, e = .value r → c.Landed p (work after) r) [] := by
    refine Task.keeps_bind.2 (Task.keeps_unless?.2 ⟨fun _ => ?_, fun f _ r hr => nomatch hr⟩)
    refine Task.keeps_bind.2 (Task.keeps_ofOutcome.2
      ⟨fun v hv => ?_, fun e _ r hr => (nomatch hr), fun f _ r hr => (nomatch hr)⟩)
    refine Task.keeps_bind.2 ((modify_keeps_course (isTransition_addGoal c v)).mono fun after e he => ?_)
    obtain ⟨ys, hcourse, hsound, hwork⟩ := he
    cases e with
    | value ta =>
      obtain ⟨stored, a⟩ := ta
      obtain ⟨earlier, s, drawn, changed, rfl, hstale, hlen, hpath⟩ := hcourse.of_value hsound
      obtain ⟨rfl, hadd⟩ := path_addGoal hpath
      refine Task.keeps_bind.2 ⟨trivial, fun sent _ => ?_⟩
      cases sent with
      | false => exact fun r hr => nomatch hr
      | true =>
        rintro r ⟨⟩
        have hpos : 1 ≤ p.limit := Nat.le_max_left 1 p.maxAttempts
        refine ⟨v, earlier, s, changed, stored, hv, ?_, fun y hy => ⟨hsound y (List.mem_append_left _ hy), hstale y hy⟩,
          Nat.add_le_of_le_sub hpos hlen, hadd, rfl, rfl⟩
        rw [work_after rfl]
        exact hwork
    | _ => exact fun r hr => nomatch hr
  refine Task.keeps_counted.2 (hbody.mono fun after e he => ?_)
  exact counting_keeps_work (fun calls => ∀ r, e = .value r → c.Landed p calls r) _ he

/-! ## Any replies -/

/-- **What a change of a goal set asks, whatever is replied.** Without a cancel signal a change makes at least one try and
at most as many as the policy allows. Each fetches the set once, draws what the transition draws, and updates at most once,
with what the transition makes of the set that this try fetched; that is all the work there is. Every try but the last one
met a stale write. The end of the last one is the end of the change, unless it met a stale write too: then the change ends
with a conflict if no more tries are allowed, and otherwise in the fault of a wait that has no length. So it ends with the
conflict exactly if all tries that are allowed met a stale write, or if a call of the last try failed with that very
conflict. A value comes from the one update that was granted, the last call there is, and from the transition before it;
and when a goal is added, the result is about that update and the identity that was drawn for it. -/
theorem modify_tries (w : World σ) (start : σ) (p : RetryPolicy) :
    (∀ (α : Type) (i : Id) (transition : GoalSet → Task (GoalSet × α)), IsTransition transition →
      let plan := (GoalCommand.modify p i transition).plan
      let calls := work (plan.transcript w start)
      let e := (plan.run w start).1
      (∀ x ∈ plan.transcript w start, Uncancelled x.request x.reply) →
      ∃ (earlier : List (Try α)) (last : Try α),
        calls = (earlier ++ [last]).flatMap (Try.log i) ∧
        (∀ y ∈ earlier ++ [last], y.Sound transition) ∧ (∀ y ∈ earlier, y.Stale) ∧
        calls.countP Answered.fetches = earlier.length + 1 ∧ earlier.length + 1 ≤ p.limit ∧
        (¬last.Stale → e = last.ending) ∧
        (last.Stale → earlier.length + 1 < p.limit →
          p.initialDelay.isZero = false ∧ ∃ d f, Retry.nextDelay p d = .fault f ∧ e = .fault f) ∧
        (e = .failure (.conflict Retry.conflictMessage) ↔
          last.Stale ∧ earlier.length + 1 = p.limit ∨
            last.ending = .failure (.conflict Retry.conflictMessage)) ∧
        ∀ t a, e = .value (t, a) →
          ∃ s drawn c, last = .wrote s drawn c a (.value t) ∧
            calls.filter Answered.grants = [⟨.update .goalSet c, .value t⟩] ∧
            calls.getLast? = some ⟨.update .goalSet c, .value t⟩) ∧
    ∀ c : AddGoal,
      let plan := (c.task p).plan
      (∀ x ∈ plan.transcript w start, Uncancelled x.request x.reply) →
      ∀ r, (plan.run w start).1 = .value r → c.Landed p (work (plan.transcript w start)) r := by
  refine ⟨?_, fun c => (addGoal_keeps_landed c).transcript⟩
  intro α i transition ht plan calls e hreplies
  obtain ⟨ys, hcourse, hsound, hcalls⟩ := (modify_keeps_course (p := p) (i := i) ht).transcript hreplies
  change Course p (p.limit - 1) p.initialDelay ys e at hcourse
  change calls = ys.flatMap (Try.log i) at hcalls
  have hpos : 1 ≤ p.limit := Nat.le_max_left 1 p.maxAttempts
  obtain ⟨earlier, last, rfl, hstale, hlen, hfresh, -, hhalted⟩ := hcourse.facts
  refine ⟨earlier, last, hcalls, hsound, hstale, ?_, by omega, hfresh, fun hs hl => hhalted hs (by omega), ?_,
    fun t a he => ?_⟩
  · rw [hcalls, countP_fetches_course ht hsound, List.length_append, List.length_singleton]
  · have hall : earlier.length = p.limit - 1 ↔ earlier.length + 1 = p.limit := by omega
    rw [hcourse.conflict_iff, hall]
  · rw [he] at hcourse
    obtain ⟨earlier', s, drawn, c, heq, -, -, hpath⟩ := hcourse.of_value hsound
    obtain ⟨rfl, hlast⟩ := List.append_inj' heq rfl
    obtain rfl := List.singleton_inj.1 hlast
    refine ⟨s, drawn, c, rfl, ?_, ?_⟩
    · rw [hcalls, List.flatMap_append, List.filter_append, List.flatMap_singleton,
        filter_grants_of_stale ht (fun y hy => hsound y (List.mem_append_left _ hy)) hstale, List.nil_append]
      exact Try.Sound.filter_grants_of_value ht hpath
    · rw [hcalls, List.flatMap_append, List.flatMap_singleton, Try.log, ← List.append_assoc]
      exact List.getLast?_concat

/-- a repository of goal sets with replies of one's choice to its fetches and to its updates, numbered from zero -/
def scripted (gets : Nat → Ending (Option GoalSet)) (updates : Nat → GoalSet → Ending GoalSet) : World (Nat × Nat)
  | .get .goalSet _, n => (gets n.1, n.1 + 1, n.2)
  | .update .goalSet t, n => (updates n.2 t, n.1, n.2 + 1)
  | .get _ _, n => (.value none, n)
  | .list _, n => (.value [], n)
  | .add _ a, n => (.value a, n)
  | .update _ a, n => (.value a, n)
  | .publish _, n => (true, n)
  | .count _, n => ((), n)
  | .freshId, n => (.ofNat n.1, n)
  | .clock, n => (.epoch, n)
  | .isCancelled, n => (false, n)
  | .pause _, n => (false, n)

theorem uncancelled_scripted {gets : Nat → Ending (Option GoalSet)} {updates : Nat → GoalSet → Ending GoalSet}
    (hg : ∀ n, gets n ≠ .silence) (hu : ∀ n t, updates n t ≠ .silence) (r : Request) (n : Nat × Nat) :
    Uncancelled r (scripted gets updates r n).1 := by
  cases r with
  | get k i => cases k <;> first | exact hg _ | simp [Uncancelled, scripted]
  | update k a => cases k <;> first | exact hu _ _ | simp [Uncancelled, scripted]
  | _ => simp [Uncancelled, scripted]

/-- a draft that the first update finds changed -/
def contested : World (Nat × Nat) :=
  scripted (fun n => .value (some ⟨.ofNat 1, 1, .ofNat 2, 5, none, [], Int32.ofNat (n + 1)⟩)) fun n t =>
    if n = 0 then .failure (.staleWrite t.id) else .value { t with version := t.version + 1 }

/-- a goal for that draft -/
def shipping : AddGoal := ⟨.ofNat 1, "Ship it", .team, 1, 2, 3, .number, 100⟩

/-- the draft with that goal, as the second update stores it -/
def shipped : GoalSet :=
  ⟨.ofNat 1, 1, .ofNat 2, 5, none, [⟨.ofNat 2, "Ship it", .team, ⟨1, 2, 3, .number⟩, 100, none⟩], 3⟩

theorem modify_tries_contested :
    (∃ (earlier : List (Try Id)) (s : GoalSet) (drawn : List Answered) (c : GoalSet),
      work ((GoalCommand.modify .standard (.ofNat 1) (shipping.transition ⟨1, 2, 3, .number⟩)).plan.transcript contested
        (0, 0)) = (earlier ++ [Try.wrote s drawn c (Id.ofNat 2) (.value shipped)]).flatMap (Try.log (.ofNat 1)) ∧
      earlier.length = 1) ∧
    shipping.Landed .standard (work ((shipping.task .standard).plan.transcript contested (0, 0)))
      ⟨.ofNat 1, .ofNat 2, 3⟩ := by
  have hreplies : ∀ r n, Uncancelled r (contested r n).1 :=
    uncancelled_scripted (fun n h => nomatch h) fun n t h => by split at h <;> cases h
  obtain ⟨hmodify, hadd⟩ := modify_tries contested (0, 0) .standard
  refine ⟨?_, hadd shipping (Plan.forall_transcript hreplies) _ (by decide +kernel)⟩
  obtain ⟨earlier, last, hcalls, -, -, hfetches, -, -, -, -, hvalue⟩ := hmodify Id (.ofNat 1)
    (shipping.transition ⟨1, 2, 3, .number⟩) (isTransition_addGoal _ _) (Plan.forall_transcript hreplies)
  obtain ⟨s, drawn, c, rfl, -, -⟩ := hvalue shipped (.ofNat 2) (by decide +kernel)
  have hlen : earlier.length + 1 = 2 := hfetches.symm.trans (by decide +kernel)
  exact ⟨earlier, s, drawn, c, hcalls, Nat.succ.inj hlen⟩

/-- a fetch that fails with the words of a conflict ends a change in its first try, though three more are allowed -/
theorem conflict_in_first_try :
    let plan := (GoalCommand.modify .standard (.ofNat 1) (GoalCommand.plain GoalSet.sendToApproval)).plan
    let told := scripted (fun _ => .failure (.conflict Retry.conflictMessage)) fun _ t => .value t
    (plan.run told (0, 0)).1 = .failure (.conflict Retry.conflictMessage) ∧
      work (plan.transcript told (0, 0)) =
        [⟨.get .goalSet (.ofNat 1), .failure (.conflict Retry.conflictMessage)⟩] ∧
      RetryPolicy.standard.limit = 4 := by
  exact ⟨by decide +kernel, rfl, rfl⟩

end Brigade
