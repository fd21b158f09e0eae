/-
Any number of clients that read and write aggregates under their versions, their requests interleaved in any order.

A client that has read an aggregate holds a copy. How the stored aggregate relates to the copy is told by what the log has
since the read (`Since`): its version is that of the copy and the number of writes since, and without a write it is the
copy. From this follows which updates are granted: those of a copy that nobody has written over (`turn_of_unwritten`). An
update that is not granted is a stale write and changes nothing (`turn_of_written`). Clients that write nothing but changes
of what they have read keep the stored aggregate a result of all writes, one applied to the result of the other
(`edited_of_editing`).
-/
import Brigade.Proofs.Answers
import Brigade.Proofs.Exchanges
import Brigade.Proofs.GoalSetChange
import Brigade.Proofs.Histories
import Brigade.Proofs.Writes

namespace Brigade

namespace Repository

variable {α : Type} [Aggregate α] {r : Repository α} {a t : α}

/-- an update of the version that is stored -/
theorem update_of_current {v : Int32} (h : r.get? (Aggregate.id a) = some t) (hv : Aggregate.version t = Aggregate.version a)
    (hnext : v.toInt = (Aggregate.version t).toInt + 1) :
    r.update a = .ok (Aggregate.withVersion a v, r.replace (Aggregate.withVersion a v)) := by
  simp only [update, h]
  rw [if_neg (not_not.2 hv), Word.addExact_of_toInt (b := 1) hnext]
  rfl

/-- an update of another version -/
theorem update_of_stale (h : r.get? (Aggregate.id a) = some t) (hv : Aggregate.version t ≠ Aggregate.version a) :
    r.update a = .refused (.staleWrite (Aggregate.id a)) := by
  simp only [update, h]
  exact if_pos hv

end Repository

namespace Service

variable {env : Surroundings} {s : Service} {k : Kind} {i : Id} {t : k.Member} {n : Nat} {r : Request}

/-! ## One exchange -/

/-- an exchange that does not write an aggregate leaves it as it is stored -/
theorem get?_answer_of_not_write (h : (s.store.repo k).get? i = some t)
    (hw : Exchange.writes k i ⟨n, r, (answer env r s).1⟩ = false) :
    ((answer env r s).2.store.repo k).get? i = some t := by
  cases r with
  | add k' a =>
    have hadd : (answer env (.add k' a) s).2.store = s.store.setRepo k' ((s.store.repo k').add a).2 := by
      simp only [answer]
      rcases (s.store.repo k').add a with ⟨_ | _, r'⟩ <;> rfl
    rw [hadd]
    by_cases hk : k = k'
    · subst hk
      rw [Store.repo_setRepo]
      generalize hx : (s.store.repo k).add a = x
      cases hx ▸ Repository.add_case (s.store.repo k) a with
      | keyTaken key hkey taken => exact h
      | idTaken free stored => exact h
      | stored free unused =>
        -- what is found stays in front of what is added at the end
        rw [Repository.get?, List.find?_append]
        change ((s.store.repo k).get? i).or _ = some t
        rw [h]
        rfl
    · rwa [Store.repo_setRepo_of_ne _ hk]
  | update k' a =>
    cases hu : (s.store.repo k').update a with
    | refused f => rwa [answer_update_of_refused hu]
    | fault f => rwa [answer_update_of_fault hu]
    | ok p =>
      obtain ⟨b, r'⟩ := p
      rw [answer_update_of_ok hu] at hw ⊢
      by_cases hk : k = k'
      · subst hk
        have hne : Aggregate.id a ≠ i := by simpa [Exchange.writes] using hw
        obtain ⟨stored, v, -, -, -, rfl, rfl⟩ := Repository.update_eq_ok hu
        change (((s.store.setRepo k _).repo k).get? i) = some t
        rw [Store.repo_setRepo, Repository.get?_replace_of_ne (by simpa using hne)]
        exact h
      · change (((s.store.setRepo k' _).repo k).get? i) = some t
        rwa [Store.repo_setRepo_of_ne _ hk]
  | _ => rwa [store_answer rfl]

/-- an exchange that writes an aggregate stores what was sent under the next version -/
theorem get?_answer_of_write (h : (s.store.repo k).get? i = some t)
    (hw : Exchange.writes k i ⟨n, r, (answer env r s).1⟩ = true) :
    ∃ a v, r = .update k a ∧ Aggregate.id a = i ∧ Aggregate.version a = Aggregate.version t ∧
      v.toInt = (Aggregate.version t).toInt + 1 ∧
      ((answer env r s).2.store.repo k).get? i = some (Aggregate.withVersion a v) := by
  cases r with
  | update k' a =>
    cases hu : (s.store.repo k').update a with
    | refused f =>
      rw [answer_update_of_refused hu] at hw
      cases hw
    | fault f =>
      rw [answer_update_of_fault hu] at hw
      cases hw
    | ok p =>
      obtain ⟨b, r'⟩ := p
      rw [answer_update_of_ok hu] at hw ⊢
      obtain ⟨rfl, rfl⟩ : k' = k ∧ Aggregate.id a = i := by simpa [Exchange.writes] using hw
      have hstored := Repository.get?_of_update hu
      obtain ⟨stored, v, hget, hversion, hv, rfl, -⟩ := Repository.update_eq_ok hu
      obtain rfl := Option.some.inj (hget.symm.trans h)
      refine ⟨a, v, rfl, rfl, hversion.symm, hv, ?_⟩
      change ((s.store.setRepo k' r').repo k').get? (Aggregate.id a) = _
      rwa [Store.repo_setRepo]
  | _ => cases hw

/-! ## What a copy is worth -/

/-- a copy that was read, and what is stored after what has happened `since`: as much younger as there were writes, and
the copy itself if there was none -/
def Since (k : Kind) (i : Id) (c : k.Member) (since : List Exchange) (s : Service) : Prop :=
  ∃ t, (s.store.repo k).get? i = some t ∧
    (Aggregate.version t).toInt = (Aggregate.version c).toInt + (Sessions.writers k i since).length ∧
    (Sessions.writers k i since = [] → t = c)

/-- every copy in the log is worth what has happened since -/
def CopiesDated (s : Service) (log : List Exchange) : Prop :=
  ∀ pre since n k i c, log = pre ++ ⟨n, .get k i, .value (some c)⟩ :: since → Since k i c since s

theorem since_snoc {c : k.Member} {since : List Exchange} (h : Since k i c since s) :
    Since k i c (since ++ [⟨n, r, (answer env r s).1⟩]) (answer env r s).2 := by
  obtain ⟨t, hget, hversion, hcurrent⟩ := h
  cases hw : Exchange.writes k i ⟨n, r, (answer env r s).1⟩ with
  | false =>
    rw [Since, Sessions.writers_snoc_of_not_write hw]
    exact ⟨t, get?_answer_of_not_write hget hw, hversion, hcurrent⟩
  | true =>
    obtain ⟨a, v, -, -, -, hv, hstored⟩ := get?_answer_of_write hget hw
    rw [Since, Sessions.writers_snoc_of_write hw]
    refine ⟨_, hstored, ?_, by simp⟩
    rw [LawfulAggregate.version_withVersion, hv, hversion, List.length_append, List.length_singleton]
    push_cast
    ring

theorem copiesDated_snoc {log : List Exchange} (h : CopiesDated s log) (n : Nat) (r : Request) :
    CopiesDated (answer env r s).2 (log ++ [⟨n, r, (answer env r s).1⟩]) := by
  intro pre since m k i c hlog
  obtain ⟨rfl, he, rfl⟩ | ⟨since', rfl, hbefore⟩ := split_snoc hlog
  · -- the copy was read just now
    obtain ⟨rfl, rfl, hx⟩ := Exchange.mk.inj he
    have hget : (s.store.repo k).get? i = some c := Ending.value.inj (eq_of_heq hx)
    exact ⟨c, hget, by simp [Sessions.writers], fun _ => rfl⟩
  · exact since_snoc (h pre since' m k i c hbefore)

/-- a copy with the version that is stored is what is stored -/
theorem eq_copy {log : List Exchange} {c : k.Member} (h : CopiesDated s log)
    (hread : ⟨.get k i, .value (some c)⟩ ∈ Sessions.own n log) (ht : (s.store.repo k).get? i = some t)
    (hversion : Aggregate.version t = Aggregate.version c) : t = c := by
  obtain ⟨pre, since, hlog⟩ := Sessions.exists_of_mem_own hread
  obtain ⟨t', ht', hyounger, hcurrent⟩ := h pre since n k i c hlog
  obtain rfl := Option.some.inj (ht.symm.trans ht')
  -- the versions are equal, so nobody has written since
  have hnone : (Sessions.writers k i since).length = 0 := by
    rw [hversion] at hyounger
    omega
  exact hcurrent (List.eq_nil_of_length_eq_zero hnone)

variable {α : Type} {plans : List (Plan α)} {schedule : List Nat}

theorem copiesDated : CopiesDated ((Sessions.start plans s).interleave (answer env) schedule).world
    ((Sessions.start plans s).interleave (answer env) schedule).log :=
  Sessions.holds_interleave (fun pre since n k i c h => by simp at h) fun s log n r h => copiesDated_snoc h n r

/-! ## Which updates are granted -/

section Decision

variable {run : Sessions α Service} {c a : k.Member} {next : Ending k.Member → Plan α} {since : List Exchange}

/-- an update of a copy that nobody has written over is granted: the copy is stored under the next version -/
theorem turn_of_unwritten (h : Since k i c since run.world) (hunwritten : Sessions.writers k i since = [])
    (hnext : run.plans[n]? = some (.ask (.update k a) next)) (hid : Aggregate.id a = i)
    (hversion : Aggregate.version a = Aggregate.version c)
    (hroom : (Aggregate.version c).toInt < Int32.maxValue.toInt) :
    ∃ v, v.toInt = (Aggregate.version c).toInt + 1 ∧
      (run.turn (answer env) n).log = run.log ++ [⟨n, .update k a, .value (Aggregate.withVersion a v)⟩] ∧
      (run.turn (answer env) n).world = { run.world with
        store := run.world.store.setRepo k ((run.world.store.repo k).replace (Aggregate.withVersion a v)) } ∧
      ((run.turn (answer env) n).world.store.repo k).get? i = some (Aggregate.withVersion a v) := by
  obtain ⟨t, hget, -, hcurrent⟩ := h
  obtain rfl : t = c := hcurrent hunwritten
  subst hid
  obtain ⟨v, hv⟩ : ∃ v : Int32, v.toInt = (Aggregate.version t).toInt + 1 := by
    refine ⟨Int32.ofInt ((Aggregate.version t).toInt + 1), Int32.toInt_ofInt_of_le ?_ ?_⟩
    · have hmin : Int32.minValue.toInt = -2147483648 := rfl
      have := Int32.minValue_le_toInt (Aggregate.version t)
      omega
    · have hmax : Int32.maxValue.toInt = 2147483647 := rfl
      omega
  have hgranted := Repository.update_of_current hget hversion.symm hv
  refine ⟨v, hv, ?_, ?_, ?_⟩
  all_goals rw [Sessions.turn_of_ask hnext, answer_update_of_ok hgranted]
  rw [Store.repo_setRepo]
  exact Repository.get?_of_update hgranted

/-- an update of a copy that was written over is a stale write, and nothing changes -/
theorem turn_of_written (h : Since k i c since run.world) (hwritten : Sessions.writers k i since ≠ [])
    (hnext : run.plans[n]? = some (.ask (.update k a) next)) (hid : Aggregate.id a = i)
    (hversion : Aggregate.version a = Aggregate.version c) :
    (run.turn (answer env) n).log = run.log ++ [⟨n, .update k a, .failure (.staleWrite i)⟩] ∧
      (run.turn (answer env) n).world = run.world := by
  obtain ⟨t, hget, hyounger, -⟩ := h
  subst hid
  have hpos := List.length_pos_iff.2 hwritten
  have hne : Aggregate.version t ≠ Aggregate.version a := by
    intro heq
    rw [heq, hversion] at hyounger
    omega
  rw [Sessions.turn_of_ask hnext, answer_update_of_refused (Repository.update_of_stale hget hne)]
  exact ⟨rfl, rfl⟩

end Decision

/-! ## Clients that write changes of what they have read -/

/-- anything may be asked, but an update writes a change of a copy that was read, under the copy's identity and version -/
def editing (may : (k : Kind) → k.Member → k.Member → Prop) : Protocol (List Answered) where
  first := []
  asks
    | h, .update k a =>
      ∃ c, ⟨.get k (Aggregate.id a), .value (some c)⟩ ∈ h ∧ Aggregate.version a = Aggregate.version c ∧ may k c a
    | _, _ => True
  answers
    | .get _ i, x => ∀ a, x = .value (some a) → Aggregate.id a = i
    | _, _ => True
  after h r x := h ++ [⟨r, x⟩]

/-- changes of several clients, each applied to what the one before left and stored under the next version -/
inductive Edited (may : Nat → (k : Kind) → k.Member → k.Member → Prop) (k : Kind) (t : k.Member) :
    List Nat → k.Member → Prop where
  | nothing : Edited may k t [] t
  | change {ns : List Nat} {n : Nat} {u a : k.Member} {v : Int32} (before : Edited may k t ns u) (allowed : may n k u a)
      (version : v.toInt = (Aggregate.version u).toInt + 1) : Edited may k t (ns ++ [n]) (Aggregate.withVersion a v)

variable {may : Nat → (k : Kind) → k.Member → k.Member → Prop}

/-- versions count the changes -/
theorem Edited.version_eq {ns : List Nat} {u : k.Member} (h : Edited may k t ns u) :
    (Aggregate.version u).toInt = (Aggregate.version t).toInt + ns.length := by
  induction h with
  | nothing => simp
  | change before allowed hv ih =>
    rw [LawfulAggregate.version_withVersion, hv, ih, List.length_append, List.length_singleton]
    push_cast
    ring

/-- what was stored in the beginning has been edited by the writers, in the order of their writes -/
def EditedByWriters (may : Nat → (k : Kind) → k.Member → k.Member → Prop) (start s : Service) (log : List Exchange) :
    Prop :=
  ∀ k i t, (start.store.repo k).get? i = some t →
    ∃ u, (s.store.repo k).get? i = some u ∧ Edited may k t (Sessions.writers k i log) u

theorem phase_editing (log : List Exchange) (n : Nat) :
    Sessions.phase (editing (may n)) n log = Sessions.own n log :=
  (Sessions.phase_eq_afterAll _ n log).trans (Protocol.afterAll_record (fun _ _ => True) [] _)

theorem preserved_editing (start : Service) :
    Sessions.Preserved (answer env) (fun n => editing (may n))
      fun s log => CopiesDated s log ∧ EditedByWriters may start s log := by
  rintro s log n r ⟨hdated, hedited⟩ hasks
  rw [phase_editing] at hasks
  have hanswer : (editing (may n)).answers r (answer env r s).1 := by
    cases r with
    | get k i => exact fun a ha => Repository.id_of_get? (Ending.value.inj ha)
    | _ => trivial
  refine ⟨hanswer, copiesDated_snoc hdated n r, fun k i t ht => ?_⟩
  obtain ⟨u, hu, hchain⟩ := hedited k i t ht
  cases hw : Exchange.writes k i ⟨n, r, (answer env r s).1⟩ with
  | false =>
    rw [Sessions.writers_snoc_of_not_write hw]
    exact ⟨u, get?_answer_of_not_write hu hw, hchain⟩
  | true =>
    rw [Sessions.writers_snoc_of_write hw]
    obtain ⟨a, v, rfl, rfl, hcurrent, hv, hstored⟩ := get?_answer_of_write hu hw
    obtain ⟨c, hc, hcopy, hmay⟩ := hasks
    obtain rfl : u = c := eq_copy hdated hc hu (hcurrent.symm.trans hcopy)
    exact ⟨_, hstored, .change hchain hmay hv⟩

/-- clients that edit what they have read leave what was stored, edited by the writers one after another -/
theorem edited_of_editing (h : ∀ n (p : Plan α), plans[n]? = some p → p.Keeps (editing (may n)) (fun _ _ => True) []) :
    EditedByWriters may s ((Sessions.start plans s).interleave (answer env) schedule).world
      ((Sessions.start plans s).interleave (answer env) schedule).log := by
  have hstart : CopiesDated s [] ∧ EditedByWriters may s s [] :=
    ⟨fun pre since n k i c h => by simp at h, fun k i t ht => ⟨t, ht, .nothing⟩⟩
  exact (Sessions.kept_interleave (preserved_editing s) (Sessions.kept_start h hstart) schedule).holds.2

end Service

end Brigade
