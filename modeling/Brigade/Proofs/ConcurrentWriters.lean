/-
Commands on one goal set that run at the same time, their requests interleaved in any order.

No write is lost and none is made twice: the stored set is the first one with the operations of the writers, one after
another in the order of their writes, each under the next version. Giving up is never idle: a command that ends with a
conflict was overtaken, in each of its tries, by the write of another one.
- `writers_serialized`: both of these, for any number of commands, every policy and every schedule.

What the phase of a client says about the stored set and the log is `Sees`. A copy that is held is the stored set, or its
version is smaller by the number of writes since the fetch; so each stale write is paid for by a write of another client
after the fetch, and those of one try come after those of the try before.
-/
import Brigade.Proofs.Answers
import Brigade.Proofs.Exchanges
import Brigade.Proofs.GoalSetChange
import Brigade.Proofs.GoalSetWriter
import Brigade.Proofs.Repository

namespace Brigade

namespace GoalSet

/-- the set after an operation that is granted, written under the next version -/
def landed (s : GoalSet) (o : Op) : Outcome GoalSetError GoalSet := do
  let t ← s.apply o
  let v ← Word.addExact s.version 1
  return { t with version := v }

/-- the set after operations that are written one after another -/
def landAll (s : GoalSet) (os : List Op) : Outcome GoalSetError GoalSet := os.foldlM landed s

theorem landAll_snoc {s t u : GoalSet} {os : List Op} {o : Op} (hs : s.landAll os = .ok t) (ht : t.landed o = .ok u) :
    s.landAll (os ++ [o]) = .ok u := by
  unfold landAll at hs ⊢
  rw [List.foldlM_append, hs, Outcome.ok_bind, List.foldlM_cons, ht]
  rfl

theorem landed_of_toInt {s t : GoalSet} {o : Op} {v : Int32} (h : s.apply o = .ok t)
    (hv : v.toInt = s.version.toInt + 1) : s.landed o = .ok { t with version := v } := by
  unfold landed
  rw [h, Outcome.ok_bind, Word.addExact_of_toInt (b := 1) hv]
  rfl

theorem version_of_landed {s t : GoalSet} {o : Op} (h : s.landed o = .ok t) :
    t.version.toInt = s.version.toInt + 1 := by
  obtain ⟨t', -, h⟩ := Outcome.bind_eq_ok.1 h
  obtain ⟨v, hv, h⟩ := Outcome.bind_eq_ok.1 h
  obtain rfl := Outcome.ok.inj h
  exact Word.addExact_eq_ok hv

/-- versions count what landed -/
theorem version_of_landAll {s t : GoalSet} {os : List Op} (h : s.landAll os = .ok t) :
    t.version.toInt = s.version.toInt + os.length := by
  induction os generalizing s with
  | nil =>
    obtain rfl := Outcome.ok.inj h
    simp
  | cons o os ih =>
    obtain ⟨m, hm, hrest⟩ := Outcome.bind_eq_ok.1 h
    rw [ih hrest, version_of_landed hm, List.length_cons]
    push_cast
    ring

end GoalSet

namespace ConcurrentWriters

open Sessions GoalSetWriter

variable {β : Type}

/-- clients that change the goal set `first`; the n-th one asks operations `mine n` of it -/
structure Meeting where
  env : Surroundings
  /-- whether somebody listens to events -/
  heard : Bool
  limit : Nat
  first : GoalSet
  mine : Nat → GoalSet.Op → Prop

namespace Meeting

variable (m : Meeting)

def client (n : Nat) : GoalSetWriter := ⟨m.env.ids, m.heard, m.first.id, m.limit, m.mine n⟩

def protocols (n : Nat) : Protocol Phase := (m.client n).protocol

/-- the writers of the set -/
def wrote (log : List Exchange) : List Nat := writers .goalSet m.first.id log

end Meeting

/-! ## What a client knows -/

/-- a client that has met `failed` stale writes holds a copy, and `t` is stored -/
structure HoldsCopy (i : Id) (n : Nat) (t : GoalSet) (log : List Exchange) (failed : Nat) (copy : GoalSet) : Prop where
  fetched : Fetched .goalSet i n log
  id : copy.id = i
  version_le : copy.version.toInt ≤ t.version.toInt
  current : copy.version = t.version → copy = t
  paid : failed + t.version.toInt ≤ copy.version.toInt + writesByOthers .goalSet i n (since .goalSet i n log)

/-- what the phase of a client says about the stored set `t` and the log -/
def Sees (i : Id) (n : Nat) (t : GoalSet) (log : List Exchange) : Phase → Prop
  | .idle failed => failed ≤ writesByOthers .goalSet i n (span .goalSet i n log)
  | .holding failed copy => HoldsCopy i n t log failed copy
  | .written | .ended => True

variable {i : Id} {n : Nat} {t t' : GoalSet} {log : List Exchange} {e : Exchange} {ph : Phase}

/-- nothing was written, and the client did not try to -/
theorem sees_snoc_of_not_write (h : Sees i n t log ph) (hu : e.client = n → e.updates .goalSet i = false) :
    Sees i n t (log ++ [e]) ph := by
  cases ph with
  | idle failed =>
    rw [Sees, span_snoc_of_not_update hu]
    exact h
  | holding failed copy =>
    have hpaid := h.paid
    have hmore := writesByOthers_since_le_snoc .goalSet i n log e
    exact ⟨h.fetched.snoc e, h.id, h.version_le, h.current, by omega⟩
  | written => trivial
  | ended => trivial

/-- another client wrote the set `t'` -/
theorem sees_snoc_of_write (h : Sees i n t log ph) (hn : e.client ≠ n) (hw : e.writes .goalSet i = true)
    (hv : t'.version.toInt = t.version.toInt + 1) : Sees i n t' (log ++ [e]) ph := by
  cases ph with
  | idle failed =>
    rw [Sees, span_snoc_of_not_update fun heq => absurd heq hn]
    exact h
  | holding failed copy =>
    have hle := h.version_le
    refine ⟨h.fetched.snoc e, h.id, by omega, fun heq => ?_, ?_⟩
    · -- the copy is older than what was just written
      rw [heq] at hle
      omega
    · have := h.paid
      rw [since_snoc h.fetched, writesByOthers_snoc_of_write hn hw]
      push_cast
      omega
  | written => trivial
  | ended => trivial

/-! ## One exchange -/

/-- the set `t` is stored, and the log tells how it came about -/
structure Serial (m : Meeting) (s : Service) (log : List Exchange) (t : GoalSet) : Prop where
  heard : s.channelOpen = m.heard
  stored : s.store.goalSets.get? m.first.id = some t
  landed : ∃ os, m.first.landAll os = .ok t ∧ List.Forall₂ m.mine (m.wrote log) os
  nodup : (m.wrote log).Nodup
  written_iff : ∀ n, n ∈ m.wrote log ↔ phase (m.protocols n) n log = .written
  sees : ∀ n, Sees m.first.id n t log (phase (m.protocols n) n log)

variable {m : Meeting} {s s' : Service} {r : Request} {x : r.Reply}

/-- an exchange that writes nothing -/
theorem serial_of_not_write (h : Serial m s log t) (hs : s'.store.goalSets = s.store.goalSets)
    (hopen : s'.channelOpen = s.channelOpen) (hw : Exchange.writes .goalSet m.first.id ⟨n, r, x⟩ = false)
    (hph : (m.protocols n).after (phase (m.protocols n) n log) r x = .written ↔
      phase (m.protocols n) n log = .written)
    (hsees : Sees m.first.id n t (log ++ [⟨n, r, x⟩]) ((m.protocols n).after (phase (m.protocols n) n log) r x)) :
    Serial m s' (log ++ [⟨n, r, x⟩]) t := by
  have hwrote : m.wrote (log ++ [⟨n, r, x⟩]) = m.wrote log := writers_snoc_of_not_write hw
  refine ⟨hopen.trans h.heard, ?_, ?_, ?_, fun k => ?_, fun k => ?_⟩
  · rw [hs]
    exact h.stored
  · rw [hwrote]
    exact h.landed
  · rw [hwrote]
    exact h.nodup
  · rw [hwrote, h.written_iff k]
    by_cases hk : n = k
    · subst hk
      rw [phase_snoc_self]
      exact hph.symm
    · rw [phase_snoc_of_ne _ _ hk]
  · by_cases hk : n = k
    · subst hk
      rw [phase_snoc_self]
      exact hsees
    · rw [phase_snoc_of_ne _ _ hk]
      exact sees_snoc_of_not_write (h.sees k) fun heq => absurd heq hk

/-- an exchange that neither fetches nor updates -/
theorem serial_of_quiet (h : Serial m s log t) (hs : s'.store.goalSets = s.store.goalSets)
    (hopen : s'.channelOpen = s.channelOpen) (hw : Exchange.writes .goalSet m.first.id ⟨n, r, x⟩ = false)
    (hu : Exchange.updates .goalSet m.first.id ⟨n, r, x⟩ = false)
    (hph : (m.protocols n).after (phase (m.protocols n) n log) r x = phase (m.protocols n) n log) :
    Serial m s' (log ++ [⟨n, r, x⟩]) t := by
  refine serial_of_not_write h hs hopen hw (by rw [hph]) ?_
  rw [hph]
  exact sees_snoc_of_not_write (h.sees n) fun _ => hu

/-- a fetch gives the stored set -/
theorem serial_of_fetch {failed : Nat} (h : Serial m s log t) (hph : phase (m.protocols n) n log = .idle failed) :
    Serial m s (log ++ [⟨n, .get .goalSet m.first.id, .value (some t)⟩]) t := by
  have hid : t.id = m.first.id := Repository.id_of_get? h.stored
  have hfetch : Exchange.fetches .goalSet m.first.id ⟨n, .get .goalSet m.first.id, .value (some t)⟩ = true := by
    simp [Exchange.fetches]
  have hfailed : failed ≤ writesByOthers .goalSet m.first.id n (since .goalSet m.first.id n log) := by
    have := h.sees n
    rw [hph] at this
    exact le_trans this writesByOthers_span_le
  refine serial_of_not_write h rfl rfl rfl ?_ ?_
  · rw [hph]
    exact iff_of_false Phase.noConfusion Phase.noConfusion
  · rw [hph]
    refine ⟨fetched_snoc_self rfl hfetch, hid, le_refl _, fun _ => rfl, ?_⟩
    have hmore := writesByOthers_since_le_snoc .goalSet m.first.id n log
      ⟨n, .get .goalSet m.first.id, .value (some t)⟩
    omega

/-- a changed copy has the identity of the stored set, and the version of the copy -/
theorem changed_copy {failed : Nat} {copy a : GoalSet} {o : GoalSet.Op} (h : Serial m s log t)
    (hph : phase (m.protocols n) n log = .holding failed copy) (ha : copy.apply o = .ok a) :
    HoldsCopy m.first.id n t log failed copy ∧ a.id = m.first.id ∧ a.version = copy.version ∧
      s.store.goalSets.get? a.id = some t := by
  have hcopy : HoldsCopy m.first.id n t log failed copy := by
    have := h.sees n
    rwa [hph] at this
  obtain ⟨hid, hversion⟩ := (GoalSet.change_of_apply ha).id_version
  have hid : a.id = m.first.id := hid.trans hcopy.id
  refine ⟨hcopy, hid, hversion, ?_⟩
  rw [hid]
  exact h.stored

/-- an update that is granted finds the copy to be what is stored -/
theorem current_of_granted {failed : Nat} {copy a b : GoalSet} {o : GoalSet.Op} {r : Repository GoalSet}
    (h : Serial m s log t) (hph : phase (m.protocols n) n log = .holding failed copy) (ha : copy.apply o = .ok a)
    (hu : s.store.goalSets.update a = .ok (b, r)) :
    copy = t ∧ ∃ v, v.toInt = t.version.toInt + 1 ∧ b = { a with version := v } := by
  obtain ⟨hcopy, -, hversion, hget⟩ := changed_copy h hph ha
  obtain ⟨stored, v, hfound, hsame, hv, rfl, -⟩ := Repository.update_eq_ok hu
  obtain rfl := Option.some.inj (hfound.symm.trans hget)
  exact ⟨hcopy.current (hversion.symm.trans hsame.symm), v, hv, rfl⟩

/-- an update that meets a stale write comes after a write that the client did not see -/
theorem older_of_stale {failed : Nat} {copy a : GoalSet} {o : GoalSet.Op} {j : Id} (h : Serial m s log t)
    (hph : phase (m.protocols n) n log = .holding failed copy) (ha : copy.apply o = .ok a)
    (hu : s.store.goalSets.update a = .refused (.staleWrite j)) : copy.version.toInt < t.version.toInt := by
  obtain ⟨hcopy, -, hversion, hget⟩ := changed_copy h hph ha
  obtain ⟨-, hf⟩ | ⟨stored, hfound, hne, -⟩ := Repository.update_eq_refused hu
  · cases hf
  · obtain rfl := Option.some.inj (hfound.symm.trans hget)
    refine lt_of_le_of_ne hcopy.version_le fun heq => hne ?_
    exact (Int32.toInt_inj.1 heq).symm.trans hversion.symm

theorem serial_of_write {failed : Nat} {copy a b : GoalSet} {o : GoalSet.Op} {r : Repository GoalSet}
    (h : Serial m s log t) (hph : phase (m.protocols n) n log = .holding failed copy) (hmine : m.mine n o)
    (ha : copy.apply o = .ok a) (hu : s.store.goalSets.update a = .ok (b, r)) (hs : s'.store.goalSets = r)
    (hopen : s'.channelOpen = s.channelOpen) :
    Serial m s' (log ++ [⟨n, .update .goalSet a, .value b⟩]) b := by
  obtain ⟨-, hid, -, -⟩ := changed_copy h hph ha
  obtain ⟨rfl, v, hv, rfl⟩ := current_of_granted h hph ha hu
  have hw : Exchange.writes .goalSet m.first.id ⟨n, .update .goalSet a, .value { a with version := v }⟩ = true := by
    simp only [Exchange.writes, Bool.and_eq_true, beq_iff_eq]
    exact ⟨trivial, hid⟩
  have hwrote : m.wrote (log ++ [⟨n, .update .goalSet a, .value { a with version := v }⟩]) = m.wrote log ++ [n] :=
    writers_snoc_of_write hw
  have hnew : n ∉ m.wrote log := by
    rw [h.written_iff n, hph]
    exact Phase.noConfusion
  refine ⟨hopen.trans h.heard, ?_, ?_, ?_, fun k => ?_, fun k => ?_⟩
  · rw [hs, ← hid]
    exact Repository.get?_of_update hu
  · obtain ⟨os, hos, hall⟩ := h.landed
    refine ⟨os ++ [o], GoalSet.landAll_snoc hos (GoalSet.landed_of_toInt ha hv), ?_⟩
    rw [hwrote]
    exact List.rel_append hall (.cons hmine .nil)
  · rw [hwrote]
    refine List.nodup_append.2 ⟨h.nodup, List.nodup_singleton n, fun k hk k' hk' heq => hnew ?_⟩
    rwa [← List.mem_singleton.1 hk', ← heq]
  · rw [hwrote, List.mem_append, List.mem_singleton]
    by_cases hk : n = k
    · subst hk
      rw [phase_snoc_self, hph]
      exact iff_of_true (.inr rfl) rfl
    · rw [phase_snoc_of_ne _ _ hk, ← h.written_iff k]
      exact or_iff_left fun heq => hk heq.symm
  · by_cases hk : n = k
    · subst hk
      rw [phase_snoc_self, hph]
      trivial
    · rw [phase_snoc_of_ne _ _ hk]
      exact sees_snoc_of_write (h.sees k) hk hw hv

theorem serial_of_stale {failed : Nat} {copy a : GoalSet} {o : GoalSet.Op} {j : Id}
    (h : Serial m s log t) (hph : phase (m.protocols n) n log = .holding failed copy) (ha : copy.apply o = .ok a)
    (hu : s.store.goalSets.update a = .refused (.staleWrite j)) :
    Serial m s (log ++ [⟨n, .update .goalSet a, .failure (.staleWrite j)⟩]) t := by
  obtain ⟨hcopy, hid, -, -⟩ := changed_copy h hph ha
  have hupdate : Exchange.updates .goalSet m.first.id ⟨n, .update .goalSet a, .failure (.staleWrite j)⟩ = true := by
    simp only [Exchange.updates, Bool.and_eq_true, beq_iff_eq]
    exact ⟨trivial, hid⟩
  refine serial_of_not_write h rfl rfl rfl ?_ ?_
  · rw [hph]
    exact iff_of_false Phase.noConfusion Phase.noConfusion
  · rw [hph]
    change failed + 1 ≤ writesByOthers .goalSet m.first.id n (span .goalSet m.first.id n _)
    -- the span now ends with this update, and the write that was not seen is in it
    rw [span_snoc_of_update hcopy.fetched rfl hupdate, ← since_snoc hcopy.fetched]
    have hpaid := hcopy.paid
    have holder := older_of_stale h hph ha hu
    have hmore := writesByOthers_since_le_snoc .goalSet m.first.id n log
      ⟨n, .update .goalSet a, .failure (.staleWrite j)⟩
    omega

/-- an update that fails for good -/
theorem serial_of_failed_update {failed : Nat} {copy a : GoalSet} {x : Ending GoalSet} (h : Serial m s log t)
    (hph : phase (m.protocols n) n log = .holding failed copy)
    (hw : Exchange.writes .goalSet m.first.id ⟨n, .update .goalSet a, x⟩ = false)
    (hafter : (m.protocols n).after (.holding failed copy) (.update .goalSet a) x = .ended) :
    Serial m s (log ++ [⟨n, .update .goalSet a, x⟩]) t := by
  refine serial_of_not_write h rfl rfl hw ?_ ?_
  · rw [hph, hafter]
    exact iff_of_false Phase.noConfusion Phase.noConfusion
  · rw [hph, hafter]
    trivial

/-- updates that a writer asks are answered as it expects, and keep the set serial -/
theorem serial_of_update {a : GoalSet} (h : Serial m s log t)
    (hasks : (m.protocols n).asks (phase (m.protocols n) n log) (.update .goalSet a)) :
    (m.protocols n).answers (.update .goalSet a) (Service.answer m.env (.update .goalSet a) s).1 ∧
      ∃ t, Serial m (Service.answer m.env (.update .goalSet a) s).2
        (log ++ [⟨n, .update .goalSet a, (Service.answer m.env (.update .goalSet a) s).1⟩]) t := by
  obtain ⟨failed, copy, o, hph, hmine, ha⟩ := hasks
  cases hu : s.store.goalSets.update a with
  | ok p =>
    rw [Service.answer_update_of_ok (k := .goalSet) hu]
    exact ⟨.inl ⟨_, rfl⟩, _, serial_of_write h hph hmine ha hu rfl rfl⟩
  | refused f =>
    rw [Service.answer_update_of_refused (k := .goalSet) hu]
    obtain ⟨-, rfl⟩ | ⟨stored, -, -, rfl⟩ := Repository.update_eq_refused hu
    · exact ⟨.inr (.inr (.inl ⟨_, rfl⟩)), t, serial_of_failed_update h hph rfl rfl⟩
    · exact ⟨.inr (.inl ⟨_, rfl⟩), t, serial_of_stale h hph ha hu⟩
  | fault f =>
    rw [Service.answer_update_of_fault (k := .goalSet) hu]
    exact ⟨.inr (.inr (.inr ⟨f, rfl⟩)), t, serial_of_failed_update h hph rfl rfl⟩

/-- every request of a writer keeps the set serial -/
theorem serial_preserved (m : Meeting) :
    Preserved (Service.answer m.env) m.protocols fun s log => ∃ t, Serial m s log t := by
  intro s log n r ⟨t, h⟩ hasks
  have hstore : ∀ {r : Request}, r.isWrite = false →
      (Service.answer m.env r s).2.store.goalSets = s.store.goalSets :=
    fun hr => congrArg Store.goalSets (Service.store_answer hr)
  have hopen : ∀ r, (Service.answer m.env r s).2.channelOpen = s.channelOpen := Service.channelOpen_answer
  cases r with
  | get k j =>
    cases k with
    | goalSet =>
      obtain ⟨rfl, failed, -, hph⟩ := hasks
      refine ⟨⟨_, rfl⟩, t, ?_⟩
      have hanswer : Service.answer m.env (.get .goalSet (m.client n).set) s = (.value (some t), s) :=
        congrArg (fun o => (Ending.value o, s)) h.stored
      rw [hanswer]
      exact serial_of_fetch h hph
    | _ => exact hasks.elim
  | list k => exact hasks.elim
  | add k a => exact hasks.elim
  | update k a =>
    cases k with
    | goalSet => exact serial_of_update h hasks
    | _ => exact hasks.elim
  | publish e =>
    exact ⟨(Service.answer_publish e).trans h.heard, t, serial_of_quiet h (hstore rfl) (hopen _) rfl rfl rfl⟩
  | freshId => exact ⟨⟨_, rfl⟩, t, serial_of_quiet h (hstore rfl) (hopen _) rfl rfl rfl⟩
  | count c => exact ⟨trivial, t, serial_of_quiet h (hstore rfl) (hopen _) rfl rfl rfl⟩
  | clock => exact ⟨trivial, t, serial_of_quiet h (hstore rfl) (hopen _) rfl rfl rfl⟩
  | isCancelled => exact ⟨trivial, t, serial_of_quiet h (hstore rfl) (hopen _) rfl rfl rfl⟩
  | pause d => exact ⟨trivial, t, serial_of_quiet h (hstore rfl) (hopen _) rfl rfl rfl⟩

/-! ## Runs -/

theorem serial_start {s : Service} (heard : s.channelOpen = m.heard)
    (hg : s.store.goalSets.get? m.first.id = some m.first) : Serial m s [] m.first :=
  ⟨heard, hg, ⟨[], rfl, .nil⟩, List.nodup_nil, fun _ => iff_of_false List.not_mem_nil Phase.noConfusion,
    fun _ => Nat.zero_le _⟩

/-- whoever wrote asked an operation -/
theorem exists_of_forall₂ {ns : List Nat} {os : List GoalSet.Op} {mine : Nat → GoalSet.Op → Prop}
    (h : List.Forall₂ mine ns os) {n : Nat} (hn : n ∈ ns) : ∃ o, mine n o := by
  induction h with
  | nil => cases hn
  | cons ho _ ih =>
    rcases List.mem_cons.1 hn with rfl | hn
    · exact ⟨_, ho⟩
    · exact ih hn

/-- a client that did not write is one more than those that did -/
theorem length_wrote_lt {count : Nat} (h : Serial m s log t) (hmine : ∀ n o, m.mine n o → n < count) {n : Nat}
    (hn : n < count) (hnot : n ∉ m.wrote log) : (m.wrote log).length < count := by
  have hsub : n :: m.wrote log ⊆ List.range count := by
    intro k hk
    refine List.mem_range.2 ?_
    rcases List.mem_cons.1 hk with rfl | hk
    · exact hn
    · obtain ⟨os, -, hall⟩ := h.landed
      obtain ⟨o, ho⟩ := exists_of_forall₂ hall hk
      exact hmine k o ho
  have := ((List.nodup_cons.2 ⟨hnot, h.nodup⟩).subperm hsub).length_le
  rwa [List.length_range] at this

/-- a client that gives up was overtaken as often as it may try, and wrote nothing -/
theorem overtaken_of_conflict {run : Sessions (Ending β) Service} {msg : String}
    (hk : Kept m.protocols (fun n => Ends (m.client n)) (fun s log => ∃ t, Serial m s log t) run)
    (ht : Serial m run.world run.log t) (hn : run.Ended n (.failure (.conflict msg))) :
    m.limit ≤ writesByOthers .goalSet m.first.id n (span .goalSet m.first.id n run.log) ∧ n ∉ m.wrote run.log := by
  have hph : phase (m.protocols n) n run.log = .idle m.limit := hk.keeps n _ hn
  have hsees := ht.sees n
  have hwrote := ht.written_iff n
  rw [hph] at hsees hwrote
  exact ⟨hsees, fun hin => Phase.noConfusion (hwrote.1 hin)⟩

end ConcurrentWriters

namespace Service

open ConcurrentWriters GoalSetWriter Sessions

variable (env : Surroundings) (settings : Settings) (commands : List Command) (schedule : List Nat) (s : Service)

/-- several commands at one service, their requests interleaved in the order of a schedule -/
def interleaved : Sessions (Ending CommandResult) Service :=
  (Sessions.start (commands.map fun c => (c.task settings).plan) s).interleave (answer env) schedule

theorem length_interleaved : (s.interleaved env settings commands schedule).plans.length = commands.length :=
  (length_interleave _ _ _).trans (List.length_map _)

/-- the commands as writers of one goal set -/
def meeting (g : GoalSet) : Meeting :=
  ⟨env, s.channelOpen, settings.retry.limit, g, fun n o => ∃ c j, commands[n]? = some c ∧ c.op? (env.ids j) = some o⟩

theorem kept_interleaved {g : GoalSet} (targets : ∀ c ∈ commands, c.goalSet? = some g.id)
    (stored : s.store.goalSets.get? g.id = some g) :
    Kept (s.meeting env settings commands g).protocols (fun n => Ends ((s.meeting env settings commands g).client n))
      (fun s' log => ∃ t, Serial (s.meeting env settings commands g) s' log t)
      (s.interleaved env settings commands schedule) := by
  refine kept_interleave (serial_preserved _) (kept_start (fun n p hp => ?_) ⟨g, serial_start rfl stored⟩) schedule
  rw [List.getElem?_map] at hp
  obtain ⟨c, hc, rfl⟩ := Option.map_eq_some_iff.1 hp
  exact task_keeps (w := (s.meeting env settings commands g).client n) (targets c (List.mem_of_getElem? hc)) rfl
    fun j o ho => ⟨c, j, hc, ho⟩

/-- **No lost and no repeated write.** Any number of commands change one goal set, interleaved in any order.
The stored set is the first one with the operations of exactly the writers, each once, in the order of their writes, and
its version counts them. Among commands that have ended, those with a value are writers, and a writer has a value unless
nobody listens to its event. A command that ends with a conflict was overtaken by as many writes of others, between its
first fetch and its last update, as the policy allows tries; so none does if there are no more commands than tries. -/
theorem writers_serialized {g : GoalSet} (targets : ∀ c ∈ commands, c.goalSet? = some g.id)
    (stored : s.store.goalSets.get? g.id = some g) :
    let run := s.interleaved env settings commands schedule
    let wrote := writers .goalSet g.id run.log
    (∃ t os, run.world.store.goalSets.get? g.id = some t ∧ g.landAll os = .ok t ∧
      List.Forall₂ (fun n o => ∃ c j, commands[n]? = some c ∧ c.op? (env.ids j) = some o) wrote os ∧
      t.version.toInt = g.version.toInt + wrote.length) ∧
    wrote.Nodup ∧
    (∀ n e, run.Ended n e →
      ((∃ r, e = .value r) → n ∈ wrote) ∧
      (n ∈ wrote → (∃ r, e = .value r) ∨ s.channelOpen = false ∧ ∃ m, e = .failure (.event m)) ∧
      ∀ m, e = .failure (.conflict m) →
        settings.retry.limit ≤ writesByOthers .goalSet g.id n (span .goalSet g.id n run.log)) ∧
    (commands.length ≤ settings.retry.limit → ∀ n m, ¬run.Ended n (.failure (.conflict m))) := by
  intro run wrote
  have hkept := s.kept_interleaved env settings commands schedule targets stored
  obtain ⟨t, ht⟩ := hkept.holds
  refine ⟨?_, ht.nodup, fun n e hn => ⟨?_, fun hin => ?_, ?_⟩, fun hfew n msg hn => ?_⟩
  · obtain ⟨os, hos, hall⟩ := ht.landed
    refine ⟨t, os, ht.stored, hos, hall, ?_⟩
    rw [GoalSet.version_of_landAll hos, ← hall.length_eq]
    rfl
  · rintro ⟨r, rfl⟩
    exact (ht.written_iff n).2 (hkept.keeps n _ hn)
  · have hends := hkept.keeps n _ hn
    rw [(ht.written_iff n).1 hin] at hends
    exact Ends.of_written hends
  · rintro msg rfl
    exact (overtaken_of_conflict hkept ht hn).1
  · obtain ⟨hmany, hnot⟩ := overtaken_of_conflict hkept ht hn
    have hcount : n < commands.length := by
      rw [← s.length_interleaved env settings commands schedule]
      exact (List.getElem?_eq_some_iff.1 hn).1
    -- the writers are some of the other commands, so they are fewer than the tries
    have hlt : wrote.length < commands.length :=
      length_wrote_lt ht (fun k o ⟨c, j, hc, _⟩ => (List.getElem?_eq_some_iff.1 hc).1) hcount hnot
    have hle : writesByOthers .goalSet g.id n (span .goalSet g.id n run.log) ≤ wrote.length :=
      le_trans writesByOthers_span_le writesByOthers_since_le
    exact Nat.not_lt.2 (hmany.trans hle) (lt_of_lt_of_le hlt hfew)

/-- a set with one goal -/
def shipIt : GoalSet :=
  ⟨.ofNat 1, 1, .ofNat 2, 5, none, [⟨.ofNat 7, "Ship it", .team, ⟨1, 2, 3, .number⟩, 100, none⟩], 2⟩

/-- two reports on that goal; the first command fetches first, is overtaken, and lands in its second try -/
def overtaken : Sessions (Ending CommandResult) Service :=
  interleaved ⟨.ofNat, fun _ => .epoch⟩ .standard
    [.submitProgress ⟨.ofNat 1, .ofNat 7, 70, none⟩, .submitProgress ⟨.ofNat 1, .ofNat 7, 80, none⟩]
    [0, 0, 1, 1, 1, 0, 0, 0, 0, 0, 0, 0, 1, 1] { start with store := { Store.empty with goalSets := ⟨[shipIt], []⟩ } }

theorem writers_serialized_overtaken :
    writers .goalSet shipIt.id overtaken.log = [1, 0] ∧
      (∃ t, overtaken.world.store.goalSets.get? shipIt.id = some t ∧ t.version.toInt = 4) ∧
      ∀ n m, ¬overtaken.Ended n (.failure (.conflict m)) := by
  have hwrote : writers .goalSet shipIt.id overtaken.log = [1, 0] := by decide +kernel
  obtain ⟨⟨t, os, ht, -, -, hversion⟩, -, -, hnone⟩ :=
    writers_serialized ⟨.ofNat, fun _ => .epoch⟩ .standard
      [.submitProgress ⟨.ofNat 1, .ofNat 7, 70, none⟩, .submitProgress ⟨.ofNat 1, .ofNat 7, 80, none⟩]
      [0, 0, 1, 1, 1, 0, 0, 0, 0, 0, 0, 0, 1, 1] { start with store := { Store.empty with goalSets := ⟨[shipIt], []⟩ } }
      (g := shipIt) (by decide) (by decide)
  refine ⟨hwrote, ⟨t, ht, ?_⟩, hnone (by decide)⟩
  calc t.version.toInt = shipIt.version.toInt + ((writers .goalSet shipIt.id overtaken.log).length : Int) := hversion
    _ = 4 := by rw [hwrote]; rfl

end Service

end Brigade
