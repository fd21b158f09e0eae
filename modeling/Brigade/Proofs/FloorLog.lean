/-
What the log of commands on orders and tables tells.

A client has landed once its write was granted; `landed` lists the clients in the order of their writes, and `ofLanded` puts
their histories one after another in that order. `Busy` is what every exchange of commands on the floor keeps
(`preserved_busy`), so that it holds under every schedule (`kept_floor`): each client lands at most once, its history is as
its phase tells, copies are worth what has been written since, and all that was announced comes from those who landed.
-/
import Brigade.Proofs.ConcurrentWriters
import Brigade.Proofs.Floor
import Brigade.Proofs.Histories
import Brigade.Proofs.OptimisticLocking
import Brigade.Proofs.Replay

namespace Brigade

open Answered Sessions

/-- a write that is granted, of an aggregate that is there or of a new one -/
def Exchange.lands : Exchange → Bool
  | ⟨_, .add _ _, .value _⟩ | ⟨_, .update _ _, .value _⟩ => true
  | _ => false

theorem Exchange.isWrite_of_lands {n : Nat} {r : Request} {x : r.Reply} (h : Exchange.lands ⟨n, r, x⟩ = true) :
    r.isWrite = true := by
  cases r <;> first | rfl | cases h

namespace Sessions

/-- the clients whose writes were granted, in the order of their writes -/
def landed (log : List Exchange) : List Nat := (log.filter (·.lands)).map (·.client)

variable {log : List Exchange} {e : Exchange} {n : Nat} {r : Request} {x : r.Reply}

theorem landed_snoc (log : List Exchange) (e : Exchange) :
    landed (log ++ [e]) = landed log ++ if e.lands then [e.client] else [] := by
  cases h : e.lands <;> simp [landed, List.filter_append, h]

/-- the histories of the clients that landed, one after another in the order of their writes -/
def ofLanded (log : List Exchange) : List Answered := (landed log).flatMap fun n => own n log

theorem flatMap_own_snoc (h : e.client ∉ landed log) :
    ((landed log).flatMap fun n => own n (log ++ [e])) = ofLanded log :=
  List.flatMap_congr fun _ hn => own_snoc_of_ne (fun heq => h (heq ▸ hn)) log

theorem ofLanded_snoc_of_lands (h : e.client ∉ landed log) (hl : e.lands = true) :
    ofLanded (log ++ [e]) = ofLanded log ++ own e.client (log ++ [e]) := by
  rw [ofLanded, landed_snoc, if_pos hl, List.flatMap_append, flatMap_own_snoc h, List.flatMap_singleton]

theorem ofLanded_snoc_of_idle (h : e.client ∉ landed log) (hl : ¬e.lands = true) :
    ofLanded (log ++ [e]) = ofLanded log := by
  rw [ofLanded, landed_snoc, if_neg hl, List.append_nil, flatMap_own_snoc h]

/-- a client that has landed goes on in the middle -/
theorem ofLanded_snoc_perm (hnodup : (landed log).Nodup) (h : n ∈ landed log)
    (hl : ¬Exchange.lands ⟨n, r, x⟩ = true) :
    (ofLanded (log ++ [⟨n, r, x⟩])).Perm (ofLanded log ++ [⟨r, x⟩]) := by
  rw [ofLanded, landed_snoc, if_neg hl, List.append_nil]
  obtain ⟨pre, post, hsplit⟩ := List.append_of_mem h
  rw [hsplit] at hnodup
  obtain ⟨-, hcons, hdisjoint⟩ := List.nodup_append.1 hnodup
  have hothers : ∀ ms : List Nat, n ∉ ms →
      (ms.flatMap fun m => own m (log ++ [⟨n, r, x⟩])) = ms.flatMap fun m => own m log :=
    fun ms hms => List.flatMap_congr fun m hm => own_snoc_of_ne (fun heq : n = m => hms (heq ▸ hm)) log
  have hpre := hothers pre fun hn => hdisjoint n hn n List.mem_cons_self rfl
  have hpost := hothers post (List.nodup_cons.1 hcons).1
  rw [ofLanded, hsplit, List.flatMap_append, List.flatMap_append, List.flatMap_cons, List.flatMap_cons, hpre, hpost,
    own_snoc_self]
  simp only [List.append_assoc]
  exact (List.perm_append_comm.append_left _).append_left _

/-- an exchange that lands nothing adds to the draws of those who landed at most what it draws -/
theorem drawn_ofLanded_snoc (hl : ¬Exchange.lands ⟨n, r, x⟩ = true)
    (hnone : n ∈ landed log → drawnIds [⟨r, x⟩] = [] ∧ drawnTimes [⟨r, x⟩] = []) :
    drawnIds (ofLanded (log ++ [⟨n, r, x⟩])) = drawnIds (ofLanded log) ∧
      drawnTimes (ofLanded (log ++ [⟨n, r, x⟩])) = drawnTimes (ofLanded log) := by
  have hsame : ∀ {β : Type} (f : Answered → Option β), (n ∈ landed log → f ⟨r, x⟩ = none) →
      (ofLanded (log ++ [⟨n, r, x⟩])).filterMap f = (ofLanded log).filterMap f := by
    intro β f hf
    rw [ofLanded, landed_snoc, if_neg hl, List.append_nil, ofLanded, List.filterMap_flatMap, List.filterMap_flatMap]
    refine List.flatMap_congr fun m hm => ?_
    by_cases hmn : n = m
    · subst hmn
      rw [own_snoc_self, List.filterMap_append, List.filterMap_cons_none (hf hm)]
      exact List.append_nil _
    · rw [own_snoc_of_ne hmn]
  refine ⟨hsame id? fun hn => ?_, hsame time? fun hn => ?_⟩
  · exact List.filterMap_eq_nil_iff.1 (hnone hn).1 _ (List.mem_singleton_self _)
  · exact List.filterMap_eq_nil_iff.1 (hnone hn).2 _ (List.mem_singleton_self _)

end Sessions

namespace Service

variable {env : Surroundings} {s t : Service} {r : Request} {n : Nat}

/-! ## Writes and the store -/

/-- an exchange that is not a granted write leaves the store alone -/
theorem store_of_not_lands (h : Exchange.lands ⟨n, r, (answer env r s).1⟩ = false) :
    (answer env r s).2.store = s.store := by
  cases r with
  | add k a =>
    rcases hadd : (s.store.repo k).add a with ⟨f | _, r'⟩
    · rw [answer_add_of_error (congrArg Prod.fst hadd)]
    · rw [answer_add_of_ok hadd] at h
      cases h
  | update k a =>
    cases hu : (s.store.repo k).update a with
    | ok p =>
      rw [answer_update_of_ok hu] at h
      cases h
    | refused f => rw [answer_update_of_refused hu]
    | fault f => rw [answer_update_of_fault hu]
  | _ => exact store_answer rfl

/-- a write is answered by the store alone -/
theorem answer_write (env env' : Surroundings) (h : r.isWrite = true) (hstore : s.store = t.store) :
    (answer env r s).1 = (answer env' r t).1 ∧ (answer env r s).2.store = (answer env' r t).2.store := by
  cases r with
  | add k a =>
    simp only [answer, hstore]
    rcases (t.store.repo k).add a with ⟨_ | _, r'⟩ <;> exact ⟨rfl, rfl⟩
  | update k a =>
    simp only [answer, hstore]
    cases (t.store.repo k).update a <;> exact ⟨rfl, by simp [hstore]⟩
  | _ => cases h

end Service

namespace Floor

variable {w : Floor} {ph : Phase} {r : Request} {x : r.Reply} {s t : Service} {env env' : Surroundings}

/-! ## One exchange of a command -/

/-- before its write and after it a command makes no other -/
theorem holding_of_isWrite (hasks : w.protocol.asks ph r) (hr : r.isWrite = true) :
    ∃ k i found, ph = .holding k i found ∧ w.Writes ph r := by
  cases ph with
  | arriving =>
    obtain hq | ⟨i, rfl | rfl⟩ := hasks
    · exact absurd hr (by simp [Request.isWrite_of_isQuiet hq])
    · cases hr
    · cases hr
  | holding k i found =>
    obtain hq | hw := hasks
    · exact absurd hr (by simp [Request.isWrite_of_isQuiet hq])
    · exact ⟨k, i, found, rfl, hw⟩
  | written =>
    obtain ⟨e, rfl⟩ | ⟨m, rfl⟩ := hasks
    · cases hr
    · cases hr
  | refused =>
    obtain ⟨m, rfl⟩ := hasks
    cases hr

/-- a command has written after a write that is granted, and from then on -/
theorem after_eq_written_iff (hasks : w.protocol.asks ph r) (n : Nat) :
    w.protocol.after ph r x = .written ↔ ph = .written ∨ Exchange.lands ⟨n, r, x⟩ = true := by
  by_cases hr : r.isWrite = true
  · obtain ⟨k, i, found, rfl, hw⟩ := holding_of_isWrite hasks hr
    have hunwritten : ¬(Phase.holding k i found = .written ∨ false = true) := by
      rintro (h | h) <;> cases h
    cases hw with
    | update hk hversion =>
      cases x with
      | value b => exact iff_of_true rfl (.inr rfl)
      | _ => exact iff_of_false nofun hunwritten
    | add hplaced havailable htable =>
      cases x with
      | value b => exact iff_of_true rfl (.inr rfl)
      | _ => exact iff_of_false nofun hunwritten
  · have hlands : ¬Exchange.lands ⟨n, r, x⟩ = true := fun h => hr (Exchange.isWrite_of_lands h)
    rw [or_iff_left hlands]
    cases ph with
    | arriving =>
      obtain hq | ⟨i, rfl | rfl⟩ := hasks
      · rw [(asks_quiet (show Phase.arriving.Open from trivial) hq).2]
      · cases x with
        | value found => exact iff_of_false nofun nofun
        | _ => exact Iff.rfl
      · cases x with
        | value found => exact iff_of_false nofun nofun
        | _ => exact Iff.rfl
    | holding k i found =>
      obtain hq | hw := hasks
      · rw [(asks_quiet open_holding hq).2]
      · cases hw <;> exact absurd rfl hr
    | written =>
      obtain ⟨e, rfl⟩ | ⟨m, rfl⟩ := hasks
      · exact Iff.rfl
      · exact Iff.rfl
    | refused =>
      obtain ⟨m, rfl⟩ := hasks
      exact Iff.rfl

/-- nothing is announced before the write -/
theorem written_of_publish {e : Event} (hasks : w.protocol.asks ph (.publish e)) : ph = .written := by
  cases ph with
  | arriving =>
    obtain hq | ⟨i, hr | hr⟩ := hasks
    · cases hq
    · cases hr
    · cases hr
  | holding k i found =>
    obtain hq | hw := hasks
    · cases hq
    · cases hw
  | written => rfl
  | refused =>
    obtain ⟨m, hr⟩ := hasks
    cases hr

/-- after its write a command draws nothing -/
theorem drawn_of_written (hasks : w.protocol.asks .written r) (x : r.Reply) :
    drawnIds [⟨r, x⟩] = [] ∧ drawnTimes [⟨r, x⟩] = [] := by
  obtain ⟨e, rfl⟩ | ⟨m, rfl⟩ := hasks
  · exact ⟨rfl, rfl⟩
  · exact ⟨rfl, rfl⟩

/-- after its write a command is replied by the channel alone -/
theorem reply_of_written (hasks : w.protocol.asks .written r) (hheard : s.channelOpen = t.channelOpen) :
    (Service.answer env r s).1 = (Service.answer env' r t).1 := by
  obtain ⟨e, rfl⟩ | ⟨m, rfl⟩ := hasks
  · rw [Service.answer_publish, Service.answer_publish, hheard]
  · rfl

/-- a service with the menu and the channel of the floor replies as expected -/
theorem answers_answer (hheard : s.channelOpen = w.heard) (hmenu : s.store.menuItems = w.menu) (r : Request) :
    w.protocol.answers r (Service.answer env r s).1 := by
  cases r with
  | get k i =>
    cases k with
    | menuItem => exact congrArg (fun m : Repository MenuItem => Ending.value (m.get? i)) hmenu
    | _ => exact ⟨_, rfl, fun a ha => Repository.id_of_get? ha⟩
  | add k a =>
    simp only [Service.answer]
    generalize hadd : (s.store.repo k).add a = y
    cases hadd ▸ Repository.add_case (s.store.repo k) a with
    | keyTaken key hkey taken => exact ⟨by rintro ⟨⟩, by rintro _ ⟨⟩⟩
    | idTaken free stored => exact ⟨by rintro ⟨⟩, by rintro _ ⟨⟩⟩
    | stored free unused => exact ⟨by rintro ⟨⟩, by rintro _ ⟨⟩⟩
  | update k a =>
    cases hu : (s.store.repo k).update a with
    | ok p =>
      rw [Service.answer_update_of_ok hu]
      exact ⟨by rintro ⟨⟩, by rintro _ ⟨⟩⟩
    | refused f =>
      rw [Service.answer_update_of_refused hu]
      refine ⟨by rintro ⟨⟩, fun m hm => ?_⟩
      rcases Repository.update_eq_refused hu with ⟨-, rfl⟩ | ⟨stored, -, -, rfl⟩
      · cases hm
      · cases hm
    | fault f =>
      rw [Service.answer_update_of_fault hu]
      exact ⟨by rintro ⟨⟩, by rintro _ ⟨⟩⟩
  | publish e => exact (Service.answer_publish e).trans hheard
  | _ => trivial

/-- the menu is as before -/
theorem menu_answer (hasks : w.protocol.asks ph r) :
    (Service.answer env r s).2.store.menuItems = s.store.menuItems := by
  by_cases hr : r.isWrite = true
  · obtain ⟨k, i, found, rfl, hw⟩ := holding_of_isWrite hasks hr
    have hother : ∀ {k : Kind} (r : Repository k.Member), k ≠ .menuItem →
        (s.store.setRepo k r).repo .menuItem = s.store.repo .menuItem :=
      fun r hk => s.store.repo_setRepo_of_ne hk.symm r
    cases hw with
    | update hk hversion =>
      rename_i a c
      cases hu : (s.store.repo k).update a with
      | ok p =>
        rw [Service.answer_update_of_ok hu]
        exact hother _ hk
      | refused f => rw [Service.answer_update_of_refused hu]
      | fault f => rw [Service.answer_update_of_fault hu]
    | add hplaced havailable htable =>
      simp only [Service.answer]
      split
      · exact hother _ Kind.noConfusion
      · exact hother _ Kind.noConfusion
  · rw [Service.store_answer (by simpa using hr)]

end Floor

namespace Service

variable {env : Surroundings} {settings : Settings} {commands : List Command} {schedule : List Nat}
  {before s : Service} {log : List Exchange} {n : Nat}

/-! ## What holds of every log -/

/-- a client as a command on the floor -/
def onFloor (commands : List Command) (before : Service) (n : Nat) : Floor :=
  ⟨before.channelOpen, before.store.menuItems, fun c => commands[n]? = some (.createOrder c)⟩

/-- where a client is -/
def floorPhase (commands : List Command) (before : Service) (n : Nat) (log : List Exchange) : Floor.Phase :=
  phase (before.onFloor commands n).protocol n log

theorem floorPhase_snoc_self (r : Request) (x : r.Reply) :
    before.floorPhase commands n (log ++ [⟨n, r, x⟩]) =
      (before.onFloor commands n).protocol.after (before.floorPhase commands n log) r x := phase_snoc_self _ n log r x

theorem floorPhase_snoc_of_ne {e : Exchange} (h : e.client ≠ n) :
    before.floorPhase commands n (log ++ [e]) = before.floorPhase commands n log := phase_snoc_of_ne _ log h

/-- commands on the floor beside one another: copies are dated, histories are as the phases tell, each client lands at
most once, and what is announced comes from those who landed -/
structure Busy (commands : List Command) (before s : Service) (log : List Exchange) : Prop where
  heard : s.channelOpen = before.channelOpen
  menu : s.store.menuItems = before.store.menuItems
  dated : CopiesDated s log
  tells : ∀ n, (before.onFloor commands n).Tells (before.floorPhase commands n log) (own n log)
  landed_iff : ∀ n, n ∈ landed log ↔ before.floorPhase commands n log = .written
  nodup : (landed log).Nodup
  events : s.events.Perm (before.events ++ announced (ofLanded log))

/-- what is asked before the write announces nothing -/
theorem announced_of_quiet {w : Floor} {h : List Answered} (hquiet : ∀ x ∈ h, w.Quiet x) : announced h = [] := by
  refine List.filterMap_eq_nil_iff.2 fun x hx => ?_
  obtain ⟨r, x⟩ := x
  have hr := hquiet _ hx
  cases r with
  | publish e => cases hr
  | _ => rfl

theorem announced_of_prepared {w : Floor} {k : Kind} {i : Id} {found : Option k.Member} {h : List Answered}
    (hp : w.Prepared k i found h) : announced h = [] := by
  obtain ⟨pre, post, rfl, hpre, hpost⟩ := hp
  rw [announced_append, announced_of_quiet hpre]
  change announced post = []
  exact announced_of_quiet hpost

/-- the client of a landing has only prepared before -/
theorem Busy.prepared (h : Busy commands before s log) {r : Request}
    (hasks : (before.onFloor commands n).protocol.asks (before.floorPhase commands n log) r) (hr : r.isWrite = true) :
    n ∉ landed log ∧ ∃ k i found, (before.onFloor commands n).Prepared k i found (own n log) ∧
      (before.onFloor commands n).Writes (.holding k i found) r := by
  obtain ⟨k, i, found, hph, hw⟩ := Floor.holding_of_isWrite hasks hr
  have htells := h.tells n
  rw [hph] at hw htells
  refine ⟨fun hn => ?_, k, i, found, htells, hw⟩
  have := (h.landed_iff n).1 hn
  rw [hph] at this
  cases this

section Snoc

variable {r : Request} {x : r.Reply}

/-- who has landed after one more exchange -/
theorem Busy.landed_iff_snoc (h : Busy commands before s log)
    (hasks : (before.onFloor commands n).protocol.asks (before.floorPhase commands n log) r) (m : Nat) :
    m ∈ landed (log ++ [⟨n, r, x⟩]) ↔ before.floorPhase commands m (log ++ [⟨n, r, x⟩]) = .written := by
  rw [landed_snoc, List.mem_append, h.landed_iff m]
  by_cases hmn : n = m
  · subst hmn
    rw [floorPhase_snoc_self, Floor.after_eq_written_iff hasks n]
    refine or_congr_right ?_
    cases Exchange.lands ⟨n, r, x⟩ <;> simp
  · rw [floorPhase_snoc_of_ne hmn]
    refine or_iff_left fun hm => hmn ?_
    split at hm
    · exact (List.mem_singleton.1 hm).symm
    · cases hm

theorem Busy.nodup_snoc (h : Busy commands before s log)
    (hasks : (before.onFloor commands n).protocol.asks (before.floorPhase commands n log) r) :
    (landed (log ++ [⟨n, r, x⟩])).Nodup := by
  rw [landed_snoc]
  split
  · rename_i hl
    have hnot := (h.prepared hasks (Exchange.isWrite_of_lands hl)).1
    refine List.nodup_append.2 ⟨h.nodup, List.nodup_singleton n, fun a ha b hb hab => hnot ?_⟩
    obtain rfl : b = n := List.mem_singleton.1 hb
    exact hab ▸ ha
  · rw [List.append_nil]
    exact h.nodup

/-- what an exchange announces comes to the history of its client -/
theorem Busy.announced_snoc (h : Busy commands before s log)
    (hasks : (before.onFloor commands n).protocol.asks (before.floorPhase commands n log) r) :
    (announced (ofLanded (log ++ [⟨n, r, x⟩]))).Perm (announced (ofLanded log) ++ announced [⟨r, x⟩]) := by
  by_cases hn : n ∈ landed log
  · have hidle : ¬Exchange.lands ⟨n, r, x⟩ = true := fun hl =>
      (h.prepared hasks (Exchange.isWrite_of_lands hl)).1 hn
    rw [← announced_append]
    exact (ofLanded_snoc_perm h.nodup hn hidle).filterMap event?
  · have hnothing : announced [⟨r, x⟩] = [] := by
      cases r with
      | publish e => exact absurd ((h.landed_iff n).2 (Floor.written_of_publish hasks)) hn
      | _ => rfl
    by_cases hl : Exchange.lands ⟨n, r, x⟩ = true
    · obtain ⟨-, k, i, found, hprepared, -⟩ := h.prepared hasks (Exchange.isWrite_of_lands hl)
      rw [ofLanded_snoc_of_lands hn hl, announced_append, own_snoc_self, announced_append,
        announced_of_prepared hprepared]
      rfl
    · rw [ofLanded_snoc_of_idle hn hl, hnothing, List.append_nil]

end Snoc

/-- every exchange of commands on the floor keeps it busy -/
theorem preserved_busy (env : Surroundings) (commands : List Command) (before : Service) :
    Preserved (answer env) (fun n => (before.onFloor commands n).protocol) (Busy commands before) := by
  intro s log n r h hasks
  have hanswer : (before.onFloor commands n).protocol.answers r (answer env r s).1 :=
    Floor.answers_answer h.heard h.menu r
  refine ⟨hanswer, (channelOpen_answer r).trans h.heard, (Floor.menu_answer hasks).trans h.menu,
    copiesDated_snoc h.dated n r, fun m => ?_, h.landed_iff_snoc hasks, h.nodup_snoc hasks, ?_⟩
  · by_cases hmn : n = m
    · subst hmn
      rw [floorPhase_snoc_self, own_snoc_self]
      exact Floor.tells_snoc (h.tells n) hasks hanswer
    · rw [floorPhase_snoc_of_ne hmn, own_snoc_of_ne hmn]
      exact h.tells m
  · rw [(passed_answer env r s).2]
    refine (h.events.append_right _).trans ?_
    rw [List.append_assoc]
    exact (h.announced_snoc hasks).symm.append_left _

/-! ## Runs -/

variable (env settings schedule s)

/-- commands on the floor keep to its protocol, and it is busy, under every schedule -/
theorem kept_floor (hfloor : ∀ c ∈ commands, c.onFloor = true) :
    Kept (fun n => (s.onFloor commands n).protocol) (fun n => Floor.Ends (s.onFloor commands n)) (Busy commands s)
      (s.interleaved env settings commands schedule) := by
  have hstart : Busy commands s s [] :=
    ⟨rfl, rfl, fun pre since n k i c h => by simp at h, fun n => List.forall_mem_nil _,
      fun n => iff_of_false List.not_mem_nil Floor.Phase.noConfusion, List.nodup_nil, by simp [ofLanded, landed, announced]⟩
  refine kept_interleave (preserved_busy env commands s) (kept_start (fun n p hp => ?_) hstart) schedule
  rw [List.getElem?_map] at hp
  obtain ⟨c, hc, rfl⟩ := Option.map_eq_some_iff.1 hp
  refine Floor.task_keeps_floor settings (hfloor c (List.mem_of_getElem? hc)) fun o ho => ?_
  subst ho
  exact hc

variable {env settings schedule s}

theorem interleaved_snoc (schedule : List Nat) (n : Nat) :
    s.interleaved env settings commands (schedule ++ [n]) =
      (s.interleaved env settings commands schedule).turn (answer env) n :=
  interleave_snoc _ schedule n _

/-- whoever has a plan has a command -/
theorem command_of_plan {p : Plan (Ending CommandResult)}
    (h : (s.interleaved env settings commands schedule).plans[n]? = some p) : ∃ c, commands[n]? = some c := by
  obtain ⟨hlen, -⟩ := List.getElem?_eq_some_iff.1 h
  rw [length_interleaved] at hlen
  exact ⟨commands[n], List.getElem?_eq_getElem hlen⟩

variable (env settings schedule s) in
/-- a client stands where its history leads its command -/
theorem path_interleaved {c : Command} (hc : commands[n]? = some c) :
    ∃ q, (s.interleaved env settings commands schedule).plans[n]? = some q ∧
      (c.task settings).plan.Path (own n (s.interleaved env settings commands schedule).log) q := by
  refine path_interleave ?_
  rw [List.getElem?_map, hc]
  rfl

end Service

end Brigade
